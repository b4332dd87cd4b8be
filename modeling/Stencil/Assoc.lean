/-!
# Insertion-ordered dictionaries

`Assoc α` is a finite map from strings to `α` that remembers the order in which its keys were
first inserted. It carries the names of a render frame, the entries of a template map, the
functions of a compiled template and every other named table of the library.

* Writing to a key that is present replaces its value **in place**; a new key goes to the end.
* Removing a key keeps the order of the others.
* Keys are distinct in every value of the type: the invariant is the field `Assoc.nodup`.

Main statements: `Assoc.keys_insert` gives the key order after a write, `Assoc.get?_insert` and
`Assoc.get?_erase` say that a write or a removal touches one key only.
-/

namespace Stencil

/-- What is found in a list of pairs is in it. -/
theorem mem_of_lookup {κ α : Type} [BEq κ] [LawfulBEq κ] {l : List (κ × α)} {key : κ} {a : α}
    (h : l.lookup key = some a) : (key, a) ∈ l := by
  obtain ⟨front, back, rfl, -⟩ := List.lookup_eq_some_iff.1 h
  simp

/-- A finite map with string keys, in the order of first insertion. -/
structure Assoc (α : Type) where
  /-- The entries, oldest first. -/
  entries : List (String × α)
  /-- No key occurs twice. -/
  nodup : (entries.map Prod.fst).Nodup

namespace Assoc

variable {α : Type}

/-- The map without entries. -/
def empty : Assoc α := ⟨[], List.nodup_nil⟩

instance : Inhabited (Assoc α) := ⟨empty⟩

/-- The keys, oldest first. -/
def keys (m : Assoc α) : List String := m.entries.map Prod.fst

/-- The values, in the order of their keys. -/
def values (m : Assoc α) : List α := m.entries.map Prod.snd

/-- The number of entries. -/
def size (m : Assoc α) : Nat := m.entries.length

/-- The value stored under `key`. -/
def get? (m : Assoc α) (key : String) : Option α := m.entries.lookup key

/-- Whether `key` has an entry. -/
def contains (m : Assoc α) (key : String) : Bool := m.entries.any (·.1 == key)

/-! ### Writing -/

/-- Replaces the first entry of `key`, or appends one. -/
def write (key : String) (value : α) : List (String × α) → List (String × α)
  | [] => [(key, value)]
  | (k, v) :: rest => if k = key then (k, value) :: rest else (k, v) :: write key value rest

/-- A write keeps the order of the keys, and puts a new key behind all others. -/
theorem map_fst_write (key : String) (value : α) (l : List (String × α)) :
    (write key value l).map Prod.fst =
      if key ∈ l.map Prod.fst then l.map Prod.fst else l.map Prod.fst ++ [key] := by
  induction l with
  | nil => simp [write]
  | cons e rest ih =>
    obtain ⟨k, v⟩ := e
    by_cases h : k = key
    · simp [write, h]
    · have h' : ¬ key = k := fun e => h e.symm
      simp only [write, h, if_false, List.map_cons, ih, List.mem_cons, h', false_or]
      split <;> rfl

/-- So a write never makes a key stand twice. -/
theorem nodup_map_fst_write (key : String) (value : α) {l : List (String × α)}
    (h : (l.map Prod.fst).Nodup) : ((write key value l).map Prod.fst).Nodup := by
  rw [map_fst_write]
  split
  · exact h
  · rename_i hk
    exact List.nodup_append.2 ⟨h, by simp, by
      intro a ha b hb e
      rw [List.mem_singleton] at hb
      exact hk (hb ▸ e ▸ ha)⟩

/-- Stores `value` under `key`, in place when the key is present and at the end otherwise. -/
def insert (m : Assoc α) (key : String) (value : α) : Assoc α :=
  ⟨write key value m.entries, nodup_map_fst_write key value m.nodup⟩

/-- Removes the entry of `key`, if there is one. -/
def erase (m : Assoc α) (key : String) : Assoc α :=
  ⟨m.entries.filter (·.1 != key),
    List.Nodup.sublist (List.Sublist.map _ List.filter_sublist) m.nodup⟩

/-- Stores every pair of a list, from left to right. -/
def insertAll (m : Assoc α) (l : List (String × α)) : Assoc α :=
  l.foldl (fun acc e => acc.insert e.1 e.2) m

/-- The map that holds the pairs of a list; of equal keys the last value stays, at the place of
the first. -/
def ofList (l : List (String × α)) : Assoc α := empty.insertAll l

/-! ### Laws -/

@[simp] theorem keys_empty : (empty : Assoc α).keys = [] := rfl

@[simp] theorem get?_empty (key : String) : (empty : Assoc α).get? key = none := rfl

/-- An insertion keeps the order of the keys, and puts a new key behind all others. -/
theorem keys_insert (m : Assoc α) (key : String) (value : α) :
    (m.insert key value).keys = if key ∈ m.keys then m.keys else m.keys ++ [key] :=
  map_fst_write key value m.entries

/-- Behind a write, its key has the value that was written, and every other key what it had. -/
theorem lookup_write (key : String) (value : α) (l : List (String × α)) (k : String) :
    (write key value l).lookup k = if k = key then some value else l.lookup k := by
  induction l with
  | nil =>
    by_cases h : k = key
    · simp [write, h]
    · simp [write, List.lookup_cons, beq_eq_false_iff_ne.2 h, h]
  | cons e rest ih =>
    -- an old entry of the same key is replaced in its place
    obtain ⟨k', v⟩ := e
    -- the write ends at the first entry with its key, and goes on behind any other
    by_cases h : k' = key
    · subst h
      by_cases hk : k = k'
      · simp [write, hk]
      · simp [write, List.lookup_cons, beq_eq_false_iff_ne.2 hk, hk]
    · by_cases hk : k = k'
      · subst hk
        simp [write, h]
      · simp [write, h, List.lookup_cons, beq_eq_false_iff_ne.2 hk, ih]

/-- Where the entries of a key are dropped, the other keys are found as before. -/
theorem lookup_filter_ne (key : String) (l : List (String × α)) (k : String) :
    (l.filter (·.1 != key)).lookup k = if k = key then none else l.lookup k := by
  induction l with
  | nil => simp
  | cons e rest ih =>
    obtain ⟨k', v⟩ := e
    -- the first entry is dropped, or it is kept and may be the one that is looked up
    by_cases hk : k' = key
    · subst hk
      by_cases hc : k = k'
      · subst hc
        simpa using ih
      · simp [ih, hc, List.lookup_cons, beq_eq_false_iff_ne.2 hc]
    · by_cases hc : k = k'
      · subst hc
        simp [hk]
      · simp [hk, List.lookup_cons, beq_eq_false_iff_ne.2 hc, ih]

/-- A write is seen under its own key and nowhere else. -/
theorem get?_insert (m : Assoc α) (key : String) (value : α) (k : String) :
    (m.insert key value).get? k = if k = key then some value else m.get? k :=
  lookup_write key value m.entries k

/-- A removal is seen under its own key and nowhere else. -/
theorem get?_erase (m : Assoc α) (key k : String) :
    (m.erase key).get? k = if k = key then none else m.get? k :=
  lookup_filter_ne key m.entries k

theorem contains_iff_mem_keys (m : Assoc α) (key : String) :
    m.contains key = true ↔ key ∈ m.keys := by
  simp [contains, keys]

/-- A lookup finds something just for the keys that are there. -/
theorem lookup_isSome_iff (l : List (String × α)) (key : String) :
    (l.lookup key).isSome ↔ key ∈ l.map Prod.fst := by
  induction l with
  | nil => simp
  | cons e rest _ =>
    by_cases h : key = e.1 <;> simp [h]

/-- A key is present exactly if a value is stored under it. -/
theorem isSome_get?_iff (m : Assoc α) (key : String) :
    (m.get? key).isSome ↔ m.contains key = true :=
  (lookup_isSome_iff m.entries key).trans (m.contains_iff_mem_keys key).symm

/-- An insertion adds its key and no other. -/
theorem contains_insert (m : Assoc α) (key : String) (value : α) (k : String) :
    (m.insert key value).contains k = true ↔ k = key ∨ m.contains k = true := by
  simp only [← isSome_get?_iff, get?_insert]
  split <;> simp_all

/-- A removal takes its key away and no other. -/
theorem contains_erase (m : Assoc α) (key k : String) :
    (m.erase key).contains k = true ↔ k ≠ key ∧ m.contains k = true := by
  simp only [← isSome_get?_iff, get?_erase]
  split <;> simp_all

theorem keys_erase (m : Assoc α) (key : String) :
    (m.erase key).keys = m.keys.filter (· != key) := by
  simp [keys, erase, List.filter_map, Function.comp_def]

/-- A value that is stored under a key is the value of an entry. -/
theorem mem_entries_of_get? {m : Assoc α} {key : String} {value : α}
    (h : m.get? key = some value) : (key, value) ∈ m.entries := mem_of_lookup h

/-- Where keys stand once, every entry is the one that its key finds. -/
theorem lookup_of_mem {l : List (String × α)} (hnodup : (l.map Prod.fst).Nodup) {key : String}
    {value : α} (h : (key, value) ∈ l) : l.lookup key = some value := by
  induction l with
  | nil => cases h
  | cons e rest ih =>
    obtain ⟨k, v⟩ := e
    rw [List.map_cons, List.nodup_cons] at hnodup
    rcases List.mem_cons.1 h with heq | hrest
    · obtain ⟨rfl, rfl⟩ := Prod.mk.inj heq
      simp
    -- an entry further behind has another key than the first one
    · have hne : key ≠ k := by
        rintro rfl
        exact hnodup.1 (List.mem_map.2 ⟨_, hrest, rfl⟩)
      rw [List.lookup_cons, beq_eq_false_iff_ne.2 hne]
      exact ih hnodup.2 hrest

/-- The entries are the keys with the values that are stored under them. -/
theorem mem_entries_iff {m : Assoc α} {key : String} {value : α} :
    (key, value) ∈ m.entries ↔ m.get? key = some value :=
  ⟨lookup_of_mem m.nodup, mem_entries_of_get?⟩

/-- What stands in a list behind a write was written, or was there before. -/
theorem mem_write {key : String} {value : α} {l : List (String × α)} {e : String × α}
    (h : e ∈ write key value l) : e = (key, value) ∨ e ∈ l := by
  induction l with
  | nil => exact .inl (List.mem_singleton.mp h)
  | cons first rest ih =>
    obtain ⟨k, v⟩ := first
    unfold write at h
    split at h
    · rename_i hkey
      subst hkey
      rcases List.mem_cons.mp h with hnew | hrest
      · exact .inl hnew
      · exact .inr (List.mem_cons_of_mem _ hrest)
    · rcases List.mem_cons.mp h with hold | hrest
      · exact .inr (hold ▸ List.mem_cons_self ..)
      · exact (ih hrest).imp_right (List.mem_cons_of_mem _)

/-- Every entry of a map that pairs were stored in was there before, or is one of the pairs. -/
theorem mem_entries_insertAll {m : Assoc α} {l : List (String × α)} {e : String × α}
    (h : e ∈ (m.insertAll l).entries) : e ∈ m.entries ∨ e ∈ l := by
  induction l generalizing m with
  | nil => exact .inl h
  | cons first rest ih =>
    rcases ih h with hold | hrest
    · rcases mem_write hold with hnew | hold
      · exact .inr (hnew ▸ List.mem_cons_self ..)
      · exact .inl hold
    · exact .inr (List.mem_cons_of_mem _ hrest)

/-- A key that is not there yet is written behind all entries. -/
theorem write_of_not_mem {key : String} {l : List (String × α)} (h : key ∉ l.map Prod.fst)
    (value : α) : write key value l = l ++ [(key, value)] := by
  induction l with
  | nil => rfl
  | cons first rest ih =>
    obtain ⟨k, v⟩ := first
    rw [List.map_cons, List.mem_cons, not_or] at h
    rw [write, if_neg (Ne.symm h.1), ih h.2, List.cons_append]

/-- Pairs with keys that are all new, and distinct, are stored behind what was there. -/
theorem entries_insertAll {m : Assoc α} {l : List (String × α)}
    (h : ((m.entries ++ l).map Prod.fst).Nodup) : (m.insertAll l).entries = m.entries ++ l := by
  induction l generalizing m with
  | nil => exact (List.append_nil _).symm
  | cons first rest ih =>
    obtain ⟨key, value⟩ := first
    -- the first of the new entries has a key that is not there, so it goes behind all entries
    have hnew : key ∉ m.entries.map Prod.fst := by
      intro hmem
      rw [List.map_append, List.map_cons] at h
      exact (List.nodup_append.mp h).2.2 key hmem key List.mem_cons_self rfl
    have hinsert : (m.insert key value).entries = m.entries ++ [(key, value)] :=
      write_of_not_mem hnew value
    rw [List.append_cons, ← hinsert] at h ⊢
    exact ih h

end Assoc

end Stencil
