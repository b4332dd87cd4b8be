import Mathlib.Data.List.Induction
import Stencil.Value.Heap

/-!
# What a map remembers of its history

A map begins without entries and is changed by writes and removals, each under one key. What it
holds then can be told from the history of these changes alone.

* A key has the value of its last write, unless a removal of the key comes after it (`Holds`).
* The keys stand in the order in which they were inserted. A write inserts its key if there is no
  entry of it, and is its birth if the entry has been there from then on (`BornAt`).

A change goes on with what is known of the history before it (`Assoc.Records.step`), so this holds
of every map that has come to be by changes, such as the map of a literal
(`Assoc.records_ofList`).

Main definitions: `MapChange`, `Holds`, `BornAt`, `Assoc.Records`.
Main statements: `Assoc.Records.step`, `Assoc.records_ofList`.
-/

namespace Stencil

/-- A change of a map under one of its keys. -/
inductive MapChange where
  | write (key : String) (value : Value)
  | remove (key : String)

/-- The key under which a change is made. -/
def MapChange.key : MapChange → String
  | write key _ | remove key => key

/-- The map behind a change. -/
def MapChange.apply (m : Assoc Value) : MapChange → Assoc Value
  | write key value => m.insert key value
  | remove key => m.erase key

/-- After these changes, a key has a value: it was written, and the key has not been changed
since. -/
def Holds (history : List MapChange) (key : String) (v : Value) : Prop :=
  ∃ earlier later, history = earlier ++ .write key v :: later ∧ ∀ c ∈ later, c.key ≠ key

/-- After these changes, the entry of a key is there since change number `n`, which inserted it. -/
def BornAt (history : List MapChange) (key : String) (n : Nat) : Prop :=
  ∃ earlier v later, history = earlier ++ .write key v :: later ∧ earlier.length = n ∧
    (∀ w, ¬ Holds earlier key w) ∧ MapChange.remove key ∉ later

/-- A map holds what its history says, in the order of the last insertions. -/
structure Assoc.Records (m : Assoc Value) (history : List MapChange) : Prop where
  holds : ∀ key v, m.get? key = some v ↔ Holds history key v
  born : ∀ key ∈ m.keys, ∃ n, BornAt history key n
  order : m.keys.Pairwise fun a b => ∀ i j, BornAt history a i → BornAt history b j → i < j

variable {history : List MapChange} {change : MapChange} {key : String} {v : Value} {n : Nat}

/-! ### One more change -/

/-- Where something stands in a history with one more change. -/
theorem snoc_eq_append_cons_iff {earlier later : List MapChange} {c : MapChange} :
    history ++ [change] = earlier ++ c :: later ↔
      (later = [] ∧ earlier = history ∧ c = change) ∨
        ∃ later', later = later' ++ [change] ∧ history = earlier ++ c :: later' := by
  constructor
  · intro heq
    rcases List.eq_nil_or_concat later with rfl | ⟨later', last, rfl⟩
    · obtain ⟨rfl, hlast⟩ := List.append_inj' heq rfl
      exact .inl ⟨rfl, rfl, (List.singleton_inj.1 hlast).symm⟩
    · rw [List.concat_eq_append, ← List.cons_append, ← List.append_assoc] at heq
      obtain ⟨rfl, hlast⟩ := List.append_inj' heq rfl
      exact .inr ⟨later', by rw [List.concat_eq_append, List.singleton_inj.1 hlast], rfl⟩
  · rintro (⟨rfl, rfl, rfl⟩ | ⟨later', rfl, rfl⟩)
    · rfl
    · simp

theorem not_holds_nil : ¬ Holds [] key v := by
  rintro ⟨earlier, later, heq, -⟩
  simp at heq

/-- A change gives its key a value, or none, and leaves alone what the other keys have. -/
theorem holds_snoc_iff :
    Holds (history ++ [change]) key v ↔
      change = .write key v ∨ (change.key ≠ key ∧ Holds history key v) := by
  constructor
  · rintro ⟨earlier, later, heq, hlater⟩
    -- the write is the last change, or one of those before
    rcases snoc_eq_append_cons_iff.1 heq with ⟨-, -, rfl⟩ | ⟨later', rfl, rfl⟩
    · exact .inl rfl
    · obtain ⟨hbefore, hchange⟩ := List.forall_mem_append.1 hlater
      exact .inr ⟨hchange _ (List.mem_singleton_self _), earlier, later', rfl, hbefore⟩
  · rintro (rfl | ⟨hne, earlier, later, rfl, hlater⟩)
    · exact ⟨history, [], rfl, List.forall_mem_nil _⟩
    · refine ⟨earlier, later ++ [change], by simp, ?_⟩
      exact List.forall_mem_append.2 ⟨hlater, List.forall_mem_singleton.2 hne⟩

/-- An entry is born by a write of its key where there is none, and lives until it is removed. -/
theorem bornAt_snoc_iff :
    BornAt (history ++ [change]) key n ↔
      (n = history.length ∧ (∃ w, change = .write key w) ∧ ∀ w, ¬ Holds history key w) ∨
        (change ≠ .remove key ∧ BornAt history key n) := by
  constructor
  · rintro ⟨earlier, w, later, heq, rfl, hnew, hlater⟩
    -- the birth is the last change, or one of those before
    rcases snoc_eq_append_cons_iff.1 heq with ⟨-, rfl, rfl⟩ | ⟨later', rfl, rfl⟩
    · exact .inl ⟨rfl, ⟨w, rfl⟩, hnew⟩
    · rw [List.mem_append, not_or, List.mem_singleton] at hlater
      exact .inr ⟨Ne.symm hlater.2, earlier, w, later', rfl, rfl, hnew, hlater.1⟩
  · rintro (⟨rfl, ⟨w, rfl⟩, hnew⟩ | ⟨hne, earlier, w, later, rfl, rfl, hnew, hlater⟩)
    · exact ⟨history, w, [], rfl, rfl, hnew, List.not_mem_nil⟩
    · refine ⟨earlier, w, later ++ [change], by simp, rfl, hnew, ?_⟩
      rw [List.mem_append, not_or, List.mem_singleton]
      exact ⟨hlater, Ne.symm hne⟩

theorem bornAt_lt (h : BornAt history key n) : n < history.length := by
  obtain ⟨earlier, w, later, rfl, rfl, -⟩ := h
  simp

/-- The key of an entry that lives has a value. -/
theorem holds_of_bornAt (h : BornAt history key n) : ∃ v, Holds history key v := by
  induction history using List.reverseRecOn with
  | nil =>
    obtain ⟨earlier, w, later, heq, -⟩ := h
    simp at heq
  | append_singleton history change ih =>
    rcases bornAt_snoc_iff.1 h with ⟨-, ⟨w, hwrite⟩, -⟩ | ⟨hne, hbefore⟩
    · exact ⟨w, holds_snoc_iff.2 (.inl hwrite)⟩
    · obtain ⟨v, hv⟩ := ih hbefore
      by_cases hkey : change.key = key
      -- a change of the key after its birth is a write, since the entry lives
      · cases change with
        | write k w => exact ⟨w, holds_snoc_iff.2 (.inl (hkey ▸ rfl))⟩
        | remove k => exact absurd (hkey ▸ rfl) hne
      · exact ⟨v, holds_snoc_iff.2 (.inr ⟨hkey, hv⟩)⟩

/-! ### Maps -/

namespace Assoc

variable {m : Assoc Value}

/-- A key is there if it has a value. -/
theorem mem_keys_iff : key ∈ m.keys ↔ ∃ v, m.get? key = some v := by
  rw [← contains_iff_mem_keys, ← isSome_get?_iff, Option.isSome_iff_exists]

namespace Records

/-- The keys that are there are those that have a value after the changes. -/
theorem mem_keys_iff (h : m.Records history) : key ∈ m.keys ↔ ∃ v, Holds history key v := by
  rw [Assoc.mem_keys_iff]
  exact exists_congr (h.holds key)

/-- The map without entries has no history. -/
theorem empty : (Assoc.empty : Assoc Value).Records [] where
  holds _ _ := ⟨nofun, fun h => absurd h not_holds_nil⟩
  born _ h := nomatch h
  order := .nil

/-- Births go on to be told in the same order, of the keys that were there before. -/
theorem order_snoc (h : m.Records history) (change : MapChange) :
    m.keys.Pairwise fun a b => ∀ i j, BornAt (history ++ [change]) a i →
      BornAt (history ++ [change]) b j → i < j := by
  -- A key that is there is not born by the last change.
  have hborn {k : String} {i : Nat} (hk : k ∈ m.keys) (hi : BornAt (history ++ [change]) k i) :
      BornAt history k i := by
    obtain ⟨w, hw⟩ := h.mem_keys_iff.1 hk
    exact ((bornAt_snoc_iff.1 hi).resolve_left fun hnew => hnew.2.2 w hw).2
  exact h.order.imp_of_mem fun ha hb hlt i j hi hj => hlt i j (hborn ha hi) (hborn hb hj)

/-- A write is remembered. -/
theorem write (h : m.Records history) (key : String) (v : Value) :
    (m.insert key v).Records (history ++ [.write key v]) where
  holds k w := by
    -- the key that is written has the new value, and the others keep theirs
    rw [get?_insert, holds_snoc_iff, MapChange.key, ← h.holds]
    by_cases hk : k = key
    · simp [hk]
    · simp [hk, Ne.symm hk]
  born k hk := by
    -- an entry that was there keeps its birth, and a new one is born now
    by_cases hold : k ∈ m.keys
    · obtain ⟨n, hn⟩ := h.born k hold
      exact ⟨n, bornAt_snoc_iff.2 (.inr ⟨nofun, hn⟩)⟩
    · obtain rfl : k = key := by
        rw [keys_insert] at hk
        split at hk
        · exact absurd hk hold
        · simpa [hold] using hk
      refine ⟨history.length, bornAt_snoc_iff.2 (.inl ⟨rfl, ⟨v, rfl⟩, fun w hw => ?_⟩)⟩
      exact hold (h.mem_keys_iff.2 ⟨w, hw⟩)
  order := by
    have horder := h.order_snoc (.write key v)
    rw [keys_insert]
    split
    · exact horder
    · rename_i hnew
      refine List.pairwise_append.2 ⟨horder, List.pairwise_singleton _ _, ?_⟩
      intro a ha b hb i j hi hj
      obtain rfl := List.mem_singleton.1 hb
      -- The new key is born by this change, and those that were there before it.
      rcases bornAt_snoc_iff.1 hj with ⟨rfl, -⟩ | ⟨-, hbefore⟩
      · rcases bornAt_snoc_iff.1 hi with ⟨-, -, hnone⟩ | ⟨-, hold⟩
        · obtain ⟨w, hw⟩ := h.mem_keys_iff.1 ha
          exact absurd hw (hnone w)
        · exact bornAt_lt hold
      · exact absurd (h.mem_keys_iff.2 (holds_of_bornAt hbefore)) hnew

/-- A removal is remembered. -/
theorem remove (h : m.Records history) (key : String) :
    (m.erase key).Records (history ++ [.remove key]) where
  holds k w := by
    -- the key that is removed has no value, and the others keep theirs
    rw [get?_erase, holds_snoc_iff, MapChange.key, ← h.holds]
    by_cases hk : k = key
    · simp [hk]
    · simp [hk, Ne.symm hk]
  born k hk := by
    rw [keys_erase, List.mem_filter, bne_iff_ne] at hk
    -- an entry that stays is another one, and keeps its birth
    obtain ⟨n, hn⟩ := h.born k hk.1
    refine ⟨n, bornAt_snoc_iff.2 (.inr ⟨?_, hn⟩)⟩
    rintro ⟨⟩
    exact hk.2 rfl
  order := by
    rw [keys_erase]
    exact (h.order_snoc (.remove key)).filter _

/-- **One more change** is remembered. -/
theorem step (h : m.Records history) (change : MapChange) :
    (change.apply m).Records (history ++ [change]) := by
  cases change with
  | write key v => exact h.write key v
  | remove key => exact h.remove key

end Records

/-- The pairs of a list are written one after the other. -/
theorem records_insertAll (h : m.Records history) (l : List (String × Value)) :
    (m.insertAll l).Records (history ++ l.map fun e => .write e.1 e.2) := by
  induction l generalizing m history with
  | nil => rwa [List.map_nil, List.append_nil]
  | cons e rest ih =>
    have hrest := ih (h.write e.1 e.2)
    rwa [List.append_assoc] at hrest

/-- The map of a literal remembers the pairs of the literal as its writes. -/
theorem records_ofList (l : List (String × Value)) :
    (ofList l).Records (l.map fun e => .write e.1 e.2) :=
  records_insertAll .empty l

end Assoc

end Stencil
