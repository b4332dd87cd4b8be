import Mathlib.Data.List.Forall2
import Stencil.Proofs.Json.Reading
import Stencil.Proofs.Value.Nesting
import Stencil.Value.Document

/-!
# Values read back from their documents

The document of a value without floats is written, read, and taken for a value again. This gives
the value back up to what documents do not tell apart (`Heap.ReadBack`): an integer gets the
narrowest kind that holds it, a range becomes a list, and what is spelled by its text becomes a
string. Lists and maps are new cells, with their items and entries in order.

A document is turned into a value only if it is not nested too deep. What has been made for its
parts so far is still there in the heap in which the value ends up (`Heap.Grows`), so `Decodes`
speaks of all later heaps.

Main definition: `Heap.ReadBack`. Main statement: `document_reads_back`.
-/

namespace Stencil

/-! ### What is read back -/

/-- Whether the value `v'` in the heap `h'` is what the value `v` in the heap `h` is read back
as. -/
inductive Heap.ReadBack (h h' : Heap) : Value → Value → Prop
  | null : h.ReadBack h' .null .null
  | bool (b : Bool) : h.ReadBack h' (.bool b) (.bool b)
  | int (i : Int32) : h.ReadBack h' (.int i) (.int i)
  | narrowed {l : Int64} (hfits : fitsInt l.toInt = true) :
      h.ReadBack h' (.long l) (.int (.ofInt l.toInt))
  | long {l : Int64} (hfits : fitsInt l.toInt = false) : h.ReadBack h' (.long l) (.long l)
  | str (s : String) : h.ReadBack h' (.str s) (.str s)
  | range {r : IntRange} {id : ListId} (hitems : (h'.list id).toList = r.toList.map .int) :
      h.ReadBack h' (.range r) (.list id)
  | list {id id' : ListId}
      (hitems : List.Forall₂ (h.ReadBack h') (h.list id).toList (h'.list id').toList) :
      h.ReadBack h' (.list id) (.list id')
  | map {id id' : MapId} (hkeys : (h'.map id').keys = (h.map id).keys)
      (hvalues : List.Forall₂ (h.ReadBack h') (h.map id).values (h'.map id').values) :
      h.ReadBack h' (.map id) (.map id')
  | iter (id : IterId) : h.ReadBack h' (.iter id) (.str (h.text (.iter id)))
  | status (id : StatusId) : h.ReadBack h' (.status id) (.str (h.text (.status id)))
  | object (id : ObjectId) : h.ReadBack h' (.object id) (.str (h.text (.object id)))

/-! ### Numbers -/

/-- The numeral of an integer of 64 bits stands for that integer. -/
theorem Numeral.number?_ofInt {i : Int} (hi : fitsLong i = true) :
    (Numeral.ofInt i).number?.map DocumentNumber.toValue = some (.ofInt i) := by
  have hwhole : Decimal.ofDigits (Numeral.ofInt i).whole = i.natAbs :=
    Decimal.ofDigits_digits i.natAbs
  have hplain : ((Numeral.ofInt i).fraction.isEmpty && (Numeral.ofInt i).exponent.isNone) = true :=
    rfl
  have hbounds := fitsLong_iff.1 hi
  by_cases hneg : i < 0
  -- a numeral with a sign stands for an integer below zero
  · have hsign : (Numeral.ofInt i).negative = true := by simp [Numeral.ofInt, hneg]
    have hvalue : -(i.natAbs : Int) = i := by omega
    have hpositive : 0 < i.natAbs := by omega
    have hnumber : (Numeral.ofInt i).number? = some (.negative i) := by
      simp only [Numeral.number?, if_pos hplain, if_pos hsign, hwhole, hvalue]
      exact if_pos ⟨hpositive, hi⟩
    rw [hnumber]
    rfl
  · have hsign : ¬ (Numeral.ofInt i).negative = true := by simp [Numeral.ofInt, hneg]
    -- a numeral without one stands for a natural number, which fits 64 bits unsigned
    have hsize : UInt64.size = 18446744073709551616 := rfl
    have hvalue : (i.natAbs : Int) = i := by omega
    have hnumber : (Numeral.ofInt i).number? = some (.natural i.natAbs) := by
      simp only [Numeral.number?, if_pos hplain, if_neg hsign, hwhole]
      exact if_pos (by omega)
    rw [hnumber]
    show some (Value.ofInt (i.natAbs : Int)) = _
    rw [hvalue]

/-- An integer of 32 bits is the narrowest kind of itself. -/
theorem Value.ofInt_int (i : Int32) : Value.ofInt i.toInt = .int i := by
  have hfits : fitsInt i.toInt = true := fitsInt_iff.2 ⟨i.le_toInt, Int.le_of_lt_add_one i.toInt_lt⟩
  rw [Value.ofInt, if_pos hfits, Int32.ofInt_toInt]

/-- An integer of 32 bits fits 64 bits. -/
theorem fitsLong_int (i : Int32) : fitsLong i.toInt = true := by
  have hlow := i.le_toInt
  have hhigh := i.toInt_lt
  exact fitsLong_iff.2 (by omega)

theorem fitsLong_long (l : Int64) : fitsLong l.toInt = true :=
  fitsLong_iff.2 ⟨l.le_toInt, Int.le_of_lt_add_one l.toInt_lt⟩

/-! ### Heaps that grow -/

/-- Whether a heap has the lists and maps of an earlier one as they were, and maybe more. -/
structure Heap.Grows (h h' : Heap) : Prop where
  lists : ∃ more, h'.lists = h.lists ++ more
  maps : ∃ more, h'.maps = h.maps ++ more

namespace Heap.Grows

variable {h h' h'' : Heap}

theorem refl (h : Heap) : h.Grows h := ⟨⟨#[], by simp⟩, ⟨#[], by simp⟩⟩

/-- What is there later is there still later. -/
theorem trans (hg : h.Grows h') (hg' : h'.Grows h'') : h.Grows h'' := by
  obtain ⟨⟨lists, hlists⟩, ⟨maps, hmaps⟩⟩ := hg
  obtain ⟨⟨lists', hlists'⟩, ⟨maps', hmaps'⟩⟩ := hg'
  exact ⟨⟨lists ++ lists', by rw [hlists', hlists, Array.append_assoc]⟩,
    ⟨maps ++ maps', by rw [hmaps', hmaps, Array.append_assoc]⟩⟩

theorem newList (h : Heap) (items : Array Value) : h.Grows (h.newList items).2 :=
  ⟨⟨#[items], rfl⟩, ⟨#[], by simp [Heap.newList]⟩⟩

theorem newMap (h : Heap) (entries : Assoc Value) : h.Grows (h.newMap entries).2 :=
  ⟨⟨#[], by simp [Heap.newMap]⟩, ⟨#[entries], rfl⟩⟩

/-- A new list is still there later on. -/
theorem list_newList {items : Array Value} (hg : (h.newList items).2.Grows h') :
    h'.list ⟨h.lists.size⟩ = items := by
  obtain ⟨⟨more, hmore⟩, -⟩ := hg
  have hcell : h'.lists[h.lists.size]? = some items := by
    rw [hmore, Array.getElem?_append_left (by simp [Heap.newList])]
    simp [Heap.newList]
  rw [Heap.list, Array.getD_eq_getD_getElem?, hcell, Option.getD_some]

/-- A new map is still there later on. -/
theorem map_newMap {entries : Assoc Value} (hg : (h.newMap entries).2.Grows h') :
    h'.map ⟨h.maps.size⟩ = entries := by
  obtain ⟨-, ⟨more, hmore⟩⟩ := hg
  have hcell : h'.maps[h.maps.size]? = some entries := by
    rw [hmore, Array.getElem?_append_left (by simp [Heap.newMap])]
    simp [Heap.newMap]
  rw [Heap.map, Array.getD_eq_getD_getElem?, hcell, Option.getD_some]

end Heap.Grows

/-! ### Decoding -/

/-- Whether a document is turned into a value that is `v` read back, whatever the heap. -/
def Decodes (h : Heap) (k : Nat) (j : Json) (v : Value) : Prop :=
  ∀ h₀ : Heap, ∃ v' h', j.toValueTo? k h₀ = some (v', h') ∧ h₀.Grows h' ∧
    ∀ h'', h'.Grows h'' → h.ReadBack h'' v v'

namespace Decodes

variable {h : Heap} {k : Nat}

/-- A document that needs no cells. -/
theorem single {j : Json} {v v' : Value} (hread : ∀ h₀, j.toValueTo? k h₀ = some (v', h₀))
    (hback : ∀ h'', h.ReadBack h'' v v') : Decodes h k j v :=
  fun h₀ => ⟨v', h₀, hread h₀, .refl h₀, fun h'' _ => hback h''⟩

/-- A numeral of an integer is decoded to the narrowest kind that holds it. -/
theorem integer {i : Int} {v : Value} (hi : fitsLong i = true)
    (hback : ∀ h'', h.ReadBack h'' v (.ofInt i)) : Decodes h k (.ofInt i) v := by
  refine single (fun h₀ => ?_) hback
  have hnumber := Numeral.number?_ofInt hi
  rw [Option.map_eq_some_iff] at hnumber
  obtain ⟨x, hx, hvalue⟩ := hnumber
  rw [Json.ofInt, Json.toValueTo?, hx, Option.map_some, hvalue]

/-- An integer of 32 bits is decoded to itself. -/
theorem int (i : Int32) : Decodes h k (.ofInt i.toInt) (.int i) :=
  integer (fitsLong_int i) fun _ => by
    rw [Value.ofInt_int]
    exact .int i

/-- An integer of 64 bits is decoded to itself, or to one of 32 bits. -/
theorem long (l : Int64) : Decodes h k (.ofInt l.toInt) (.long l) := by
  refine integer (fitsLong_long l) fun h'' => ?_
  rw [Value.ofInt]
  split
  · rename_i hfits
    exact .narrowed hfits
  · rename_i hfits
    rw [if_pos (fitsLong_long l), Int64.ofInt_toInt]
    exact .long (Bool.not_eq_true _ ▸ hfits)

theorem string {s : String} {v : Value} (hback : ∀ h'', h.ReadBack h'' v (.str s)) :
    Decodes h k (.ofString s) v :=
  single (fun _ => by rw [Json.ofString, Json.toValueTo?, Option.map_some]) hback

/-- Items are decoded one after the other, and those before are still there at the end. -/
theorem items {f : Value → Json} {vs : List Value} (hvs : ∀ v ∈ vs, Decodes h k (f v) v)
    (h₀ : Heap) :
    ∃ vs' h', Json.itemValues? k (vs.map f) h₀ = some (vs', h') ∧ h₀.Grows h' ∧
      ∀ h'', h'.Grows h'' → List.Forall₂ (h.ReadBack h'') vs vs' := by
  induction vs generalizing h₀ with
  | nil => exact ⟨[], h₀, rfl, .refl h₀, fun _ _ => .nil⟩
  | cons v vs ih =>
    obtain ⟨hfirst, hrest⟩ := List.forall_mem_cons.1 hvs
    obtain ⟨v', h₁, hread, hgrows, hback⟩ := hfirst h₀
    obtain ⟨vs', h₂, hreads, hgrows', hbacks⟩ := ih hrest h₁
    refine ⟨v' :: vs', h₂, ?_, hgrows.trans hgrows', fun h'' hlater => ?_⟩
    -- the items behind are read in the heap that the first one has left
    · rw [List.map_cons, Json.itemValues?, hread]
      simp [hreads]
    · exact .cons (hback h'' (hgrows'.trans hlater)) (hbacks h'' hlater)

/-- So are the members of an object. -/
theorem members {f : Value → Json} {es : List (String × Value)}
    (hes : ∀ e ∈ es, Decodes h k (f e.2) e.2) (h₀ : Heap) :
    ∃ es' h', Json.memberValues? k (es.map fun e => (some e.1, f e.2)) h₀ = some (es', h') ∧
      h₀.Grows h' ∧ es'.map Prod.fst = es.map Prod.fst ∧
      ∀ h'', h'.Grows h'' →
        List.Forall₂ (h.ReadBack h'') (es.map Prod.snd) (es'.map Prod.snd) := by
  induction es generalizing h₀ with
  | nil => exact ⟨[], h₀, rfl, .refl h₀, rfl, fun _ _ => .nil⟩
  | cons e es ih =>
    obtain ⟨hfirst, hrest⟩ := List.forall_mem_cons.1 hes
    obtain ⟨v', h₁, hread, hgrows, hback⟩ := hfirst h₀
    obtain ⟨es', h₂, hreads, hgrows', hkeys, hbacks⟩ := ih hrest h₁
    refine ⟨(e.1, v') :: es', h₂, ?_, hgrows.trans hgrows', ?_, fun h'' hlater => ?_⟩
    -- the members behind are read in the heap that the first one has left
    · rw [List.map_cons, Json.memberValues?]
      simp [hread, hreads]
    · rw [List.map_cons, List.map_cons, hkeys]
    · exact .cons (hback h'' (hgrows'.trans hlater)) (hbacks h'' hlater)

/-- An array becomes a new list of what its items become. -/
theorem array {f : Value → Json} {vs : List Value} {v : Value}
    (hvs : ∀ w ∈ vs, Decodes h k (f w) w)
    (hback : ∀ {h'' id}, List.Forall₂ (h.ReadBack h'') vs (h''.list id).toList →
      h.ReadBack h'' v (.list id)) :
    Decodes h (k + 1) (.array (vs.map f)) v := by
  intro h₀
  obtain ⟨vs', h₁, hreads, hgrows, hbacks⟩ := items hvs h₀
  refine ⟨.list ⟨h₁.lists.size⟩, (h₁.newList vs'.toArray).2, ?_, hgrows.trans (.newList h₁ _),
    fun h'' hlater => hback ?_⟩
  -- the list is made of the items when all of them are there
  · rw [Json.toValueTo?, hreads]
    rfl
  · rw [hlater.list_newList]
    exact hbacks h'' ((Heap.Grows.newList h₁ _).trans hlater)

/-- Integers are read back as they are. -/
theorem eq_of_ints {h'' : Heap} {is : List Int32} {vs : List Value}
    (hback : List.Forall₂ (h.ReadBack h'') (is.map .int) vs) : vs = is.map .int := by
  induction is generalizing vs with
  | nil =>
    cases hback
    rfl
  | cons i is ih =>
    cases hback with
    | cons hfirst hrest =>
      cases hfirst
      rw [List.map_cons, ih hrest]

/-- A range is decoded to a list of its elements. -/
theorem range (r : IntRange) :
    Decodes h (k + 1) (.array (r.toList.map fun i => .ofInt i.toInt)) (.range r) := by
  have hints : ∀ v ∈ r.toList.map Value.int, Decodes h k (h.documentTo 0 v) v := by
    rintro _ hv
    obtain ⟨i, -, rfl⟩ := List.mem_map.1 hv
    exact int i
  have harray := array (v := .range r) hints fun hback => .range (eq_of_ints hback)
  rwa [List.map_map] at harray

/-- An object is decoded to a new map, with the keys in order. -/
theorem map {f : Value → Json} {id : MapId}
    (hvalues : ∀ e ∈ (h.map id).entries, Decodes h k (f e.2) e.2) :
    Decodes h (k + 1) (.ofMembers ((h.map id).entries.map fun e => (e.1, f e.2))) (.map id) := by
  intro h₀
  obtain ⟨es', h₁, hreads, hgrows, hkeys, hbacks⟩ := members hvalues h₀
  -- the keys of a map are different, so that no member of the object is lost
  have hentries : (Assoc.ofList es').entries = es' := by
    have hnodup : (es'.map Prod.fst).Nodup := hkeys ▸ (h.map id).nodup
    exact Assoc.entries_insertAll (m := .empty) hnodup
  refine ⟨.map ⟨h₁.maps.size⟩, (h₁.newMap (.ofList es')).2, ?_, hgrows.trans (.newMap h₁ _),
    fun h'' hlater => ?_⟩
  · rw [Json.ofMembers, Json.toValueTo?, List.map_map]
    show (Json.memberValues? k ((h.map id).entries.map fun e => (some e.1, f e.2)) h₀).bind _ = _
    rw [hreads]
    rfl
  · have hback := hbacks h'' ((Heap.Grows.newMap h₁ _).trans hlater)
    refine .map ?_ ?_ <;> rw [hlater.map_newMap]
    · rw [Assoc.keys, hentries, hkeys]
      rfl
    · rw [Assoc.values, Assoc.values, hentries]
      exact hback

/-- What is no float and holds nothing is decoded at any depth. -/
theorem leaf {v : Value} (hleaf : v.isLeaf = true) (d : Nat) :
    Decodes h k (h.documentTo d v) v := by
  cases v with
  | null => rw [Heap.documentTo]; exact single (fun _ => by rw [Json.toValueTo?]) fun _ => .null
  | bool b => rw [Heap.documentTo]; exact single (fun _ => by rw [Json.toValueTo?]) fun _ => .bool b
  | int i => rw [Heap.documentTo]; exact int i
  | long l => rw [Heap.documentTo]; exact long l
  | str s => rw [Heap.documentTo]; exact string fun _ => .str s
  | iter id => rw [Heap.documentTo]; exact string fun _ => .iter id
  | status id => rw [Heap.documentTo]; exact string fun _ => .status id
  | object id => rw [Heap.documentTo]; exact string fun _ => .object id
  | float | double | list | map | range => cases hleaf

end Decodes

/-! ### Documents of values -/

namespace Heap.Plain

variable {h : Heap} {n d k : Nat} {v : Value}

/-- The document of a value without floats can be written and read. -/
theorem wellFormed (hv : h.Plain n v) (d : Nat) : (h.documentTo d v).WellFormed := by
  induction hv generalizing d with
  | @leaf _ v hleaf =>
    cases v with
    | null => rw [Heap.documentTo]; exact .null
    | bool b => rw [Heap.documentTo]; exact .bool b
    | int | long => rw [Heap.documentTo]; exact .number (Numeral.wellFormed_ofInt _)
    | str | iter | status | object => rw [Heap.documentTo]; exact .string _
    | float | double | list | map | range => cases hleaf
  | range r =>
    rw [Heap.documentTo]
    refine .array fun item hitem => ?_
    obtain ⟨i, -, rfl⟩ := List.mem_map.1 hitem
    exact .number (Numeral.wellFormed_ofInt _)
  | list _ ih =>
    cases d with
    | zero => exact .array (List.forall_mem_nil _)
    | succ d =>
      rw [Heap.documentTo]
      refine .array fun item hitem => ?_
      obtain ⟨v, hv, rfl⟩ := List.mem_map.1 hitem
      exact ih v hv d
  | map _ ih =>
    cases d with
    | zero =>
      show (Json.ofMembers []).WellFormed
      exact .object (List.forall_mem_nil _)
    | succ d =>
      rw [Heap.documentTo]
      refine .object fun m hm => ?_
      obtain ⟨e, he, rfl⟩ := List.mem_map.1 hm
      exact ih e he d

/-- The document of a value that is not nested too deep is turned into that value read back. -/
theorem decodes (hv : h.Plain n v) (hd : n ≤ d) (hk : n ≤ k) :
    Decodes h k (h.documentTo d v) v := by
  induction hv generalizing d k with
  | leaf hleaf => exact .leaf hleaf d
  | range r =>
    -- a level of nesting is left in both bounds, for the array
    obtain ⟨k, rfl⟩ := Nat.exists_eq_add_of_lt hk
    rw [Heap.documentTo]
    exact .range r
  | list _ ih =>
    obtain ⟨d, rfl⟩ := Nat.exists_eq_add_of_lt hd
    obtain ⟨k, rfl⟩ := Nat.exists_eq_add_of_lt hk
    rw [Heap.documentTo]
    exact .array (fun v hv => ih v hv (Nat.le_add_right _ d) (Nat.le_add_right _ k)) .list
  | map _ ih =>
    obtain ⟨d, rfl⟩ := Nat.exists_eq_add_of_lt hd
    obtain ⟨k, rfl⟩ := Nat.exists_eq_add_of_lt hk
    rw [Heap.documentTo]
    exact .map fun e he => ih e he (Nat.le_add_right _ d) (Nat.le_add_right _ k)

end Heap.Plain

/-- If the items of an array are decoded, then each of them is, in some heap. -/
theorem Json.exists_of_itemValues? {k : Nat} {items : List Json} {h₀ : Heap}
    {r : List Value × Heap} (hread : Json.itemValues? k items h₀ = some r) :
    ∀ j ∈ items, ∃ h₁, (j.toValueTo? k h₁).isSome := by
  induction items generalizing h₀ r with
  | nil => exact List.forall_mem_nil _
  | cons item items ih =>
    rw [Json.itemValues?] at hread
    simp only [Option.bind_eq_bind, Option.bind_eq_some_iff] at hread
    obtain ⟨first, hfirst, rest, hrest, -⟩ := hread
    exact List.forall_mem_cons.2 ⟨⟨h₀, by rw [hfirst]; rfl⟩, ih hrest⟩

/-- If the members of an object are decoded, then each of them is, in some heap. -/
theorem Json.exists_of_memberValues? {k : Nat} {members : List (Option String × Json)} {h₀ : Heap}
    {r : List (String × Value) × Heap} (hread : Json.memberValues? k members h₀ = some r) :
    ∀ m ∈ members, ∃ h₁, (m.2.toValueTo? k h₁).isSome := by
  induction members generalizing h₀ r with
  | nil => exact List.forall_mem_nil _
  | cons m members ih =>
    rw [Json.memberValues?] at hread
    simp only [Option.bind_eq_bind, Option.bind_eq_some_iff] at hread
    obtain ⟨_, _, first, hfirst, rest, hrest, -⟩ := hread
    exact List.forall_mem_cons.2 ⟨⟨h₀, by rw [hfirst]; rfl⟩, ih hrest⟩

/-- Only what is not nested too deep is turned into a value. -/
theorem Heap.Plain.of_decoded {h h₀ : Heap} {n d k : Nat} {v : Value} (hv : h.Plain n v)
    (hd : n ≤ d) (hread : ((h.documentTo d v).toValueTo? k h₀).isSome) : h.Plain k v := by
  induction hv generalizing d k h₀ with
  | leaf hleaf => exact .leaf hleaf
  | range r =>
    rw [Heap.documentTo] at hread
    -- an array is not decoded at depth zero, and leaves one level less for its items
    cases k with
    | zero => rw [Json.toValueTo?] at hread; cases hread
    | succ k => exact .range r
  | list _ ih =>
    obtain ⟨d, rfl⟩ := Nat.exists_eq_add_of_lt hd
    rw [Heap.documentTo] at hread
    cases k with
    | zero => rw [Json.toValueTo?] at hread; cases hread
    | succ k =>
      rw [Json.toValueTo?] at hread
      obtain ⟨r, hr⟩ := Option.isSome_iff_exists.1 hread
      simp only [Option.bind_eq_bind, Option.bind_eq_some_iff] at hr
      obtain ⟨items, hitems, -⟩ := hr
      refine .list fun v hv => ?_
      obtain ⟨h₁, hsome⟩ := Json.exists_of_itemValues? hitems _ (List.mem_map_of_mem hv)
      exact ih v hv (Nat.le_add_right _ d) hsome
  | map _ ih =>
    obtain ⟨d, rfl⟩ := Nat.exists_eq_add_of_lt hd
    rw [Heap.documentTo] at hread
    cases k with
    -- neither is an object, and it leaves one level less for its members
    | zero => rw [Json.ofMembers, Json.toValueTo?] at hread; cases hread
    | succ k =>
      rw [Json.ofMembers, Json.toValueTo?] at hread
      obtain ⟨r, hr⟩ := Option.isSome_iff_exists.1 hread
      simp only [Option.bind_eq_bind, Option.bind_eq_some_iff] at hr
      obtain ⟨entries, hentries, -⟩ := hr
      refine .map fun e he => ?_
      obtain ⟨h₁, hsome⟩ := Json.exists_of_memberValues? hentries _
        (List.mem_map_of_mem (List.mem_map_of_mem he))
      exact ih e he (Nat.le_add_right _ d) hsome

/-- **Reading undoes writing.** The document of a value without floats that does not hold itself
reads back from its text, and is turned into that value read back exactly if it is not nested too
deep. -/
theorem document_reads_back {h : Heap} {n : Nat} {v : Value} (hv : h.Plain n v) (h₀ : Heap) :
    ∃ j, Json.read? (h.document v).write = some j ∧
      (h.Plain Json.maxNesting v →
        ∃ v' h', j.toValue? h₀ = some (v', h') ∧ h.ReadBack h' v v') ∧
      (¬ h.Plain Json.maxNesting v → j.toValue? h₀ = none) := by
  refine ⟨h.document v, Json.read?_write (hv.wellFormed h.depth), fun hplain => ?_, fun hnot => ?_⟩
  · -- The value is no deeper than both bounds, that of its heap and that of the reader.
    have hmin : h.Plain (min h.depth Json.maxNesting) v := by
      rcases Nat.le_total h.depth Json.maxNesting with hle | hle
      · rw [Nat.min_eq_left hle]
        exact hplain.depth
      · rw [Nat.min_eq_right hle]
        exact hplain
    obtain ⟨v', h', hread, -, hback⟩ :=
      hmin.decodes (Nat.min_le_left ..) (Nat.min_le_right ..) h₀
    exact ⟨v', h', hread, hback h' (.refl h')⟩
  · rw [← Option.not_isSome_iff_eq_none]
    exact fun hsome => hnot (hv.depth.of_decoded (Nat.le_refl _) hsome)

/-- A map with a list in it, in which a long number, a short one and a range stand. -/
theorem document_reads_back_map :
    let h : Heap :=
      { lists := #[#[.long 5000000000, .long 7, .range ⟨2, 0⟩, .str "a\n"]]
        maps := #[⟨[("items", .list ⟨0⟩), ("next", .iter ⟨0⟩)], by decide⟩] }
    (h.document (.map ⟨0⟩)).write =
        "\x7b\x22items\x22:[5000000000,7,[2,1,0],\x22a\\n\x22],\x22next\x22:\x22<iterator>\x22\x7d" ∧
      h.Plain Json.maxNesting (.map ⟨0⟩) ∧
      ∃ j v' h', Json.read? (h.document (.map ⟨0⟩)).write = some j ∧
        j.toValue? {} = some (v', h') ∧ h.ReadBack h' (.map ⟨0⟩) v' := by
  intro h
  have hitems : h.Plain 2 (.list ⟨0⟩) := by
    refine .list fun v hv => ?_
    have hcases : v = .long 5000000000 ∨ v = .long 7 ∨ v = .range ⟨2, 0⟩ ∨ v = .str "a\n" := by
      simpa [h, Heap.list] using hv
    rcases hcases with rfl | rfl | rfl | rfl
    · exact .leaf rfl
    · exact .leaf rfl
    · exact .range _
    · exact .leaf rfl
  have hplain : h.Plain 3 (.map ⟨0⟩) := by
    refine .map fun e he => ?_
    have hcases : e = ("items", .list ⟨0⟩) ∨ e = ("next", .iter ⟨0⟩) := by
      simpa [h, Heap.map] using he
    rcases hcases with rfl | rfl
    · exact hitems
    · exact .leaf rfl
  have hless : h.Plain Json.maxNesting (.map ⟨0⟩) := hplain.mono (by decide)
  obtain ⟨j, hread, hback, -⟩ := document_reads_back hplain {}
  obtain ⟨v', h', hvalue, hsame⟩ := hback hless
  exact ⟨by decide +kernel, hless, j, v', h', hread, hvalue, hsame⟩

end Stencil
