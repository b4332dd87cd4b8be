import Stencil.Value.Arithmetic
import Stencil.Value.Document
import Stencil.Value.Method
import Stencil.Expr.Eval
import Stencil.Render.Output

/-!
# Ranges as lists

A range is never written out. What is asked of it is computed from its bounds, by a second
implementation of everything that a list answers from its items: the element at an index, the size,
the index of a value, the texts. Sizes and offsets go beyond 32 bits, and each step of the
computation checks that its result fits 64 bits. No check ever fails (`IntRange.Exact`).

So in a heap with a list of the elements, the range is read like the list (`Heap.ReadsAlike`). The
search for an item is an exception. A list compares its items by `==`, which finds `2` and `2.0`
equal; a range computes the index of an integer, and a float is none.

Main definitions: `IntRange.Exact`, `Heap.Lists`, `Heap.ReadsAlike`, `Heap.Searches`.
Main statements: `IntRange.exact`, `Heap.Lists.readsAlike`, `range_searches_iff`.
-/

namespace Stencil

namespace IntRange

variable {r : IntRange} {index : Nat}

/-! ### Elements -/

/-- So many elements are taken as are asked for. -/
theorem length_take (r : IntRange) {next count : Nat} (h : next + count = r.size) :
    (r.take next count).length = count := by
  induction count generalizing next with
  | zero => rfl
  | succ count ih =>
    have hsome : r.get? next = some (.ofInt (r.offsetFrom next)) := get?_of_lt (by omega)
    rw [take, hsome]
    exact congrArg Nat.succ (ih (by omega))

/-- A range has as many elements as its size says. -/
theorem length_toList (r : IntRange) : r.toList.length = r.size := length_take r (Nat.zero_add _)

/-- What is taken from an index on are the elements from there on. -/
theorem getElem?_take (r : IntRange) {next count : Nat} (h : next + count = r.size) (index : Nat) :
    (r.take next count)[index]? = r.get? (next + index) := by
  induction count generalizing next index with
  | zero =>
    have hnone : r.get? (next + index) = none := get?_eq_none_iff.2 (by omega)
    rw [hnone]
    rfl
  | succ count ih =>
    have hsome : r.get? next = some (.ofInt (r.offsetFrom next)) := get?_of_lt (by omega)
    rw [take, hsome]
    cases index with
    | zero => exact hsome.symm
    | succ index =>
      rw [List.getElem?_cons_succ, ih (by omega), Nat.add_right_comm, Nat.add_assoc]

/-- The elements are those that are read by index. -/
theorem getElem?_toList (r : IntRange) (index : Nat) : r.toList[index]? = r.get? index := by
  rw [toList, getElem?_take r (Nat.zero_add _), Nat.zero_add]

/-- The element at an index is as many steps away from the start. -/
theorem get?_eq_some_iff {e : Int32} :
    r.get? index = some e ↔ index < r.size ∧ r.offsetFrom index = e.toInt := by
  by_cases h : index < r.size
  · have htoInt := toInt_ofInt_of_fitsInt (fitsInt_offsetFrom h)
    rw [get?_of_lt h, Option.some.injEq, ← Int32.toInt_inj, htoInt]
    simp only [h, true_and]
  · rw [get?_eq_none_iff.2 (Nat.le_of_not_lt h)]
    simp only [h, false_and, reduceCtorEq]

theorem offsetFrom_inj {i j : Nat} : r.offsetFrom i = r.offsetFrom j ↔ i = j := by
  unfold offsetFrom
  split <;> omega

/-! ### Indexes of elements -/

/-- What lies between the bounds is less than the size away from the start. -/
theorem offset?_eq_some_iff {v d : Int64} :
    r.offset? v = some d ↔ 0 ≤ d.toInt ∧ d.toInt < r.size ∧ r.offsetFrom d.toInt = v.toInt := by
  rw [size_eq, offset?, offsetFrom, ascending]
  -- the two directions count away from the start, each with its own sign
  by_cases hup : r.start.toInt ≤ r.stop.toInt
  · simp only [hup, decide_true, if_true]
    split
    · rw [packLong?_eq_some_iff]
      omega
    · simp only [reduceCtorEq, false_iff]
      omega
  · simp only [hup, decide_false, Bool.false_eq_true, if_false]
    split
    · rw [packLong?_eq_some_iff]
      omega
    · simp only [reduceCtorEq, false_iff]
      omega

/-- The index of an integer is that of the element it is, if it is one. -/
theorem position?_eq_some_iff {v : Int64} :
    r.position? v = some index ↔ index < r.size ∧ r.offsetFrom index = v.toInt := by
  change ((r.offset? v).bind fun d => if 0 ≤ d.toInt then some d.toInt.toNat else none) = _ ↔ _
  rw [Option.bind_eq_some_iff]
  constructor
  -- the number of steps that is computed is the index
  · rintro ⟨d, hd, hindex⟩
    obtain ⟨hpos, hlt, hv⟩ := offset?_eq_some_iff.1 hd
    rw [if_pos hpos, Option.some.injEq] at hindex
    have hcast : (index : Int) = d.toInt := by omega
    rw [hcast]
    exact ⟨by omega, hv⟩
  -- an index is a number of steps that fits
  · rintro ⟨hlt, hv⟩
    have hsize := r.size_le
    have hfits : fitsLong index = true := fitsLong_iff.2 ⟨by omega, by omega⟩
    have hd : (Int64.ofInt index).toInt = index := toInt_ofInt_of_fitsLong hfits
    refine ⟨Int64.ofInt index, offset?_eq_some_iff.2 ?_, ?_⟩
    · rw [hd]
      exact ⟨by omega, by omega, hv⟩
    · rw [hd, if_pos (by omega), Int.toNat_natCast]

/-- The elements are the integers from the start on, one step away from one another. -/
theorem map_toInt_toList (r : IntRange) :
    r.toList.map Int32.toInt = (List.range r.size).map fun index : Nat => r.offsetFrom index := by
  refine List.ext_getElem? fun i => ?_
  rw [List.getElem?_map, List.getElem?_map, getElem?_toList]
  by_cases hi : i < r.size
  · rw [get?_of_lt hi, List.getElem?_range hi, Option.map_some, Option.map_some,
      toInt_ofInt_of_fitsInt (fitsInt_offsetFrom hi)]
  · rw [get?_eq_none_iff.2 (Nat.le_of_not_lt hi), List.getElem?_eq_none (by simpa using hi)]
    rfl

/-- Sizes and indexes are exact as values. -/
theorem asIndex?_ofNat {n : Nat} (hn : n ≤ r.size) : (Value.ofNat n).asIndex? = some n := by
  have hsize := r.size_le
  exact Value.asIndex?_ofNat (fitsLong_iff.2 ⟨by omega, by omega⟩)

/-- Nothing is lost on the way to the size, the elements and the indexes of a range. -/
structure Exact (r : IntRange) : Prop where
  size : r.size = (r.stop.toInt - r.start.toInt).natAbs + 1
  elements : r.toList.map Int32.toInt = (List.range r.size).map fun index : Nat => r.offsetFrom index
  get : ∀ index, r.get? index = none ↔ r.size ≤ index
  position : ∀ (v : Int64) (index : Nat),
    r.position? v = some index ↔ index < r.size ∧ r.offsetFrom index = v.toInt
  counts : r.size ≤ 4294967296 ∧ ∀ n ≤ r.size, (Value.ofNat n).asIndex? = some n

/-- Nothing is lost in any range. -/
theorem exact (r : IntRange) : r.Exact where
  size := r.size_eq
  elements := r.map_toInt_toList
  get _ := get?_eq_none_iff
  position _ _ := position?_eq_some_iff
  counts := ⟨r.size_le, fun _ => asIndex?_ofNat⟩

end IntRange

/-! ### Reading -/

/-- A list holds the elements of a range, in order. -/
def Heap.Lists (h : Heap) (id : ListId) (r : IntRange) : Prop :=
  (h.list id).toList = r.toList.map .int

namespace Heap.Lists

variable {h : Heap} {id : ListId} {r : IntRange}

/-- The list has as many items as the range has elements. -/
theorem size (hlist : h.Lists id r) : (h.list id).size = r.size := by
  rw [← Array.length_toList, hlist, List.length_map, r.length_toList]

/-- The list has the element of the range at each index. -/
theorem getElem? (hlist : h.Lists id r) (index : Nat) :
    (h.list id)[index]? = (r.get? index).map .int := by
  rw [← Array.getElem?_toList, hlist, List.getElem?_map, r.getElem?_toList]

/-- The range is indexed like the list. -/
theorem readIndex (hlist : h.Lists id r) (nullSafe : Bool) (key : Value) :
    h.readIndex nullSafe (.range r) key = h.readIndex nullSafe (.list id) key := by
  unfold Heap.readIndex
  cases listIndex h key with
  | error fault => rfl
  | ok i =>
    dsimp only [Bind.bind, Except.bind]
    rw [hlist.getElem?, hlist.size]
    cases r.get? i <;> rfl

/-- The range has the length of the list. -/
theorem length (hlist : h.Lists id r) (nullSafe : Bool) :
    h.readField nullSafe (.range r) "length" = h.readField nullSafe (.list id) "length" := by
  change Except.ok (Value.ofNat r.size) = Except.ok (Value.ofNat (h.list id).size)
  rw [hlist.size]

/-- The text of an integer is its numeral, at any depth. -/
theorem textTo_int (depth : Nat) (i : Int32) : h.textTo depth (.int i) = Decimal.ofInt i.toInt := by
  cases depth <;> rfl

/-- The items of a list that holds a range have the texts of its elements. -/
theorem texts (hlist : h.Lists id r) (depth : Nat) :
    (h.list id).toList.map (h.textTo depth) = r.toList.map fun i => Decimal.ofInt i.toInt := by
  rw [hlist, List.map_map]
  exact List.map_congr_left fun i _ => textTo_int depth i

/-- The range has the text of the list. -/
theorem text (hlist : h.Lists id r) : h.text (.range r) = h.text (.list id) := by
  change r.text = "[" ++ ", ".intercalate
    ((h.list id).toList.map (h.textTo (h.lists.size + h.maps.size))) ++ "]"
  rw [hlist.texts]
  rfl

/-- The range has the document of the list. -/
theorem document (hlist : h.Lists id r) : h.document (.range r) = h.document (.list id) := by
  change Json.array (r.toList.map fun i => Json.ofInt i.toInt) =
    .array ((h.list id).toList.map (h.documentTo (h.lists.size + h.maps.size)))
  rw [hlist, List.map_map]
  refine congrArg Json.array (List.map_congr_left fun i _ => ?_)
  change _ = h.documentTo (h.lists.size + h.maps.size) (.int i)
  cases h.lists.size + h.maps.size <;> rfl

/-! ### Methods -/

/-- A list that holds a range is not empty, since no range is. -/
theorem isEmpty (hlist : h.Lists id r) : (h.list id).isEmpty = false := by
  have hpos := r.size_pos
  rw [Array.isEmpty_eq_false_iff]
  rintro hempty
  rw [← hlist.size, hempty] at hpos
  exact absurd hpos (Nat.lt_irrefl 0)

/-- An element is got by the same index. -/
theorem get (hlist : h.Lists id r) (index : Value) :
    h.rangeMethod r "get" [index] = (h.listMethod id "get" [index]).1 := by
  simp only [Heap.rangeMethod, Heap.listMethod]
  cases h.expectIndex "get" index with
  | error fault => rfl
  | ok i =>
    dsimp only [Bind.bind, Except.bind]
    rw [hlist.getElem?, hlist.size]
    cases r.get? i <;> rfl

/-- The elements are joined to the same string. -/
theorem join (hlist : h.Lists id r) (separator : Value) :
    h.rangeMethod r "join" [separator] = (h.listMethod id "join" [separator]).1 := by
  change some ((separator.expectString "join").map fun s =>
      Value.str ((String.ofList s).intercalate (r.toList.map fun i => Decimal.ofInt i.toInt))) =
    some ((separator.expectString "join").map fun s =>
      Value.str ((String.ofList s).intercalate ((h.list id).toList.map (h.textTo h.depth))))
  rw [hlist.texts]

/-- The methods of ranges are those of lists that only read, and the search for an item apart they
answer alike. -/
theorem rangeMethod (hlist : h.Lists id r) {name : String}
    (hname : name ∉ ["contains", "indexOf", "add", "set", "remove"]) (args : List Value) :
    (h.rangeMethod r name args, h) = h.listMethod id name args := by
  simp only [List.mem_cons, List.not_mem_nil, or_false, not_or] at hname
  obtain ⟨hcontains, hindexOf, hadd, hset, hremove⟩ := hname
  unfold Heap.rangeMethod
  split
  case h_1 =>
    rw [← hlist.size]
    rfl
  case h_2 =>
    rw [← hlist.isEmpty]
    rfl
  case h_3 index => exact Prod.ext (hlist.get index) rfl
  case h_4 => exact absurd rfl hcontains
  case h_5 => exact absurd rfl hindexOf
  case h_6 separator => exact Prod.ext (hlist.join separator) rfl
  case h_7 hsize hempty hget _ _ hjoin =>
    -- a list has no other methods than these and those that are left out
    unfold Heap.listMethod
    split
    case h_1 => exact (hsize rfl rfl).elim
    case h_2 => exact (hempty rfl rfl).elim
    case h_3 => exact (hget _ rfl rfl).elim
    case h_4 => exact absurd rfl hcontains
    case h_5 => exact absurd rfl hindexOf
    case h_6 => exact absurd rfl hadd
    case h_7 => exact absurd rfl hset
    case h_8 => exact absurd rfl hremove
    case h_9 => exact (hjoin _ rfl rfl).elim
    case h_10 => rfl

/-- A method that every value has answers alike, unless it compares. -/
theorem commonMethod (hlist : h.Lists id r) {name : String} (hname : name ≠ "equals")
    (args : List Value) :
    h.commonMethod (.range r) name args = h.commonMethod (.list id) name args := by
  unfold Heap.commonMethod
  split
  case h_1 => rw [hlist.text]
  case h_2 => exact absurd rfl hname
  all_goals rfl

/-- A range answers the methods that neither write nor compare items like the list. -/
theorem callMethod (hlist : h.Lists id r) (operations : Assoc Operation) {name : String}
    (hname : name ∉ ["contains", "indexOf", "add", "set", "remove", "equals"])
    (args : List Value) :
    h.callMethod operations (.range r) name args = h.callMethod operations (.list id) name args := by
  have hown : name ∉ ["contains", "indexOf", "add", "set", "remove"] := fun hmem =>
    hname (List.mem_append_left ["equals"] hmem)
  have hequals : name ≠ "equals" := by
    rintro rfl
    exact hname (by decide)
  have hrange : h.ownMethod operations (.range r) name args = (h.rangeMethod r name args, h) := rfl
  have hitems : h.ownMethod operations (.list id) name args = h.listMethod id name args := rfl
  unfold Heap.callMethod
  rw [hrange, hitems, ← hlist.rangeMethod hown]
  cases h.rangeMethod r name args with
  | none => exact Prod.ext (hlist.commonMethod hequals args) rfl
  | some result => rfl

end Heap.Lists

/-- The same is read from two values, and the same becomes of them in the output: by an index, also
one that there is not, by the field `length`, by the methods that neither write nor compare items
(`size`, `isEmpty`, `get`, `join` and `toString` are those that there are), and as text and
document. -/
structure Heap.ReadsAlike (h : Heap) (v w : Value) : Prop where
  index : ∀ nullSafe key, h.readIndex nullSafe v key = h.readIndex nullSafe w key
  length : ∀ nullSafe, h.readField nullSafe v "length" = h.readField nullSafe w "length"
  method : ∀ operations args,
    ∀ name ∉ ["contains", "indexOf", "add", "set", "remove", "equals"],
      h.callMethod operations v name args = h.callMethod operations w name args
  text : h.text v = h.text w
  display : ∀ out : Output, out.writeValue h v = out.writeValue h w
  document : h.document v = h.document w

/-- A range is read like a list of its elements. -/
theorem Heap.Lists.readsAlike {h : Heap} {id : ListId} {r : IntRange} (hlist : h.Lists id r) :
    h.ReadsAlike (.range r) (.list id) where
  index := hlist.readIndex
  length := hlist.length
  method operations args _ hname := hlist.callMethod operations hname args
  text := hlist.text
  display out := congrArg out.write hlist.text
  document := hlist.document

/-- A new list may hold the elements of a range. -/
theorem Heap.lists_newList (h : Heap) (r : IntRange) :
    (h.newList (r.toList.map .int).toArray).2.Lists ⟨h.lists.size⟩ r := by
  unfold Heap.Lists Heap.newList Heap.list
  simp

/-! ### Searching -/

/-- An integer is an element of a range at the index that is computed for it. -/
theorem IntRange.findIdx?_toList {r : IntRange} {l : Int64} {p : Int32 → Bool}
    (hp : ∀ e, p e = true ↔ e.toInt = l.toInt) : r.toList.findIdx? p = r.position? l := by
  refine Option.ext fun i => ?_
  rw [List.findIdx?_eq_some_iff_getElem, position?_eq_some_iff]
  have hget {j : Nat} (hj : j < r.toList.length) : r.offsetFrom j = r.toList[j].toInt := by
    have hsome := r.getElem?_toList j
    rw [List.getElem?_eq_getElem hj] at hsome
    exact (get?_eq_some_iff.1 hsome.symm).2
  constructor
  · rintro ⟨hi, hpi, -⟩
    -- the first match is the element that the integer is
    exact ⟨r.length_toList ▸ hi, (hget hi).trans ((hp _).1 hpi)⟩
  · rintro ⟨hi, hv⟩
    -- and the integer is the element at its index, which matches
    have hi' : i < r.toList.length := r.length_toList.symm ▸ hi
    refine ⟨hi', (hp _).2 ((hget hi').symm.trans hv), fun j hj hpj => ?_⟩
    -- no element comes twice
    have hj' : j < r.toList.length := Nat.lt_trans hj hi'
    have hsame : r.offsetFrom j = r.offsetFrom i :=
      (hget hj').trans (((hp _).1 hpj).trans hv.symm)
    exact Nat.ne_of_lt hj (offsetFrom_inj.1 hsame)

namespace Heap

/-- The operator `==` holds between an element of a range and a value. -/
def Matches (h : Heap) (v : Value) (e : Int32) : Prop := h.compare .eq (.int e) v = .ok true

/-- Matching is loose equality. -/
theorem matches_iff {h : Heap} {v : Value} {e : Int32} :
    h.Matches v e ↔ h.looselySame (.int e) v = true := by
  unfold Matches
  change Except.ok (h.looselySame (.int e) v) = _ ↔ _
  rw [Except.ok.injEq]

/-- An element of a range matches the integers that it is. -/
theorem looselySame_int {h : Heap} {v : Value} {l : Int64} (hv : v.asLong? = some l) (e : Int32) :
    h.looselySame (.int e) v = true ↔ e.toInt = l.toInt := by
  have hsame : h.looselySame (.int e) v = (e.toInt64 == l) := by
    rw [looselySame, hv]
    rfl
  rw [hsame, beq_iff_eq, ← Int64.toInt_inj, Int32.toInt_toInt64]

/-- An element of a range matches nothing but numbers. -/
theorem looselySame_of_not_number {h : Heap} {v : Value} (hv : v.isNumber = false) (e : Int32) :
    h.looselySame (.int e) v = false := by
  cases v <;> first | rfl | cases hv

end Heap

/-- A value is a float or a double. -/
def Value.isFloating : Value → Bool
  | .float _ | .double _ => true
  | _ => false

/-- A value that is neither an integer nor a float is no number. -/
theorem Value.isNumber_of_asLong? {v : Value} (hv : v.asLong? = none)
    (hfloating : v.isFloating = false) : v.isNumber = false := by
  cases v with
  | int | long => cases hv
  | float | double => cases hfloating
  | _ => rfl

/-- A range answers whether and where it has a value as `==` says of its elements, and as the list
of its elements does. -/
structure Heap.Searches (h : Heap) (operations : Assoc Operation) (r : IntRange) (v : Value) :
    Prop where
  contains : ∃ found, h.callMethod operations (.range r) "contains" [v] =
      (some (.ok (.bool found)), h) ∧ (found = true ↔ ∃ e ∈ r.toList, h.Matches v e)
  indexOf : ∃ position, h.callMethod operations (.range r) "indexOf" [v] =
      (some (.ok (.ofPosition? position)), h) ∧
    ∀ i, position = some i ↔ (∃ e, r.toList[i]? = some e ∧ h.Matches v e) ∧
      ∀ j < i, ∀ e, r.toList[j]? = some e → ¬ h.Matches v e
  likeList : ∀ id, h.Lists id r → ∀ name ∈ ["contains", "indexOf"],
    h.callMethod operations (.range r) name [v] = h.callMethod operations (.list id) name [v]

namespace Heap

variable {h : Heap} {r : IntRange} {v : Value}

/-- Whether a range has a value is whether an index is computed for it. -/
theorem callMethod_contains (h : Heap) (operations : Assoc Operation) (r : IntRange) (v : Value) :
    h.callMethod operations (.range r) "contains" [v] =
      (some (.ok (.bool (rangePosition? r v).isSome)), h) := rfl

/-- What is answered for the index of a value is the index that is computed for it. -/
theorem callMethod_indexOf (h : Heap) (operations : Assoc Operation) (r : IntRange) (v : Value) :
    h.callMethod operations (.range r) "indexOf" [v] =
      (some (.ok (.ofPosition? (rangePosition? r v))), h) := rfl

/-- Unless the value is a float that matches an element, the index that is computed for it is that of
the first match. -/
theorem rangePosition?_eq (hv : ¬ (v.isFloating = true ∧ ∃ e ∈ r.toList, h.Matches v e)) :
    rangePosition? r v = r.toList.findIdx? fun e => h.looselySame (.int e) v := by
  cases hlong : v.asLong? with
  | some l =>
    -- an integer matches the element that it is
    rw [IntRange.findIdx?_toList (looselySame_int hlong), rangePosition?, hlong]
    rfl
  | none =>
    -- anything else has no index, and it matches no element
    have hnone : r.toList.findIdx? (fun e => h.looselySame (.int e) v) = none := by
      rw [List.findIdx?_eq_none_iff]
      intro e he
      cases hfloating : v.isFloating with
      | false => exact looselySame_of_not_number (v.isNumber_of_asLong? hlong hfloating) e
      | true =>
        rw [Bool.eq_false_iff]
        exact fun hsame => hv ⟨hfloating, e, he, matches_iff.2 hsame⟩
    rw [hnone, rangePosition?, hlong]
    rfl

/-- Where the index of the first match is computed, searching goes by matches. -/
theorem Searches.of_position (operations : Assoc Operation)
    (hposition : rangePosition? r v = r.toList.findIdx? fun e => h.looselySame (.int e) v) :
    h.Searches operations r v where
  contains := by
    refine ⟨(rangePosition? r v).isSome, rfl, ?_⟩
    rw [hposition, List.findIdx?_isSome, List.any_eq_true]
    simp only [matches_iff]
  indexOf := by
    refine ⟨rangePosition? r v, rfl, fun i => ?_⟩
    rw [hposition, List.findIdx?_eq_some_iff_getElem]
    simp only [matches_iff]
    constructor
    -- up to the first match, indexes and items are two ways to say the same
    · rintro ⟨hi, hmatch, hfirst⟩
      refine ⟨⟨_, List.getElem?_eq_getElem hi, hmatch⟩, fun j hj e he => ?_⟩
      obtain ⟨hj', rfl⟩ := List.getElem?_eq_some_iff.1 he
      exact hfirst j hj
    · rintro ⟨⟨e, he, hmatch⟩, hfirst⟩
      obtain ⟨hi, rfl⟩ := List.getElem?_eq_some_iff.1 he
      exact ⟨hi, hmatch, fun j hj => hfirst j hj _ (List.getElem?_eq_getElem (Nat.lt_trans hj hi))⟩
  likeList := by
    intro id hlist name hname
    -- the list looks for the same first match
    have hfirst : (h.list id).toList.findIdx? (h.looselySame · v) = rangePosition? r v := by
      rw [hlist, List.findIdx?_map, hposition]
      rfl
    have hany : (h.list id).any (h.looselySame · v) = (rangePosition? r v).isSome := by
      rw [← hfirst, List.findIdx?_isSome, Array.any_toList]
    simp only [List.mem_cons, List.not_mem_nil, or_false] at hname
    rcases hname with rfl | rfl
    · rw [callMethod_contains, ← hany]
      rfl
    · rw [callMethod_indexOf, ← hfirst]
      rfl

end Heap

/-- **Searching a range goes by `==`, except for floats.** A range answers `contains` and `indexOf`
as `==` says of its elements, in any heap and for any value, if and only if the value is not a float
or a double that matches one of them. A float or a double is never found. -/
theorem range_searches_iff (h : Heap) (operations : Assoc Operation) (r : IntRange) (v : Value) :
    (h.Searches operations r v ↔ ¬ (v.isFloating = true ∧ ∃ e ∈ r.toList, h.Matches v e)) ∧
    (v.isFloating = true →
      h.callMethod operations (.range r) "contains" [v] = (some (.ok (.bool false)), h) ∧
      h.callMethod operations (.range r) "indexOf" [v] = (some (.ok (.int (-1))), h)) := by
  have hmissed (hfloating : v.isFloating = true) : Heap.rangePosition? r v = none := by
    cases v <;> first | rfl | cases hfloating
  refine ⟨⟨fun hsearches => ?_, fun hv => .of_position operations (Heap.rangePosition?_eq hv)⟩,
    fun hfloating => ?_⟩
  -- a float that matches would have to be found, and it is not
  · rintro ⟨hfloating, hmatch⟩
    obtain ⟨found, hcontains, hiff⟩ := hsearches.contains
    rw [Heap.callMethod_contains, hmissed hfloating, hiff.2 hmatch] at hcontains
    cases hcontains
  · rw [Heap.callMethod_contains, Heap.callMethod_indexOf, hmissed hfloating]
    exact ⟨rfl, rfl⟩

/-- A descending range has a long where it has the int. -/
theorem range_searches_iff_long :
    ({} : Heap).callMethod .empty (.range ⟨5, 1⟩) "indexOf" [.long 3] =
      (some (.ok (.int 2)), {}) ∧
    ({} : Heap).Searches .empty ⟨5, 1⟩ (.long 3) := by
  obtain ⟨hiff, -⟩ := range_searches_iff {} .empty ⟨5, 1⟩ (.long 3)
  exact ⟨rfl, hiff.2 fun hfloating => Bool.false_ne_true hfloating.1⟩

/-- The range from 1 to 3 has the double `2.0` nowhere, though `==` finds it equal to its second
element. -/
theorem not_range_searches_double :
    ({} : Heap).compare .eq (.int 2) (.double 2.0) = .ok true ∧
    ({} : Heap).callMethod .empty (.range ⟨1, 3⟩) "contains" [.double 2.0] =
      (some (.ok (.bool false)), {}) ∧
    ¬ ({} : Heap).Searches .empty ⟨1, 3⟩ (.double 2.0) := by
  have hsame : ({} : Heap).looselySame (.int 2) (.double 2.0) = true := by decide +kernel
  have hequal : ({} : Heap).compare .eq (.int 2) (.double 2.0) = .ok true := congrArg _ hsame
  have hmissed : ({} : Heap).callMethod .empty (.range ⟨1, 3⟩) "contains" [.double 2.0] =
      (some (.ok (.bool false)), {}) := rfl
  refine ⟨hequal, hmissed, fun hsearches => ?_⟩
  obtain ⟨found, hcontains, hiff⟩ := hsearches.contains
  rw [hmissed, hiff.2 ⟨2, by decide +kernel, hequal⟩] at hcontains
  cases hcontains

end Stencil
