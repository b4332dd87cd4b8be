import Stencil.Expr.Eval
import Stencil.Proofs.Text.Search

/-!
# Strings as sequences of characters

What the methods of a string say about each other. Searching finds bytes of UTF-8 and counts them
back to characters, slicing and indexing count characters from the start, and splitting and
replacing look for occurrences once more. They all agree on where one string stands in another.

* The slice between two positions is what `substring` answers for any values that denote them, and
  `charAt` and indexing answer for the slices of length one (`Heap.Slices`).
* A string is found at the least or the greatest position at which it is the slice of its length
  (`Heap.Finds`).
* The pieces of a string, joined with the separator, are the string; joined with another string,
  they are the string with its separators replaced (`split_join_replace`).

Main definitions: `Heap.Slices`, `Heap.Finds`.
Main statements: `Heap.slices`, `string_search_and_slicing`, `split_join_replace`.
-/

namespace Stencil

/-! ### Positions as values -/

namespace Value

/-- No position is answered with the value for a missing one. -/
theorem ofNat_ne_missing (n : Nat) : ofNat n ≠ .int (-1) := by
  unfold ofNat
  split
  · rename_i hfits
    intro heq
    have hn : (Int32.ofNat n).toInt = n := toInt_ofInt_of_fitsInt hfits
    have hmissing : (-1 : Int32).toInt = -1 := by decide
    rw [Value.int.inj heq, hmissing] at hn
    omega
  · split <;> exact Value.noConfusion

/-- The value for a missing position is answered if and only if there is none. -/
theorem ofPosition?_eq_missing_iff {position : Option Nat} :
    ofPosition? position = .int (-1) ↔ position = none := by
  cases position with
  | none => exact ⟨fun _ => rfl, fun _ => rfl⟩
  | some n => exact ⟨fun h => absurd h (ofNat_ne_missing n), nofun⟩

end Value

namespace Heap

/-- A method of a string answers with a value, and the heap stays as it is. -/
def Answers (h : Heap) (operations : Assoc Operation) (s : String) (name : String)
    (args : List Value) (v : Value) : Prop :=
  h.callMethod operations (.str s) name args = (some (.ok v), h)

/-- A method of a string fails, and the heap stays as it is. -/
def Refuses (h : Heap) (operations : Assoc Operation) (s : String) (name : String)
    (args : List Value) : Prop :=
  ∃ fault, h.callMethod operations (.str s) name args = (some (.error fault), h)

/-- The slices of a string. Positions count characters, and a value denotes a position if it is an
integer that is not negative. -/
structure Slices (h : Heap) (operations : Assoc Operation) (s : String) : Prop where
  length : h.Answers operations s "length" [] (.ofNat s.length)
  substring : ∀ start stop i j, start.asIndex? = some i → stop.asIndex? = some j →
    h.callMethod operations (.str s) "substring" [start, stop] =
      (some (Stencil.substring s.toList i j), h)
  suffix : ∀ start i, start.asIndex? = some i →
    h.callMethod operations (.str s) "substring" [start] =
      (some (Stencil.substring s.toList i s.length), h)
  /-- `substring` fails if a bound is negative, past the end, or in front of the other. -/
  substring_refuses : ∀ start stop a b, start.asLong? = some a → stop.asLong? = some b →
    (h.Refuses operations s "substring" [start, stop] ↔
      a.toInt < 0 ∨ b.toInt < 0 ∨ b.toInt < a.toInt ∨ (s.length : Int) < b.toInt)
  suffix_refuses : ∀ start a, start.asLong? = some a →
    (h.Refuses operations s "substring" [start] ↔ a.toInt < 0 ∨ (s.length : Int) < a.toInt)
  /-- The two parts at a position make up the string. -/
  halves : ∀ zero middle i, zero.asIndex? = some 0 → middle.asIndex? = some i → i ≤ s.length →
    ∃ front back, h.Answers operations s "substring" [zero, middle] front ∧
      h.Answers operations s "substring" [middle] back ∧ h.arith .add front back = .ok (.str s)
  /-- A character is the slice of length one at its position. -/
  character : ∀ index i, index.asIndex? = some i → i < s.length →
    ∃ c, h.Answers operations s "charAt" [index] c ∧
      (∀ nullSafe, h.readIndex nullSafe (.str s) index = .ok c) ∧
      ∀ next, next.asIndex? = some (i + 1) → h.Answers operations s "substring" [index, next] c
  character_refuses : ∀ index, (∀ i < s.length, index.asIndex? ≠ some i) →
    h.Refuses operations s "charAt" [index] ∧
      ∀ nullSafe, ∃ fault, h.readIndex nullSafe (.str s) index = .error fault

/-- The positions from which on a string has another one as its slice. -/
def slicesAt (s t : String) : Set Nat :=
  {i | Stencil.substring s.toList i (i + t.length) = .ok (.str t)}

/-- Where a string is found in another one. -/
structure Finds (h : Heap) (operations : Assoc Operation) (s t : String) : Prop where
  /-- The first position, or `-1` if the string is not contained. -/
  first : ∃ found v, h.Answers operations s "contains" [.str t] (.bool found) ∧
    h.Answers operations s "indexOf" [.str t] v ∧ (v = .int (-1) ↔ found = false) ∧
    (found = true → ∃ i, v = .ofNat i ∧ IsLeast (slicesAt s t) i ∧
      (fitsLong s.length = true → v.asIndex? = some i))
  /-- The last position, or `-1` if the string is not contained. -/
  last : ∃ found v, h.Answers operations s "contains" [.str t] (.bool found) ∧
    h.Answers operations s "lastIndexOf" [.str t] v ∧ (v = .int (-1) ↔ found = false) ∧
    (found = true → ∃ i, v = .ofNat i ∧ IsGreatest (slicesAt s t) i ∧
      (fitsLong s.length = true → v.asIndex? = some i))
  start : ∃ starts, h.Answers operations s "startsWith" [.str t] (.bool starts) ∧
    (starts = true ↔ t.length ≤ s.length ∧
      Stencil.substring s.toList 0 t.length = .ok (.str t))
  stop : ∃ stops, h.Answers operations s "endsWith" [.str t] (.bool stops) ∧
    (stops = true ↔ t.length ≤ s.length ∧
      Stencil.substring s.toList (s.length - t.length) s.length = .ok (.str t))

/-- How a string is taken apart at another one and put together again: the pieces are the items of
a new list. -/
structure Splits (h : Heap) (operations : Assoc Operation) (s separator image : String)
    (id : ListId) (h' : Heap) (pieces : List String) (replaced : String) : Prop where
  split : h.callMethod operations (.str s) "split" [.str separator] = (some (.ok (.list id)), h')
  items : h'.list id = (pieces.map Value.str).toArray
  join : h'.callMethod operations (.list id) "join" [.str separator] = (some (.ok (.str s)), h')
  join_image : h'.callMethod operations (.list id) "join" [.str image] =
    (some (.ok (.str replaced)), h')
  replace : h.Answers operations s "replace" [.str separator, .str image] (.str replaced)
  /-- The separator is in none of the pieces. -/
  free : separator ≠ "" → ∀ piece ∈ pieces, ¬ separator.toList <:+: piece.toList ∧
    h'.Answers operations piece "contains" [.str separator] (.bool false)

/-! ### Slices -/

/-- An argument that denotes a position is taken for it. -/
theorem expectIndex_of_asIndex? (h : Heap) (name : String) {v : Value} {i : Nat}
    (hv : v.asIndex? = some i) : h.expectIndex name v = .ok i := by
  rw [expectIndex, hv]

/-- An argument that denotes no position is refused. -/
theorem expectIndex_of_none (h : Heap) (name : String) {v : Value} (hv : v.asIndex? = none) :
    h.expectIndex name v = .error (.notIndex name (h.text v)) := by
  rw [expectIndex, hv]

end Heap

/-- Between bounds in order that are not past the end there is a slice. -/
theorem substring_of_le {cs : List Char} {i j : Nat} (hij : i ≤ j) (hj : j ≤ cs.length) :
    substring cs i j = .ok (.ofChars (Text.slice i j cs)) := by
  rw [substring, if_neg (by omega)]

/-- There is no slice between any other bounds. -/
theorem substring_fails_iff {cs : List Char} {i j : Nat} :
    (∃ fault, substring cs i j = .error fault) ↔ j < i ∨ cs.length < j := by
  constructor
  · rintro ⟨fault, hfault⟩
    by_contra hbounds
    rw [substring_of_le (by omega) (by omega)] at hfault
    cases hfault
  · exact fun hbounds => ⟨_, if_pos hbounds⟩

/-- A slice of length one is a character. -/
theorem slice_single {cs : List Char} {i : Nat} {c : Char} (hc : cs[i]? = some c) :
    Text.slice i (i + 1) cs = [c] := by
  obtain ⟨hlt, rfl⟩ := List.getElem?_eq_some_iff.1 hc
  rw [Text.slice, Nat.add_sub_cancel_left, List.drop_eq_getElem_cons hlt]
  rfl

/-- The slices up to a position and from it on make up a text. -/
theorem slice_append (cs : List Char) (i : Nat) :
    Text.slice 0 i cs ++ Text.slice i cs.length cs = cs := by
  rw [Text.slice_length]
  exact List.take_append_drop i cs

namespace Heap

variable {h : Heap} {operations : Assoc Operation} {s t : String} {start stop index : Value}
  {i j : Nat}

/-- A slice is taken between the bounds that the arguments denote. -/
theorem callMethod_slice (h : Heap) (operations : Assoc Operation) (s : String)
    (args : List Value) : h.callMethod operations (.str s) "substring" args =
      (some (h.sliceBounds s.toList args >>= fun bounds =>
        Stencil.substring s.toList bounds.1 bounds.2), h) := rfl

/-- `substring` answers with the slice between the positions that its arguments denote. -/
theorem callMethod_substring (h : Heap) (operations : Assoc Operation) (s : String)
    (hi : start.asIndex? = some i) (hj : stop.asIndex? = some j) :
    h.callMethod operations (.str s) "substring" [start, stop] =
      (some (Stencil.substring s.toList i j), h) := by
  rw [callMethod_slice, sliceBounds, h.expectIndex_of_asIndex? _ hi,
    h.expectIndex_of_asIndex? _ hj]
  rfl

/-- With one argument, `substring` answers with the slice from there to the end. -/
theorem callMethod_suffix (h : Heap) (operations : Assoc Operation) (s : String)
    (hi : start.asIndex? = some i) :
    h.callMethod operations (.str s) "substring" [start] =
      (some (Stencil.substring s.toList i s.length), h) := by
  rw [callMethod_slice, sliceBounds, h.expectIndex_of_asIndex? _ hi, ← String.length_toList]
  rfl

/-- `charAt` looks for the character at the position that its argument denotes. -/
theorem callMethod_charAt (h : Heap) (operations : Assoc Operation) (s : String)
    (index : Value) : h.callMethod operations (.str s) "charAt" [index] =
      (some (h.expectIndex "charAt" index >>= charAt s.toList), h) := rfl

/-- A slice whose bounds are refused is refused. -/
theorem refuses_slice {args : List Value} {fault : MethodFault}
    (hfault : h.sliceBounds s.toList args = .error fault) :
    h.Refuses operations s "substring" args := by
  refine ⟨fault, ?_⟩
  rw [callMethod_slice, hfault]
  rfl

/-- A bound that is no position is refused. -/
theorem refuses_substring_of_none (hbound : start.asIndex? = none ∨ stop.asIndex? = none) :
    h.Refuses operations s "substring" [start, stop] := by
  cases hstart : start.asIndex? with
  | none =>
    -- the first bound is looked at before the second
    refine refuses_slice (show _ = Except.error (.notIndex "substring" (h.text start)) from ?_)
    rw [sliceBounds, h.expectIndex_of_none _ hstart]
    rfl
  | some i =>
    have hstop : stop.asIndex? = none := hbound.resolve_left (by rw [hstart]; nofun)
    refine refuses_slice (show _ = Except.error (.notIndex "substring" (h.text stop)) from ?_)
    rw [sliceBounds, h.expectIndex_of_asIndex? _ hstart, h.expectIndex_of_none _ hstop]
    rfl

/-- With one argument that is no position, `substring` fails. -/
theorem refuses_suffix_of_none (hstart : start.asIndex? = none) :
    h.Refuses operations s "substring" [start] := by
  refine refuses_slice (show _ = Except.error (.notIndex "substring" (h.text start)) from ?_)
  rw [sliceBounds, h.expectIndex_of_none _ hstart]
  rfl

/-- A method whose outcome is a slice fails where there is no such slice. -/
theorem refuses_iff_of_slice {name : String} {args : List Value}
    (hslice : h.callMethod operations (.str s) name args =
      (some (Stencil.substring s.toList i j), h)) :
    h.Refuses operations s name args ↔ j < i ∨ s.length < j := by
  rw [← String.length_toList, ← substring_fails_iff, Refuses, hslice]
  simp only [Prod.mk.injEq, Option.some.injEq, and_true]

/-- Every string has the slices that it should have. -/
theorem slices (h : Heap) (operations : Assoc Operation) (s : String) :
    h.Slices operations s where
  length := by
    rw [← String.length_toList]
    rfl
  substring _ _ _ _ hi hj := h.callMethod_substring operations s hi hj
  suffix _ _ hi := h.callMethod_suffix operations s hi
  substring_refuses := by
    intro start stop a b ha hb
    -- A negative bound is refused as an argument, the others only by the slice.
    by_cases hneg : a.toInt < 0 ∨ b.toInt < 0
    · have hnone := hneg.imp (Value.asIndex?_of_neg ha) (Value.asIndex?_of_neg hb)
      have hrefuses : h.Refuses operations s "substring" [start, stop] :=
        refuses_substring_of_none hnone
      exact ⟨fun _ => by omega, fun _ => hrefuses⟩
    · have hi := Value.asIndex?_of_nonneg ha (by omega)
      have hj := Value.asIndex?_of_nonneg hb (by omega)
      rw [refuses_iff_of_slice (h.callMethod_substring operations s hi hj)]
      omega
  suffix_refuses := by
    intro start a ha
    by_cases hneg : a.toInt < 0
    · exact ⟨fun _ => .inl hneg, fun _ => refuses_suffix_of_none (Value.asIndex?_of_neg ha hneg)⟩
    · have hi := Value.asIndex?_of_nonneg ha (by omega)
      rw [refuses_iff_of_slice (h.callMethod_suffix operations s hi)]
      omega
  halves := by
    intro zero middle i hzero hmiddle hi
    rw [← String.length_toList] at hi
    refine ⟨.ofChars (Text.slice 0 i s.toList), .ofChars (Text.slice i s.toList.length s.toList),
      ?_, ?_, ?_⟩
    · rw [Answers, h.callMethod_substring operations s hzero hmiddle,
        substring_of_le (Nat.zero_le i) hi]
    · rw [Answers, h.callMethod_suffix operations s hmiddle, ← String.length_toList,
        substring_of_le hi (Nat.le_refl _)]
    -- the characters of the two parts are those of the string
    · have hjoin : String.ofList (Text.slice 0 i s.toList) ++
          String.ofList (Text.slice i s.toList.length s.toList) = s := by
        rw [← String.ofList_append, slice_append, String.ofList_toList]
      exact congrArg (fun joined => Except.ok (Value.str joined)) hjoin
  character := by
    intro index i hindex hi
    rw [← String.length_toList] at hi
    obtain ⟨c, hc⟩ : ∃ c, s.toList[i]? = some c := ⟨_, List.getElem?_eq_getElem hi⟩
    refine ⟨.ofChars [c], ?_, fun nullSafe => ?_, fun next hnext => ?_⟩
    · rw [Answers, callMethod_charAt, h.expectIndex_of_asIndex? _ hindex]
      change (some (Stencil.charAt s.toList i), h) = _
      rw [Stencil.charAt, hc]
    · simp only [readIndex, listIndex, hindex, bind, Except.bind, hc, String.singleton_eq_ofList]
      rfl
    -- the slice up to the next position has this character only
    · rw [Answers, h.callMethod_substring operations s hindex hnext,
        substring_of_le (Nat.le_succ i) hi, slice_single hc]
  character_refuses := by
    intro index hindex
    -- An index that denotes no position fails before the string is looked at.
    cases hi : index.asIndex? with
    | none =>
      refine ⟨⟨.notIndex "charAt" (h.text index), ?_⟩,
        fun nullSafe => ⟨.notAnIndex (h.text index), ?_⟩⟩
      · rw [callMethod_charAt, h.expectIndex_of_none _ hi]
        rfl
      · rw [readIndex, listIndex, hi]
        rfl
    | some i =>
      have hpast : s.toList[i]? = none := by
        rw [List.getElem?_eq_none_iff, String.length_toList]
        exact Nat.le_of_not_lt fun hlt => hindex i hlt hi
      refine ⟨⟨.characterOutOfRange i, ?_⟩, fun nullSafe => ⟨.characterOutOfBounds i s.length, ?_⟩⟩
      · rw [callMethod_charAt, h.expectIndex_of_asIndex? _ hi]
        change (some (Stencil.charAt s.toList i), h) = _
        rw [Stencil.charAt, hpast]
      · simp only [readIndex, listIndex, hi, bind, Except.bind, hpast]

/-! ### Search -/

/-- The slices that are a given string are those with its characters. -/
theorem substring_eq_ok_iff {cs : List Char} {i j : Nat} {t : String} :
    Stencil.substring cs i j = .ok (.str t) ↔
      i ≤ j ∧ j ≤ cs.length ∧ Text.slice i j cs = t.toList := by
  constructor
  · intro hslice
    by_cases hbounds : j < i ∨ cs.length < j
    · rw [Stencil.substring, if_pos hbounds] at hslice
      cases hslice
    · rw [substring_of_le (by omega) (by omega)] at hslice
      have htext : String.ofList (Text.slice i j cs) = t := Value.str.inj (Except.ok.inj hslice)
      exact ⟨by omega, by omega, by rw [← htext, String.toList_ofList]⟩
  · rintro ⟨hij, hj, hslice⟩
    rw [substring_of_le hij hj, Value.ofChars, hslice, String.ofList_toList]

/-- The positions at which a string is a slice are those at which it stands. -/
theorem slicesAt_eq (s t : String) : slicesAt s t = {i | Text.StandsAt t.toList s.toList i} := by
  ext i
  have hi : i ≤ i + t.toList.length := Nat.le_add_right ..
  rw [slicesAt, Set.mem_ofPred_eq, Set.mem_ofPred_eq, substring_eq_ok_iff, Text.standsAt_iff_slice,
    ← String.length_toList, and_iff_right hi]

/-- A position at which a string stands is exact as a value. -/
theorem asIndex?_of_slicesAt (hi : i ∈ slicesAt s t) (hfits : fitsLong s.length = true) :
    (Value.ofNat i).asIndex? = some i := by
  obtain ⟨-, hle, -⟩ := substring_eq_ok_iff.1 hi
  rw [String.length_toList] at hle
  have hbounds := fitsLong_iff.1 hfits
  exact Value.asIndex?_ofNat (fitsLong_iff.2 ⟨by omega, by omega⟩)

/-- What a search answers at the position that it finds. -/
theorem found_of_position {position : Option Nat} {best : Nat → Prop} {found : Bool}
    (hnone : position = none ↔ found = false) (hsome : ∀ i, position = some i ↔ best i)
    (hbest : ∀ i, best i → i ∈ slicesAt s t) :
    (Value.ofPosition? position = .int (-1) ↔ found = false) ∧
    (found = true → ∃ i, Value.ofPosition? position = .ofNat i ∧ best i ∧
      (fitsLong s.length = true → (Value.ofPosition? position).asIndex? = some i)) := by
  refine ⟨Value.ofPosition?_eq_missing_iff.trans hnone, fun hfound => ?_⟩
  cases hposition : position with
  | none => exact absurd hfound (Bool.eq_false_iff.1 (hnone.1 hposition))
  | some i =>
    have hi := (hsome i).1 hposition
    exact ⟨i, rfl, hi, fun hfits => asIndex?_of_slicesAt (hbest i hi) hfits⟩

/-- Every string is found where it should be found. -/
theorem finds (h : Heap) (operations : Assoc Operation) (s t : String) :
    h.Finds operations s t where
  first := by
    -- the first position is the least one, by what is known of cuts
    refine ⟨_, _, rfl, rfl, found_of_position Text.position_find?_eq_none_iff (fun i => ?_)
      fun i hi => hi.1⟩
    rw [slicesAt_eq]
    exact Text.position_find?_eq_some_iff
  last := by
    refine ⟨_, _, rfl, rfl, found_of_position Text.position_findLast?_eq_none_iff (fun i => ?_)
      -- the last position is the greatest one
      fun i hi => hi.1⟩
    rw [slicesAt_eq]
    exact Text.position_findLast?_eq_some_iff
  start := by
    refine ⟨_, rfl, ?_⟩
    rw [List.isPrefixOf_iff_prefix, Text.isPrefix_iff_slice, substring_eq_ok_iff,
      String.length_toList, String.length_toList]
    -- a front of a string is its slice up to the length of the front
    exact ⟨fun ⟨hle, hslice⟩ => ⟨hle, Nat.zero_le _, hle, hslice⟩,
      fun ⟨hle, _, _, hslice⟩ => ⟨hle, hslice⟩⟩
  stop := by
    refine ⟨_, rfl, ?_⟩
    rw [List.isSuffixOf_iff_suffix, Text.isSuffix_iff_slice, substring_eq_ok_iff,
      String.length_toList, String.length_toList]
    -- an end of a string is its slice of the length of the end
    exact ⟨fun ⟨hle, hslice⟩ => ⟨hle, Nat.sub_le .., Nat.le_refl _, hslice⟩,
      fun ⟨hle, _, _, hslice⟩ => ⟨hle, hslice⟩⟩

/-! ### Splitting -/

/-- The characters of strings, joined. -/
theorem joined_map_str (h : Heap) (separator : String) (pieces : List String) :
    h.joined separator.toList (pieces.map Value.str) = .str (separator.intercalate pieces) := by
  have htexts : (pieces.map Value.str).map h.text = pieces := by
    rw [List.map_map]
    exact List.map_id _
  rw [joined, htexts, String.ofList_toList]

/-- Strings that are items of a list are joined as strings. -/
theorem callMethod_join {id : ListId} {pieces : List String}
    (hitems : h.list id = (pieces.map Value.str).toArray) (separator : String) :
    h.callMethod operations (.list id) "join" [.str separator] =
      (some (.ok (.str (separator.intercalate pieces))), h) := by
  have htoList : (h.list id).toList = pieces.map Value.str := by rw [hitems]
  rw [← h.joined_map_str, ← htoList]
  rfl

/-- Strings are joined as their characters are. -/
theorem intercalate_map_ofList (separator : String) (pieces : List (List Char)) :
    separator.intercalate (pieces.map String.ofList) =
      String.ofList (separator.toList.intercalate pieces) := by
  refine String.toList_injective ?_
  rw [String.toList_intercalate, String.toList_ofList, List.map_map]
  congr 1
  exact List.map_id'' (fun _ => String.toList_ofList) _

/-- Splitting makes a new list of the pieces. -/
theorem list_split (h : Heap) (pieces : List (List Char)) :
    (h.newList (pieces.map Value.ofChars).toArray).2.list ⟨h.lists.size⟩ =
      ((pieces.map String.ofList).map Value.str).toArray := by
  rw [List.map_map]
  simp [newList, list, Value.ofChars, Function.comp_def]

end Heap

open Heap

/-- **Strings are searched and sliced by the same positions**, which count characters. -/
theorem string_search_and_slicing (h : Heap) (operations : Assoc Operation) (s t : String) :
    h.Finds operations s t ∧ h.Slices operations s :=
  ⟨h.finds operations s t, h.slices operations s⟩

/-- An accented letter takes two bytes, and is one character. -/
theorem accented_letter_found :
    ({} : Heap).Answers .empty "añañ" "lastIndexOf" [.str "ñ"] (.int 3) ∧
    IsGreatest (slicesAt "añañ" "ñ") 3 ∧
    ({} : Heap).callMethod .empty (.str "añañ") "substring" [.int 3, .int 4] =
      (some (.ok (.str "ñ")), {}) := by
  obtain ⟨hfinds, hslices⟩ := string_search_and_slicing {} .empty "añañ" "ñ"
  obtain ⟨found, v, hcontains, hlast, -, hfound⟩ := hfinds.last
  have hthree : ({} : Heap).Answers .empty "añañ" "lastIndexOf" [.str "ñ"] (.int 3) := rfl
  obtain rfl : v = .int 3 := by
    rw [Answers] at hlast
    simpa using hlast.symm.trans hthree
  obtain rfl : found = true := by
    rw [Answers] at hcontains
    simpa using hcontains.symm.trans
      (rfl : _ = (some (Except.ok (Value.bool true)), ({} : Heap)))
  obtain ⟨i, -, hgreatest, hindex⟩ := hfound rfl
  obtain rfl : 3 = i := Option.some.inj (hindex (by decide))
  exact ⟨hthree, hgreatest, hslices.substring (.int 3) (.int 4) 3 4 (by decide) (by decide)⟩

/-- **Splitting, joining and replacing fit together.** -/
theorem split_join_replace (h : Heap) (operations : Assoc Operation) (s f t : String) :
    ∃ id h' pieces replaced, h.Splits operations s f t id h' pieces replaced := by
  have hitems := h.list_split (Text.split f.toList s.toList)
  have hjoin : f.intercalate ((Text.split f.toList s.toList).map String.ofList) = s := by
    rw [intercalate_map_ofList, Text.intercalate_split, String.ofList_toList]
  have hreplace : t.intercalate ((Text.split f.toList s.toList).map String.ofList) =
      String.ofList (Text.replace f.toList t.toList s.toList) := by
    rw [intercalate_map_ofList, Text.replace_eq_intercalate]
  refine ⟨⟨h.lists.size⟩, (h.newList ((Text.split f.toList s.toList).map Value.ofChars).toArray).2,
    (Text.split f.toList s.toList).map String.ofList,
    String.ofList (Text.replace f.toList t.toList s.toList), rfl, hitems, ?_, ?_, rfl, ?_⟩
  · rw [callMethod_join hitems f, hjoin]
  · rw [callMethod_join hitems t, hreplace]
  · -- The pieces are those of the recursion, as the separator is not empty.
    intro hf piece hpiece
    obtain ⟨cs, hcs, rfl⟩ := List.mem_map.1 hpiece
    have hseparator : f.toList ≠ [] := fun h => hf (String.toList_eq_nil_iff.1 h)
    rw [Text.split, dif_neg hseparator] at hcs
    have hfree : ¬ f.toList <:+: (String.ofList cs).toList := by
      rw [String.toList_ofList]
      exact Text.not_isInfix_of_mem_pieces hseparator hcs
    have hcontains : Text.contains f.toList (String.ofList cs).toList = false := by
      rw [Bool.eq_false_iff, ne_eq, Text.contains_iff]
      exact hfree
    refine ⟨hfree, ?_⟩
    rw [Answers, ← hcontains]
    rfl

end Stencil
