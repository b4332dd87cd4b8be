import Stencil.Proofs.Value.Ranges

/-!
# Indexes and elements of a range correspond

The indexes below the size of a range correspond to the integers between its bounds, whichever way
the range counts: the index of an integer is how many steps it is away from the start. So `get?` and
`position?` are inverse to each other, each of them defined exactly where the other one leads. They
are computed by different formulas, `offsetFrom` and `offset?`, in which a step that does not fit 64
or 32 bits would leave an element or an index missing. The bounds of a range are 32-bit integers, so
that no step is too long for 64 bits, and none leads out of 32 bits before the end of the range.

Main definitions: `IntRange.Within`, `IntRange.Corresponds`, `IntRange.NeverFallsBack`.
Main statements: `IntRange.within_iff`, `IntRange.corresponds`, `IntRange.neverFallsBack`,
`range_bijection`.
-/

namespace Stencil

namespace IntRange

variable {r : IntRange} {index : Nat} {v : Int}

/-- Whether an integer lies between the bounds of a range, in whichever order these stand. -/
def Within (r : IntRange) (v : Int) : Prop :=
  min r.start.toInt r.stop.toInt ≤ v ∧ v ≤ max r.start.toInt r.stop.toInt

/-- What is added from one element to the next: a step of one towards the end. -/
def step (r : IntRange) : Int := if r.start.toInt ≤ r.stop.toInt then 1 else -1

/-! ### Elements -/

theorem offsetFrom_zero (r : IntRange) : r.offsetFrom 0 = r.start.toInt := by
  rw [offsetFrom, Int.add_zero, Int.sub_zero, ite_self]

/-- From one index to the next it is one step. -/
theorem offsetFrom_succ (r : IntRange) (index : Nat) :
    r.offsetFrom (index + 1 : Nat) = r.offsetFrom index + r.step := by
  rw [offsetFrom, offsetFrom, step, ascending]
  split <;> simp only [decide_eq_true_eq] at * <;> split <;> omega

/-- The last index is that of the end. -/
theorem offsetFrom_last (r : IntRange) : r.offsetFrom (r.size - 1 : Nat) = r.stop.toInt := by
  rw [size_eq, offsetFrom, ascending]
  split <;> simp only [decide_eq_true_eq] at * <;> omega

/-- **What lies between the bounds** is what there are steps to. -/
theorem within_iff : r.Within v ↔ ∃ index : Nat, index < r.size ∧ r.offsetFrom index = v := by
  rw [Within, size_eq]
  constructor
  · intro hv
    -- the index of an integer is how far it is away from the start
    refine ⟨(v - r.start.toInt).natAbs, by omega, ?_⟩
    rw [offsetFrom, ascending]
    split <;> simp only [decide_eq_true_eq] at * <;> omega
  · rintro ⟨index, hindex, rfl⟩
    rw [offsetFrom, ascending]
    split <;> simp only [decide_eq_true_eq] at * <;> omega

/-- There is an element at the indexes below the size. -/
theorem isSome_get?_iff (r : IntRange) (index : Nat) :
    (r.get? index).isSome = true ↔ index < r.size := by
  rw [← Nat.not_le, ← get?_eq_none_iff, Option.isSome_iff_ne_none]

/-- There is an index for the integers between the bounds. -/
theorem isSome_position?_iff (r : IntRange) (v : Int64) :
    (r.position? v).isSome = true ↔ r.Within v.toInt := by
  rw [Option.isSome_iff_exists, within_iff]
  exact exists_congr fun index => position?_eq_some_iff

/-- **`get?` and `position?` are inverse to each other**, as relations. -/
theorem position?_eq_some_iff_get? {v : Int64} :
    r.position? v = some index ↔ ∃ e, r.get? index = some e ∧ e.toInt64 = v := by
  rw [position?_eq_some_iff]
  constructor
  · rintro ⟨hindex, hv⟩
    refine ⟨_, get?_of_lt hindex, Int64.toInt_inj.mp ?_⟩
    rw [Int32.toInt_toInt64, toInt_ofInt_of_fitsInt (fitsInt_offsetFrom hindex), hv]
  · rintro ⟨e, he, rfl⟩
    rw [Int32.toInt_toInt64]
    exact get?_eq_some_iff.mp he

/-- The indexes below the size of a range correspond to the integers between its bounds. -/
structure Corresponds (r : IntRange) : Prop where
  get_isSome : ∀ index, (r.get? index).isSome = true ↔ index < r.size
  get_zero : r.get? 0 = some r.start
  get_succ : ∀ index e e', r.get? index = some e → r.get? (index + 1) = some e' →
    e'.toInt = e.toInt + r.step
  get_within : ∀ index e, r.get? index = some e → r.Within e.toInt
  position_isSome : ∀ v : Int64, (r.position? v).isSome = true ↔ r.Within v.toInt
  position_get : ∀ index e, r.get? index = some e → r.position? e.toInt64 = some index
  get_position : ∀ (v : Int64) index, r.position? v = some index →
    (r.get? index).map Int32.toInt64 = some v

/-- The indexes of any range correspond to the integers between its bounds. -/
theorem corresponds (r : IntRange) : r.Corresponds where
  get_isSome := r.isSome_get?_iff
  get_zero := get?_eq_some_iff.mpr ⟨r.size_pos, r.offsetFrom_zero⟩
  get_succ index e e' he he' := by
    obtain ⟨-, hoffset⟩ := get?_eq_some_iff.mp he
    obtain ⟨-, hoffset'⟩ := get?_eq_some_iff.mp he'
    rw [← hoffset, ← hoffset', offsetFrom_succ]
  get_within index e he := within_iff.mpr ⟨index, get?_eq_some_iff.mp he⟩
  position_isSome := r.isSome_position?_iff
  position_get index e he := position?_eq_some_iff_get?.mpr ⟨e, he, rfl⟩
  get_position v index hv := by
    obtain ⟨e, he, rfl⟩ := position?_eq_some_iff_get?.mp hv
    rw [he]
    rfl

/-! ### Steps that fit -/

/-- No check on the way to the size, an element or an index ever fails: the size and every index
below it fit 64 bits, and so does every step from the start; every element fits 32 bits; and an
integer between the bounds is a number of steps away from the start that fits 64 bits and is not
negative. -/
structure NeverFallsBack (r : IntRange) : Prop where
  size : (r.stop.toInt - r.start.toInt).natAbs + 1 ≤ UInt64.size - 1
  index : ∀ index < r.size, ∃ offset, packLong? index = some offset ∧ offset.toInt = index
  element : ∀ index < r.size, ∃ value, packLong? (r.offsetFrom index) = some value ∧
    ∃ e, packInt? value.toInt = some e ∧ e.toInt = r.offsetFrom index
  offset : ∀ v : Int64, r.Within v.toInt → ∃ offset, r.offset? v = some offset ∧ 0 ≤ offset.toInt

/-- An index below the size is one of 64 bits. -/
theorem exists_packLong?_index (hindex : index < r.size) :
    ∃ offset, packLong? index = some offset ∧ offset.toInt = index := by
  have hsize := r.size_le
  have hfits : fitsLong index = true := fitsLong_iff.mpr ⟨by omega, by omega⟩
  exact ⟨.ofInt index, if_pos hfits, toInt_ofInt_of_fitsLong hfits⟩

/-- No check in the computations of any range fails. -/
theorem neverFallsBack (r : IntRange) : r.NeverFallsBack where
  size := by
    have hsize := r.size_le
    have hmax : UInt64.size - 1 = 18446744073709551615 := rfl
    rw [size_eq] at hsize
    rw [hmax]
    omega
  index _ hindex := exists_packLong?_index hindex
  element index hindex := by
    have hint := fitsInt_offsetFrom hindex
    have hlong := fitsLong_of_fitsInt hint
    refine ⟨.ofInt (r.offsetFrom index), if_pos hlong, .ofInt (r.offsetFrom index), ?_,
      toInt_ofInt_of_fitsInt hint⟩
    rw [toInt_ofInt_of_fitsLong hlong]
    exact if_pos hint
  offset v hv := by
    obtain ⟨index, hindex, hoffset⟩ := within_iff.mp hv
    obtain ⟨offset, -, htoInt⟩ := exists_packLong?_index hindex
    -- the number of steps is an index, and so it fits and is not negative
    refine ⟨offset, offset?_eq_some_iff.mpr ?_, ?_⟩
    · rw [htoInt]
      exact ⟨by omega, by omega, hoffset⟩
    · omega

end IntRange

/-- **A range is a bijection that nothing overflows in.** Take any two 32-bit integers as the bounds
of a range. The indexes below its size correspond to the integers between the bounds, from the start
to the end by steps of one. Written out, it has the element at each of these indexes, in order, and
ends with its end. No step of the computation falls back on what is there for results that do not
fit. -/
theorem range_bijection (start stop : Int32) :
    let r : IntRange := ⟨start, stop⟩
    r.size = (stop.toInt - start.toInt).natAbs + 1 ∧ r.Corresponds ∧
      (r.toList.length = r.size ∧ (∀ index, r.toList[index]? = r.get? index) ∧
        r.toList.getLast? = some stop) ∧
      r.NeverFallsBack := by
  intro r
  have hlast : r.toList.getLast? = some stop := by
    rw [List.getLast?_eq_getElem?, r.length_toList, r.getElem?_toList]
    exact IntRange.get?_eq_some_iff.mpr ⟨Nat.sub_one_lt_of_lt r.size_pos, r.offsetFrom_last⟩
  exact ⟨r.size_eq, r.corresponds, ⟨r.length_toList, r.getElem?_toList, hlast⟩, r.neverFallsBack⟩

/-- The widest range, downwards. -/
example : (⟨2147483647, -2147483648⟩ : IntRange).get? 4294967295 = some (-2147483648) := by
  decide +kernel

end Stencil
