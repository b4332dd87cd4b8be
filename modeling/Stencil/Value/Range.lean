import Stencil.Number.Width

/-!
# Integer ranges

The range `[a..b]` holds the integers from `a` to `b`, both included, and counts down when `b` is
below `a`. It never stores its elements: its size, the element at an index and the index of an
element are computed, so the widest range of 32-bit integers costs no more than the narrowest.

The bounds are 32-bit integers, but sizes and offsets go up to `2 ^ 32`. They are computed in 64
bits, where a step whose result does not fit would leave an element or an index missing.

Main statements: `get?_of_lt` and `get?_eq_none_iff` (an index has an element exactly below the
size, so every step fits) and `size_pos` (no range is empty).
-/

namespace Stencil

/-- The integers from `start` to `stop`, both included, in that direction. -/
structure IntRange where
  start : Int32
  stop : Int32
deriving DecidableEq, Repr

namespace IntRange

/-- Whether the range counts up. -/
def ascending (r : IntRange) : Bool := r.start.toInt ≤ r.stop.toInt

/-- The number of elements, or the largest number that 64 bits hold. -/
def size (r : IntRange) : Nat :=
  min ((r.stop.toInt - r.start.toInt).natAbs + 1) (UInt64.size - 1)

/-- The integer `offset` steps away from the start. -/
def offsetFrom (r : IntRange) (offset : Int) : Int :=
  if r.ascending then r.start.toInt + offset else r.start.toInt - offset

/-- The element at an index. -/
def get? (r : IntRange) (index : Nat) : Option Int32 :=
  if index < r.size then do
    let offset ← packLong? index
    let value ← packLong? (r.offsetFrom offset.toInt)
    packInt? value.toInt
  else none

/-- How far an integer is away from the start, in the direction of the range. -/
def offset? (r : IntRange) (value : Int64) : Option Int64 :=
  let v := value.toInt
  if r.ascending then
    if r.start.toInt ≤ v ∧ v ≤ r.stop.toInt then packLong? (v - r.start.toInt) else none
  else
    if r.stop.toInt ≤ v ∧ v ≤ r.start.toInt then packLong? (r.start.toInt - v) else none

/-- The index of an element. -/
def position? (r : IntRange) (value : Int64) : Option Nat := do
  let offset ← r.offset? value
  if 0 ≤ offset.toInt then some offset.toInt.toNat else none

/-- The elements from an index on, at most `count` of them. -/
def take (r : IntRange) : Nat → Nat → List Int32
  | _, 0 => []
  | index, count + 1 =>
    match r.get? index with
    | some element => element :: take r (index + 1) count
    | none => []

/-- All elements, in order. -/
def toList (r : IntRange) : List Int32 := r.take 0 r.size

/-! ### No step overflows -/

/-- The number of elements, whichever of the bounds is the larger one. -/
theorem size_eq (r : IntRange) : r.size = (r.stop.toInt - r.start.toInt).natAbs + 1 := by
  have hstart := Int32.toInt_lt r.start
  have hstart' := Int32.le_toInt r.start
  have hstop := Int32.toInt_lt r.stop
  have hstop' := Int32.le_toInt r.stop
  have hmax : UInt64.size - 1 = 18446744073709551615 := rfl
  rw [size, hmax]
  omega

/-- No range has more elements than there are integers of 32 bits. -/
theorem size_le (r : IntRange) : r.size ≤ 4294967296 := by
  have hstart := Int32.toInt_lt r.start
  have hstart' := Int32.le_toInt r.start
  have hstop := Int32.toInt_lt r.stop
  have hstop' := Int32.le_toInt r.stop
  rw [size_eq]
  omega

/-- A range has an element, even if both its bounds are the same. -/
theorem size_pos (r : IntRange) : 0 < r.size := by
  rw [size_eq]
  exact Nat.succ_pos _

/-- Every integer between the bounds fits 32 bits. -/
theorem fitsInt_offsetFrom {r : IntRange} {index : Nat} (h : index < r.size) :
    fitsInt (r.offsetFrom index) = true := by
  have hstart := Int32.toInt_lt r.start
  have hstart' := Int32.le_toInt r.start
  have hstop := Int32.toInt_lt r.stop
  have hstop' := Int32.le_toInt r.stop
  rw [size_eq] at h
  rw [fitsInt_iff, offsetFrom, ascending]
  split <;> simp only [decide_eq_true_eq] at * <;> omega

/-- Below the size there is an element, so every step towards it fits. -/
theorem get?_of_lt {r : IntRange} {index : Nat} (h : index < r.size) :
    r.get? index = some (Int32.ofInt (r.offsetFrom index)) := by
  have hfits := fitsInt_offsetFrom h
  have hlong := fitsLong_of_fitsInt hfits
  have hindex : fitsLong index = true := by
    have hsize := r.size_le
    exact fitsLong_iff.2 ⟨by omega, by omega⟩
  rw [get?, if_pos h, packLong?, if_pos hindex]
  change (packLong? (r.offsetFrom (Int64.ofInt index).toInt)).bind _ = _
  rw [toInt_ofInt_of_fitsLong hindex, packLong?, if_pos hlong]
  change packInt? (Int64.ofInt (r.offsetFrom index)).toInt = _
  rw [toInt_ofInt_of_fitsLong hlong, packInt?, if_pos hfits]

/-- The positions behind the last element have none. -/
theorem get?_eq_none_iff {r : IntRange} {index : Nat} : r.get? index = none ↔ r.size ≤ index := by
  by_cases h : index < r.size
  · rw [get?_of_lt h]
    simp [h]
  · rw [get?, if_neg h]
    simp [Nat.le_of_not_lt h]

end IntRange

end Stencil
