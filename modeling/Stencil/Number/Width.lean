/-!
# Integers of fixed width

Template integers are 32 or 64 bits wide. `fitsInt` and `fitsLong` say which integers the two
widths hold, and `packInt?` and `packLong?` bring an integer to a width that holds it.

Main statements: `toInt_ofInt_of_fitsInt` and `toInt_ofInt_of_fitsLong` (an integer that fits is
packed without loss).
-/

namespace Stencil

/-- Whether an integer is one of 32 bits. -/
def fitsInt (i : Int) : Bool := Int32.minValue.toInt ≤ i && i ≤ Int32.maxValue.toInt

/-- Whether an integer is one of 64 bits. -/
def fitsLong (i : Int) : Bool := Int64.minValue.toInt ≤ i && i ≤ Int64.maxValue.toInt

/-- An integer in 32 bits, if they hold it. -/
def packInt? (i : Int) : Option Int32 := if fitsInt i then some (Int32.ofInt i) else none

/-- An integer in 64 bits, if they hold it. -/
def packLong? (i : Int) : Option Int64 := if fitsLong i then some (Int64.ofInt i) else none

/-- The integers of 32 bits. -/
theorem fitsInt_iff {i : Int} : fitsInt i = true ↔ -2147483648 ≤ i ∧ i ≤ 2147483647 := by
  have low : Int32.minValue.toInt = -2147483648 := by decide
  have high : Int32.maxValue.toInt = 2147483647 := by decide
  simp only [fitsInt, low, high, Bool.and_eq_true, decide_eq_true_eq]

/-- The integers of 64 bits. -/
theorem fitsLong_iff {i : Int} :
    fitsLong i = true ↔ -9223372036854775808 ≤ i ∧ i ≤ 9223372036854775807 := by
  have low : Int64.minValue.toInt = -9223372036854775808 := by decide
  have high : Int64.maxValue.toInt = 9223372036854775807 := by decide
  simp only [fitsLong, low, high, Bool.and_eq_true, decide_eq_true_eq]

theorem fitsLong_of_fitsInt {i : Int} (h : fitsInt i = true) : fitsLong i = true := by
  have := fitsInt_iff.1 h
  exact fitsLong_iff.2 ⟨by omega, by omega⟩

theorem toInt_ofInt_of_fitsInt {i : Int} (h : fitsInt i = true) : (Int32.ofInt i).toInt = i := by
  have := fitsInt_iff.1 h
  exact Int32.toInt_ofInt_of_le (by omega) (by omega)

theorem toInt_ofInt_of_fitsLong {i : Int} (h : fitsLong i = true) : (Int64.ofInt i).toInt = i := by
  have := fitsLong_iff.1 h
  exact Int64.toInt_ofInt_of_le (by omega) (by omega)

/-- An integer is packed if the packed one still is this integer. -/
theorem packLong?_eq_some_iff {i : Int} {l : Int64} : packLong? i = some l ↔ l.toInt = i := by
  unfold packLong?
  by_cases hfits : fitsLong i = true
  · rw [if_pos hfits, Option.some.injEq, ← Int64.toInt_inj, toInt_ofInt_of_fitsLong hfits, eq_comm]
  · -- whatever 64 bits hold fits them
    rw [if_neg hfits]
    refine ⟨nofun, ?_⟩
    rintro rfl
    exact absurd (fitsLong_iff.2 ⟨l.le_toInt, Int.le_of_lt_add_one l.toInt_lt⟩) hfits

end Stencil
