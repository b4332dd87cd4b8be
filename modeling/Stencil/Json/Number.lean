import Stencil.Json.Basic
import Stencil.Number.Layout
import Stencil.Number.Width

/-!
# The numbers of a document

A numeral stands for an integer of 64 bits if it has neither a fraction nor an exponent and is in
range, and for a double otherwise.

The double is computed from the leading digits, as many as an unsigned integer of 64 bits holds,
and one power of ten. Digits that do not fit count for their place only, those of the fraction
not at all. So the double is the closest one where few digits are written, and may be off by the
last bit where many are. A number beyond the greatest double is none.

Main definition: `Numeral.number?`.
-/

namespace Stencil

/-- What a numeral stands for. -/
inductive DocumentNumber where
  /-- An integer from zero up. -/
  | natural (n : Nat)
  /-- An integer below zero. -/
  | negative (i : Int)
  | real (x : Float)

namespace Numeral

/-- Takes digits as long as the number they spell has 64 bits; answers with the number and the
digits left over. -/
def absorb : Nat → List Char → Nat × List Char
  | n, [] => (n, [])
  | n, c :: cs =>
    let next := n * 10 + Decimal.digitValue c
    if next < UInt64.size then absorb next cs else (n, c :: cs)

/-- The power of ten as a double. -/
def tenTo (n : Nat) : Float := doubleOfDecimal 1 n

/-- Divides by a power of ten, in steps that doubles can hold. -/
def divideByTenTo (x : Float) (n : Nat) : Float :=
  if n ≤ 308 then x / tenTo n
  else if x == 0 then x
  else divideByTenTo (x / tenTo 308) (n - 308)
termination_by n

/-- The double of a significand and a power of ten, unless it is infinite. -/
def scaled? (significand : Nat) (exponent : Int) : Option Float :=
  let x := doubleOfDecimal significand 0
  if exponent < 0 then some (divideByTenTo x exponent.natAbs)
  else if exponent ≤ 308 then
    let product := x * tenTo exponent.natAbs
    if product.isInf then none else some product
  else if significand = 0 then some x
  else none

/-- The greatest exponent that is taken as it is written. -/
def maxExponent : Int := Int32.maxValue.toInt

/-- The magnitude of a numeral as a double. -/
def magnitude? (n : Numeral) : Option Float :=
  let (significand, dropped) := absorb 0 n.whole
  let (significand, ignored) := absorb significand n.fraction
  let exponent := n.exponent.getD 0
  let place : Int := dropped.length - (n.fraction.length - ignored.length)
  if maxExponent < exponent then if significand = 0 then some 0 else none
  else if exponent < -maxExponent then some 0
  else scaled? significand (place + exponent)

/-- The double that a numeral stands for. -/
def real? (n : Numeral) : Option DocumentNumber :=
  n.magnitude?.map fun x => .real (if n.negative then -x else x)

/-- What a numeral stands for. Zero with a minus is a double, since no integer has a sign of its
own. -/
def number? (n : Numeral) : Option DocumentNumber :=
  if n.fraction.isEmpty && n.exponent.isNone then
    let value := Decimal.ofDigits n.whole
    if n.negative then
      if 0 < value ∧ fitsLong (-value) then some (.negative (-value)) else n.real?
    else if value < UInt64.size then some (.natural value)
    else n.real?
  else n.real?

end Numeral

end Stencil
