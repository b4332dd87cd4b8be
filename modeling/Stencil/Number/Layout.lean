import Stencil.Number.Numeral
import Stencil.Number.Shortest

/-!
# The text of a floating-point number

The shortest digits of a number are laid out in positional notation as long as its point is not
too far from them, and in scientific notation otherwise. A `Layout` holds the choice of how far is
too far. Positional notation always shows a point, with at least one digit on each side.

Infinities and values that are not numbers have fixed texts in template output, and no numeral.

Main definitions: `Layout.numeral`, and the layouts of the two formats, `Layout.double` and
`Layout.single`.
-/

namespace Stencil

/-- Where positional notation ends. The position of the point is counted from the first digit:
`1` for `5.0`, `0` for `0.5`, `-1` for `0.05`. -/
structure Layout where
  /-- The least point position that is written positionally. -/
  least : Int
  /-- The greatest point position that is written positionally. -/
  greatest : Int

namespace Layout

/-- Doubles are positional from `0.00001` up to sixteen digits. -/
def double : Layout := ⟨-4, 16⟩

/-- Floats are positional from `0.000001` up to thirteen digits. -/
def single : Layout := ⟨-5, 13⟩

/-- A text of zeros. -/
def zeros (n : Nat) : List Char := List.replicate n '0'

/-- Positional notation of digits whose point stands at `point`. -/
def positional (negative : Bool) (digits : List Char) (point : Int) : Numeral :=
  if digits.length ≤ point then
    { negative, whole := digits ++ zeros (point.toNat - digits.length), fraction := ['0'] }
  else if 0 < point then
    { negative, whole := digits.take point.toNat, fraction := digits.drop point.toNat }
  else { negative, whole := ['0'], fraction := zeros (-point).toNat ++ digits }

/-- Scientific notation of digits whose point stands at `point`. -/
def scientific (negative : Bool) (digits : List Char) (point : Int) : Numeral :=
  { negative, whole := digits.take 1, fraction := digits.drop 1, exponent := some (point - 1) }

/-- The numeral of a decimal number. -/
def arrange (l : Layout) (negative : Bool) (d : DecimalNumber) : Numeral :=
  let digits := Decimal.digits d.digits
  let point := digits.length + d.exponent
  if l.least ≤ point && point ≤ l.greatest then positional negative digits point
  else scientific negative digits point

/-- The numeral of a finite number. -/
def finite (l : Layout) (f : Binary) (negative : Bool) (significand : Nat) (exponent : Int) :
    Numeral :=
  if significand = 0 then { negative, whole := ['0'], fraction := ['0'] }
  else l.arrange negative (shortest f significand exponent)

/-- The numeral of a bit pattern that stands for a finite number. -/
def numeral? (l : Layout) (f : Binary) (bits : Nat) : Option Numeral :=
  match f.view bits with
  | .finite negative significand exponent => some (l.finite f negative significand exponent)
  | _ => none

/-- The text of a bit pattern in template output. -/
def text (l : Layout) (f : Binary) (bits : Nat) : String :=
  match f.view bits with
  | .notANumber => "NaN"
  | .infinite negative => if negative then "-Infinity" else "Infinity"
  | .finite negative significand exponent => (l.finite f negative significand exponent).text []

end Layout

/-- The text of a double in template output. -/
def doubleText (x : Float) : String := Layout.double.text .double x.toBits.toNat

/-- The text of a float in template output. -/
def singleText (x : Float32) : String := Layout.single.text .single x.toBits.toNat

/-- The numeral of a finite double. -/
def doubleNumeral? (x : Float) : Option Numeral := Layout.double.numeral? .double x.toBits.toNat

/-- The numeral of a finite float. -/
def singleNumeral? (x : Float32) : Option Numeral := Layout.single.numeral? .single x.toBits.toNat

/-! ### Numbers from digits and remainders -/

/-- The double closest to `digits · 10 ^ exponent`. -/
def doubleOfDecimal (digits : Nat) (exponent : Int) : Float :=
  Float.ofBits (UInt64.ofNat (Binary.double.ofDecimal digits exponent))

/-- The float closest to `digits · 10 ^ exponent`. -/
def singleOfDecimal (digits : Nat) (exponent : Int) : Float32 :=
  Float32.ofBits (UInt32.ofNat (Binary.single.ofDecimal digits exponent))

/-- The remainder of a truncating division of doubles. -/
def doubleRemainder (x y : Float) : Float :=
  Float.ofBits (UInt64.ofNat (Binary.double.remainder x.toBits.toNat y.toBits.toNat))

/-- The remainder of a truncating division of floats. -/
def singleRemainder (x y : Float32) : Float32 :=
  Float32.ofBits (UInt32.ofNat (Binary.single.remainder x.toBits.toNat y.toBits.toNat))

end Stencil
