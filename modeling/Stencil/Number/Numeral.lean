import Stencil.Number.Decimal

/-!
# Decimal numerals

A numeral is a decimal number as it is written: a sign, the digits in front of the point, the
digits behind it, and an exponent. It is what documents are read into and what floating-point
numbers are laid out as.

Main definitions: `Numeral`, `Numeral.text`.
-/

namespace Stencil

/-- A decimal number as it is written. -/
structure Numeral where
  negative : Bool := false
  /-- The digits in front of the point. -/
  whole : List Char
  /-- The digits behind the point; without any there is no point. -/
  fraction : List Char := []
  exponent : Option Int := none
deriving DecidableEq, Repr, Inhabited

namespace Numeral

/-- The numeral of an integer. -/
def ofInt (i : Int) : Numeral := { negative := i < 0, whole := Decimal.digits i.natAbs }

/-- The text of a fraction, with its point. -/
def fractionText (digits : List Char) : List Char := if digits.isEmpty then [] else '.' :: digits

/-- The text of an exponent, with its mark; `plus` is the sign of a positive one. -/
def exponentText (plus : List Char) : Option Int → List Char
  | none => []
  | some e =>
    'e' :: (if e < 0 then ['-'] else plus) ++ Decimal.digits e.natAbs

/-- The characters of a numeral. -/
def chars (plus : List Char) (n : Numeral) : List Char :=
  (if n.negative then ['-'] else []) ++ n.whole ++ fractionText n.fraction ++
    exponentText plus n.exponent

/-- The text of a numeral; `plus` is the sign of a positive exponent. -/
def text (plus : List Char) (n : Numeral) : String := String.ofList (n.chars plus)

end Numeral

end Stencil
