/-!
# Binary floating-point formats

A `Binary` format stores a number as a sign, an exponent and a significand, packed into one
natural number from the high bits down. `Binary.single` and `Binary.double` are the two formats
of template numbers.

Everything here is exact arithmetic on those bit patterns:

* `Binary.view` reads a pattern as `± significand · 2 ^ exponent`, an infinity or not a number;
* `Binary.nearest` packs the number of a format closest to a quotient of naturals, and a quotient
  halfway between two of them goes to the one with an even significand;
* `Binary.ofDecimal` packs the number closest to `digits · 10 ^ exponent`;
* `Binary.remainder` is the remainder of a division that truncates toward zero, which is always
  a number of the format again.
-/

namespace Stencil

/-- A binary format: the number of significand bits, the leading one included, and the number of
exponent bits. -/
structure Binary where
  precision : Nat
  exponentBits : Nat

/-- What a bit pattern stands for. -/
inductive Binary.View where
  | finite (negative : Bool) (significand : Nat) (exponent : Int)
  | infinite (negative : Bool)
  | notANumber
deriving Repr, DecidableEq

namespace Binary

/-- The format of 32 bits. -/
def single : Binary := ⟨24, 8⟩

/-- The format of 64 bits. -/
def double : Binary := ⟨53, 11⟩

variable (f : Binary)

/-- The exponent of the least unit, shared by the subnormal and the smallest normal numbers. -/
def leastExponent : Int := 3 - Nat.pow 2 (f.exponentBits - 1) - f.precision

/-- The number of significand values that share one exponent field. -/
def block : Nat := Nat.pow 2 (f.precision - 1)

/-- The pattern of positive infinity. -/
def infinity : Nat := (Nat.pow 2 f.exponentBits - 1) * f.block

/-- The bit that holds the sign. -/
def signBit : Nat := Nat.pow 2 f.exponentBits * f.block

/-- A pattern that is not a number. -/
def nan : Nat := f.infinity + f.block / 2

/-- Adds a sign to the pattern of a magnitude. -/
def withSign (negative : Bool) (magnitude : Nat) : Nat :=
  if negative then f.signBit + magnitude else magnitude

/-- Reads a bit pattern. -/
def view (bits : Nat) : View :=
  let negative := bits / f.signBit % 2 == 1
  let field := bits / f.block % Nat.pow 2 f.exponentBits
  let fraction := bits % f.block
  if field = Nat.pow 2 f.exponentBits - 1 then
    if fraction = 0 then .infinite negative else .notANumber
  else if field = 0 then .finite negative fraction f.leastExponent
  else .finite negative (f.block + fraction) (f.leastExponent + field - 1)

/-! ### Rounding -/

/-- The natural number closest to `num / den`, the even one of two that are equally close. -/
def roundDiv (num den : Nat) : Nat :=
  let quotient := num / den
  let rest := num % den
  if 2 * rest < den then quotient
  else if den < 2 * rest then quotient + 1
  else quotient + quotient % 2

/-- `num / (den · 2 ^ exponent)` as a quotient of naturals. -/
def scale (num den : Nat) (exponent : Int) : Nat × Nat :=
  if exponent < 0 then (num * Nat.pow 2 (-exponent).toNat, den)
  else (num, den * Nat.pow 2 exponent.toNat)

/-- The pattern of the magnitude closest to `num / den`; too large a quotient is infinite. -/
def nearest (num den : Nat) : Nat :=
  if num = 0 then 0
  else
    -- The quotient lies between half of `2 ^ magnitude` and twice as much, so only two exponents
    -- are possible. Below `leastExponent` there is no choice.
    let magnitude : Int := (num.log2 : Int) - den.log2
    let low := max f.leastExponent (magnitude - f.precision)
    let (n, d) := scale num den low
    let exponent := if n / d < Nat.pow 2 f.precision then low else low + 1
    let (n, d) := scale num den exponent
    min f.infinity ((exponent - f.leastExponent).toNat * f.block + roundDiv n d)

/-- The pattern of the magnitude closest to `digits · 10 ^ exponent`. Exponents that are out of
reach of the format are answered without computing the power. -/
def ofDecimal (digits : Nat) (exponent : Int) : Nat :=
  if digits = 0 then 0
  else if 400 < exponent then f.infinity
  else if exponent < 0 then
    if exponent + digits.log2 < -400 then 0 else f.nearest digits (Nat.pow 10 (-exponent).toNat)
  else f.nearest (digits * Nat.pow 10 exponent.toNat) 1

/-! ### Remainder -/

/-- The remainder of the division of two patterns, with the sign of the dividend. It does not
exist when the dividend is infinite or the divisor zero. -/
def remainder (x y : Nat) : Nat :=
  match f.view x, f.view y with
  | .finite negative m p, .finite _ n q =>
    if n = 0 then f.nan
    else
      -- In multiples of the smaller unit both operands are whole, and so is the remainder.
      let low := min p q
      let rest := (m * Nat.pow 2 (p - low).toNat) % (n * Nat.pow 2 (q - low).toNat)
      let (num, den) := scale rest 1 (-low)
      f.withSign negative (f.nearest num den)
  | .finite .., .infinite _ => x
  | _, _ => f.nan

end Binary

end Stencil
