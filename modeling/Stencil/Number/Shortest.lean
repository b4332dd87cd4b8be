import Stencil.Number.Binary
import Stencil.Number.Decimal

/-!
# The shortest decimal of a binary number

A binary number is printed with the fewest digits that read back to it. The reals that round to
`significand · 2 ^ exponent` form an interval around it, whose ends belong to it when the
significand is even. Among the decimals in that interval the ones with the fewest digits are
taken, of those the closest to the number, and of two equally close ones the even one.

For each number of digits only two decimals can be the closest: the neighbours of the number on
the grid of that many digits. `shortest` tries the grids from coarse to fine.

Main definitions: `Shortest.Interval`, `Shortest.candidate?`, `shortest`.
-/

namespace Stencil

/-- The number `digits · 10 ^ exponent`. -/
structure DecimalNumber where
  digits : Nat
  exponent : Int
deriving Repr, DecidableEq

namespace Shortest

/-- The number `value / unit` with the interval of reals that round to it, all over one
denominator. -/
structure Interval where
  low : Nat
  value : Nat
  high : Nat
  unit : Nat
  /-- Whether the ends round to the number as well. -/
  closed : Bool

/-- The interval of `significand · 2 ^ exponent`. Below a power of two the neighbour is half as
far away as above it; `narrow` says that this is the case. -/
def Interval.of (significand : Nat) (exponent : Int) (narrow : Bool) : Interval :=
  -- In quarters of a unit the number and both ends are whole.
  let shift := exponent - 2
  let factor := Nat.pow 2 shift.toNat
  { low := (4 * significand - if narrow then 1 else 2) * factor
    value := 4 * significand * factor
    high := (4 * significand + 2) * factor
    unit := Nat.pow 2 (-shift).toNat
    closed := significand % 2 == 0 }

/-- Whether `n · 10 ^ exponent` lies in the interval. -/
def Interval.holds (i : Interval) (n : Nat) (exponent : Int) : Bool :=
  let point := n * Nat.pow 10 exponent.toNat * i.unit
  let scale := Nat.pow 10 (-exponent).toNat
  if i.closed then i.low * scale ≤ point && point ≤ i.high * scale
  else i.low * scale < point && point < i.high * scale

/-- The neighbour of the value on the grid of multiples of `10 ^ exponent` that lies in the
interval: the closer one if both do, the even one if they are equally close. -/
def candidate? (i : Interval) (exponent : Int) : Option Nat :=
  let num := i.value * Nat.pow 10 (-exponent).toNat
  let den := i.unit * Nat.pow 10 exponent.toNat
  -- No grid point but the two around the value can be the closest in the interval.
  let below := num / den
  let nearest := Binary.roundDiv num den
  let other := if nearest = below then below + 1 else below
  if i.holds nearest exponent then some nearest
  else if i.holds other exponent then some other
  else none

/-- The number of leading zeros after the point of `num / den`, a quotient below one. -/
def leadingZeros (den : Nat) : Nat → Nat → Nat
  | 0, _ => 0
  | fuel + 1, num => if den ≤ num * 10 then 0 else leadingZeros den fuel (num * 10) + 1

/-- The number of digits before the point of `num / den`; a negative number counts zeros after
the point. -/
def pointPosition (num den : Nat) : Int :=
  if den ≤ num then (Decimal.digits (num / den)).length
  else -(leadingZeros den 400 num : Int)

/-- Moves the zeros at the end of the digits into the exponent. -/
def strip : Nat → DecimalNumber → DecimalNumber
  | 0, d => d
  | fuel + 1, d =>
    if d.digits % 10 = 0 then strip fuel ⟨d.digits / 10, d.exponent + 1⟩ else d

/-- The first hit on the grids that give the number `count`, `count + 1`, … digits. -/
def search (i : Interval) (point : Int) : Nat → Nat → DecimalNumber
  -- Not reached: seventeen digits tell any two doubles apart.
  | 0, count => ⟨i.value / i.unit, count⟩
  | fuel + 1, count =>
    match candidate? i (point - count) with
    | some n => strip 20 ⟨n, point - count⟩
    | none => search i point fuel (count + 1)

end Shortest

/-- The shortest decimal that reads back to `significand · 2 ^ exponent`, a positive number of
the format. -/
def shortest (f : Binary) (significand : Nat) (exponent : Int) : DecimalNumber :=
  let narrow := significand == f.block && f.leastExponent < exponent
  let i := Shortest.Interval.of significand exponent narrow
  Shortest.search i (Shortest.pointPosition i.value i.unit) 18 1

end Stencil
