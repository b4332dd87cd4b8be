import Stencil.Number.Width
import Stencil.Value.Range

/-!
# Template values

Templates compute with values of thirteen kinds. Numbers come in four widths; strings, ranges and
the constants stand for themselves. The other kinds are **references** into a heap: a list
assigned to two variables is one list, and a change made through one name is seen through the
other. A value is therefore a flat thing, and copying it never copies what it refers to.

* `Value.typeName` is the name of a kind in messages.
* `Value.asLong?` and `Value.asDouble?` read a number as the widest integer or the widest float.
* `LoopStatus` is the record behind the variable `for` inside a loop.
-/

namespace Stencil

/-! ### References -/

/-- The address of a list. -/
structure ListId where
  index : Nat
deriving DecidableEq, Repr, Inhabited

/-- The address of a map. -/
structure MapId where
  index : Nat
deriving DecidableEq, Repr, Inhabited

/-- The address of a one-shot iterator. -/
structure IterId where
  index : Nat
deriving DecidableEq, Repr, Inhabited

/-- The address of a loop status. -/
structure StatusId where
  index : Nat
deriving DecidableEq, Repr, Inhabited

/-- The address of a host object. -/
structure ObjectId where
  index : Nat
deriving DecidableEq, Repr, Inhabited

/-! ### Values -/

/-- A value of the expression language. -/
inductive Value where
  | null
  | bool (b : Bool)
  | int (i : Int32)
  | long (l : Int64)
  | float (f : Float32)
  | double (d : Float)
  | str (s : String)
  | list (id : ListId)
  | map (id : MapId)
  | range (r : IntRange)
  | iter (id : IterId)
  | status (id : StatusId)
  | object (id : ObjectId)
deriving Inhabited

namespace Value

/-- The name of the kind of a value. -/
def typeName : Value → String
  | null => "null"
  | bool _ => "boolean"
  | int _ => "int"
  | long _ => "long"
  | float _ => "float"
  | double _ => "double"
  | str _ => "string"
  | list _ => "list"
  | map _ => "map"
  | range _ => "range"
  | iter _ => "iterator"
  | status _ => "loop status"
  | object _ => "object"

/-- Whether a value is null. -/
def isNull : Value → Bool
  | null => true
  | _ => false

/-- Whether a value is a number of any width. -/
def isNumber : Value → Bool
  | int _ | long _ | float _ | double _ => true
  | _ => false

/-- The integer that an `int` or `long` holds. -/
def asLong? : Value → Option Int64
  | int i => some i.toInt64
  | long l => some l
  | _ => none

/-- A number of any width as a double. -/
def asDouble? : Value → Option Float
  | int i => some (Float.ofInt i.toInt)
  | long l => some (Float.ofInt l.toInt)
  | float f => some f.toFloat
  | double d => some d
  | _ => none

/-- The text of a string value. -/
def asString? : Value → Option String
  | str s => some s
  | _ => none

/-- The truth value of a boolean. -/
def asBool? : Value → Option Bool
  | bool b => some b
  | _ => none

/-- A count as a value: an `int` where it fits, a `long` otherwise. -/
def ofNat (n : Nat) : Value :=
  if fitsInt n then int (Int32.ofNat n)
  else if fitsLong n then long (Int64.ofNat n)
  else long Int64.maxValue

/-- An optional position as a value; a missing one is `-1`. -/
def ofPosition? : Option Nat → Value
  | some n => ofNat n
  | none => int (-1)

/-- The index that a value denotes: an integer that is not negative. -/
def asIndex? (v : Value) : Option Nat :=
  match v.asLong? with
  | some l => if 0 ≤ l.toInt then some l.toInt.toNat else none
  | none => none

/-- An integer that is not negative is an index. -/
theorem asIndex?_of_nonneg {v : Value} {l : Int64} (hv : v.asLong? = some l) (hl : 0 ≤ l.toInt) :
    v.asIndex? = some l.toInt.toNat := by
  rw [asIndex?, hv]
  exact if_pos hl

/-- A negative integer is no index. -/
theorem asIndex?_of_neg {v : Value} {l : Int64} (hv : v.asLong? = some l) (hl : l.toInt < 0) :
    v.asIndex? = none := by
  rw [asIndex?, hv]
  exact if_neg (Int.not_le.2 hl)

/-- A count that 64 bits hold is the index that its value denotes. -/
theorem asIndex?_ofNat {n : Nat} (hlong : fitsLong n = true) : (ofNat n).asIndex? = some n := by
  have hread {v : Value} {l : Int64} (hv : v.asLong? = some l) (hl : l.toInt = n) :
      v.asIndex? = some n := by
    rw [asIndex?_of_nonneg hv (by omega), hl, Int.toNat_natCast]
  unfold ofNat
  by_cases hint : fitsInt n = true
  · rw [if_pos hint]
    refine hread rfl ?_
    rw [Int32.toInt_toInt64]
    exact toInt_ofInt_of_fitsInt hint
  · rw [if_neg hint, if_pos hlong]
    exact hread rfl (toInt_ofInt_of_fitsLong hlong)

end Value

/-! ### Loop status -/

/-- How a loop advances, with what its status knows because of it. -/
inductive LoopForm where
  /-- A loop with a condition. -/
  | counting
  /-- A loop over a collection, whose size is unknown for a one-shot iterator. -/
  | walking (size : Option Nat) (last : Bool)

/-- The state of a loop in one of its turns. -/
structure LoopStatus where
  /-- The number of turns before this one. -/
  index : Nat
  form : LoopForm
  /-- The status of the enclosing loop, or null. -/
  outer : Value

namespace LoopStatus

/-- The number of turns up to and including this one. -/
def count (s : LoopStatus) : Nat := s.index + 1

/-- Whether this is the first turn. -/
def first (s : LoopStatus) : Bool := s.index == 0

/-- Whether the count of this turn is odd. -/
def odd (s : LoopStatus) : Bool := s.count % 2 == 1

/-- The field `last`, which a counting loop does not have. -/
def last? : LoopForm → Option Value
  | .counting => none
  | .walking _ last => some (.bool last)

/-- The field `size`, which a counting loop does not have. -/
def size? : LoopForm → Option Value
  | .counting => none
  | .walking (some n) _ => some (.ofNat n)
  | .walking none _ => some .null

/-- A field by its name. -/
def field? (s : LoopStatus) (name : String) : Option Value :=
  match name with
  | "index" => some (.ofNat s.index)
  | "count" => some (.ofNat s.count)
  | "first" => some (.bool s.first)
  | "odd" => some (.bool s.odd)
  | "even" => some (.bool !s.odd)
  | "outer" => some s.outer
  | "last" => last? s.form
  | "size" => size? s.form
  | _ => none

end LoopStatus

end Stencil
