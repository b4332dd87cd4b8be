import Stencil.Error
import Stencil.Value.Equality
import Stencil.Value.Text

/-!
# Operators on values

What the arithmetic operators, signs and comparisons do on values of any kinds.

* The result of an arithmetic operator has the wider of the two operand types, in the order
  int, long, float, double. `+` joins texts as soon as one operand is a string.
* Integers are **two's complement**: results wrap around, division truncates toward zero, and
  only a zero divisor fails. Floats follow the binary formats and never fail.
* Order is defined between strings, by code points, and between numbers, where a value that is
  not a number compares false with everything.

Main definitions: `NumberPair.of?`, `Value.signed`, `Heap.arith`, `Heap.compare`,
`Value.rangeTo`.
-/

namespace Stencil

/-! ### Integers -/

/-- An operator on 32-bit integers; `none` for a division by zero. -/
def ArithOp.onInt (op : ArithOp) (a b : Int32) : Option Int32 :=
  match op with
  | add => some (a + b)
  | sub => some (a - b)
  | mul => some (a * b)
  | div => if b = 0 then none else some (a / b)
  | mod => if b = 0 then none else some (a % b)

/-- An operator on 64-bit integers; `none` for a division by zero. -/
def ArithOp.onLong (op : ArithOp) (a b : Int64) : Option Int64 :=
  match op with
  | add => some (a + b)
  | sub => some (a - b)
  | mul => some (a * b)
  | div => if b = 0 then none else some (a / b)
  | mod => if b = 0 then none else some (a % b)

/-! ### Floats -/

/-- An operator on floats. -/
def ArithOp.onFloat (op : ArithOp) (a b : Float32) : Float32 :=
  match op with
  | add => a + b
  | sub => a - b
  | mul => a * b
  | div => a / b
  | mod => singleRemainder a b

/-- An operator on doubles. -/
def ArithOp.onDouble (op : ArithOp) (a b : Float) : Float :=
  match op with
  | add => a + b
  | sub => a - b
  | mul => a * b
  | div => a / b
  | mod => doubleRemainder a b

/-! ### Widths -/

/-- The types of numbers, from the narrowest to the widest. -/
inductive NumberWidth where
  | int
  | long
  | float
  | double
deriving DecidableEq, Repr

/-- The wider of two types. -/
def NumberWidth.max : NumberWidth → NumberWidth → NumberWidth
  | double, _ | _, double => double
  | float, _ | _, float => float
  | long, _ | _, long => long
  | int, int => int

/-- The type of a number. -/
def Value.width? : Value → Option NumberWidth
  | .int _ => some .int
  | .long _ => some .long
  | .float _ => some .float
  | .double _ => some .double
  | _ => none

/-- An integer that fits 32 bits. -/
def Value.asInt? : Value → Option Int32
  | .int i => some i
  | .long l => if fitsInt l.toInt then some l.toInt32 else none
  | _ => none

/-- A number as a float, and zero for what is no number. -/
def Value.toSingle : Value → Float32
  | .float f => f
  | v => (v.asDouble?.getD 0).toFloat32

/-- Two numbers of one type. -/
inductive NumberPair where
  | int (a b : Int32)
  | long (a b : Int64)
  | float (a b : Float32)
  | double (a b : Float)

/-- Two values as numbers of a type; zeros stand in for those that it cannot hold. -/
def NumberPair.ofWidth (a b : Value) : NumberWidth → NumberPair
  | .int =>
    match a.asInt?, b.asInt? with
    | some x, some y => .int x y
    | _, _ => .int 0 0
  | .long => .long (a.asLong?.getD 0) (b.asLong?.getD 0)
  | .float => .float a.toSingle b.toSingle
  | .double => .double (a.asDouble?.getD 0) (b.asDouble?.getD 0)

/-- Brings two numbers to the wider of their types. -/
def NumberPair.of? (a b : Value) : Option NumberPair :=
  match a.width?, b.width? with
  | some v, some w => some (.ofWidth a b (v.max w))
  | _, _ => none

/-- An operator on two numbers of one type; `none` for a division by zero. -/
def ArithOp.onPair (op : ArithOp) : NumberPair → Option Value
  | .int a b => (op.onInt a b).map .int
  | .long a b => (op.onLong a b).map .long
  | .float a b => some (.float (op.onFloat a b))
  | .double a b => some (.double (op.onDouble a b))

/-! ### Operators -/

/-- Whether an addition joins texts. -/
def ArithOp.joins (op : ArithOp) : Value → Value → Bool
  | .str _, _ | _, .str _ => op == .add
  | _, _ => false

/-- Applies an arithmetic operator. -/
def Heap.arith (h : Heap) (op : ArithOp) (a b : Value) : Except Fault Value :=
  if op.joins a b then .ok (.str (h.text a ++ h.text b))
  else
    match NumberPair.of? a b with
    | none => .error (.unsupportedOperands op a.typeName b.typeName)
    | some pair =>
      match op.onPair pair with
      | some v => .ok v
      | none => .error .divisionByZero

/-- Puts a sign before a value. -/
def Value.signed (sign : Sign) (v : Value) : Except Fault Value :=
  match sign, v with
  | .minus, .int i => .ok (.int (-i))
  | .minus, .long l => .ok (.long (-l))
  | .minus, .float f => .ok (.float (-f))
  | .minus, .double d => .ok (.double (-d))
  | .plus, v =>
    if v.isNumber then .ok v else .error (.signedOperand .plus v.typeName)
  | .minus, v => .error (.signedOperand .minus v.typeName)

/-- How two values stand to each other; `none` if a number among them is not a number. -/
def Value.order? (a b : Value) : Except Unit (Option Ordering) :=
  match a, b with
  | .str s, .str t => .ok (some (compare s t))
  | _, _ =>
    match a.asLong?, b.asLong? with
    | some x, some y => .ok (some (compare x.toInt y.toInt))
    | _, _ =>
      match a.asDouble?, b.asDouble? with
      | some x, some y =>
        .ok (if x < y then some .lt else if y < x then some .gt
          else if x == y then some .eq else none)
      | _, _ => .error ()

/-- Whether a comparison holds of two values that stand in a given order. -/
def CompareOp.holds : CompareOp → Ordering → Bool
  | eq, o => o == .eq
  | ne, o => o != .eq
  | lt, o => o == .lt
  | le, o => o != .gt
  | gt, o => o == .gt
  | ge, o => o != .lt

/-- Applies a comparison. -/
def Heap.compare (h : Heap) (op : CompareOp) (a b : Value) : Except Fault Bool :=
  match op with
  | .eq => .ok (h.looselySame a b)
  | .ne => .ok (!h.looselySame a b)
  | _ =>
    match a.order? b with
    | .error () => .error (.incomparable op a.typeName b.typeName)
    | .ok none => .ok false
    | .ok (some o) => .ok (op.holds o)

/-- The range between two values, which are integers that fit 32 bits. -/
def Value.rangeTo (a b : Value) : Except Fault Value :=
  match a.asInt?, b.asInt? with
  | some x, some y => .ok (.range ⟨x, y⟩)
  | _, _ => .error (.rangeBounds a.typeName b.typeName)

end Stencil
