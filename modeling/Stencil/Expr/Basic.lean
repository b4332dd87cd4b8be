import Stencil.Expr.Operator
import Stencil.Location
import Stencil.Value.Arithmetic

/-!
# Expressions

The expression language of directive parameters: constants, variables and assignments, the usual
operators, null-safe defaults, calls of shared and static host methods, and reads from values by
field, index and method. Parentheses leave no trace.

A form that can fail while a template is rendered carries the location that its error names.

Main definition: `Expr`. `Expr.ofSign` puts a sign before an expression and computes with
numeric constants on the spot (`Sign.fold?`).
-/

namespace Stencil

/-- An expression. -/
inductive Expr where
  | const (value : Value)
  | var (name : String)
  /-- `name = value` -/
  | assign (name : String) (value : Expr) (location : Location)
  /-- `name[key] = value` -/
  | assignAt (name : String) (key value : Expr) (location : Location)
  /-- `test ? yes : no` -/
  | ternary (test yes no : Expr)
  | or (left right : Expr)
  | and (left right : Expr)
  | not (operand : Expr)
  | compare (op : CompareOp) (left right : Expr) (location : Location)
  | arith (op : ArithOp) (left right : Expr) (location : Location)
  /-- `operand ??`, which turns failing reads of null into null. -/
  | quiet (operand : Expr)
  /-- `operand ?? fallback` -/
  | coalesce (operand fallback : Expr)
  | sign (sign : Sign) (operand : Expr) (location : Location)
  /-- `++name` and `name++`; `early` tells whether the new value is the result. -/
  | step (step : Step) (early : Bool) (name : String) (location : Location)
  /-- `space::name` -/
  | staticField (space name : String) (location : Location)
  /-- `space::name(args)` -/
  | staticCall (space name : String) (args : List Expr) (location : Location)
  /-- `name(args)` -/
  | call (name : String) (args : List Expr) (location : Location)
  /-- `target[key]` -/
  | index (target key : Expr) (location : Location)
  /-- `target.name` -/
  | field (target : Expr) (name : String) (location : Location)
  /-- `target.name(args)` -/
  | method (target : Expr) (name : String) (args : List Expr) (location : Location)
  /-- A map literal: its keys, and as many values. -/
  | map (keys : List String) (values : List Expr)
  | list (items : List Expr)
  /-- `[first..last]` -/
  | range (first last : Expr) (location : Location)
deriving Inhabited

/-- The constant that a sign and the constant behind it make up; none if that one is no number. -/
def Sign.fold? : Sign → Value → Option Value
  | .minus, .int i => some (.int (-i))
  | .minus, .long l => some (.long (-l))
  | .minus, .float f => some (.float (-f))
  | .minus, .double d => some (.double (-d))
  | .plus, v => if v.isNumber then some v else none
  | .minus, _ => none

/-- A sign is folded into the constants that it can be put before, and gives the same value. -/
theorem Sign.fold?_eq_some_iff {s : Sign} {v w : Value} :
    s.fold? v = some w ↔ v.signed s = .ok w := by
  cases s with
  | minus => cases v <;> simp [fold?, Value.signed]
  | plus => cases v <;> simp [fold?, Value.signed, Value.isNumber]

namespace Expr

/-- Whether an expression is an assignment. -/
def isAssignment : Expr → Bool
  | assign .. | assignAt .. => true
  | _ => false

/-- Puts a sign before an expression; before a number it becomes part of the constant. -/
def ofSign (s : Sign) (operand : Expr) (location : Location) : Expr :=
  match operand with
  | const v =>
    match s.fold? v with
    | some w => const w
    | none => sign s operand location
  | _ => sign s operand location

end Expr

/-- The head of a loop. -/
inductive LoopHead where
  /-- `item : collection` -/
  | each (item : String) (collection : Expr)
  /-- `start; test; update` -/
  | counting (start : List Expr) (test : Option Expr) (update : List Expr)
deriving Inhabited

end Stencil
