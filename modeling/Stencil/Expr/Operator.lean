/-!
# Operators

The operators of the expression language that compute on values, with their spellings. The
logical operators, which decide what is evaluated, are forms of expressions of their own.
-/

namespace Stencil

/-- The binary operators on numbers. Addition also joins strings. -/
inductive ArithOp where
  | add
  | sub
  | mul
  | div
  | mod
deriving DecidableEq, Repr

/-- The spelling of an arithmetic operator. -/
def ArithOp.symbol : ArithOp → String
  | add => "+"
  | sub => "-"
  | mul => "*"
  | div => "/"
  | mod => "%"

/-- The comparisons. -/
inductive CompareOp where
  | eq
  | ne
  | lt
  | le
  | gt
  | ge
deriving DecidableEq, Repr

/-- The spelling of a comparison. -/
def CompareOp.symbol : CompareOp → String
  | eq => "=="
  | ne => "!="
  | lt => "<"
  | le => "<="
  | gt => ">"
  | ge => ">="

/-- The signs that may stand before an operand. -/
inductive Sign where
  | minus
  | plus
deriving DecidableEq, Repr

/-- The spelling of a sign. -/
def Sign.symbol : Sign → String
  | minus => "-"
  | plus => "+"

/-- The direction of `++` and `--`. -/
inductive Step where
  | up
  | down
deriving DecidableEq, Repr

/-- The spelling of a step. -/
def Step.symbol : Step → String
  | up => "++"
  | down => "--"

/-- The operator that a step applies with the operand one. -/
def Step.op : Step → ArithOp
  | up => .add
  | down => .sub

end Stencil
