import Stencil.Proofs.Expr.Grammar

/-!
# Printing expressions

`Expr.print` spells an expression, with parentheses where an operand is looser than its place asks
for. The right side of `??` gets parentheses also if it starts with a sign, since `??` takes a sign
for an operator behind it. More parentheses do no harm: `extra` picks operands that get them
although they need none.

`Expr.printable` tells which expressions have a spelling: names are names, a map has as many keys
as values, constants are those that have literals, and no sign stands in front of a number, where
it would be part of the number. Locations are not printed, and `Expr.unlocated` forgets them.

Main definitions: `Expr.print`, `Expr.printable`, `Expr.unlocated`.
-/

namespace Stencil

/-! ### Names -/

/-- Whether a word is a name. -/
def isName (word : String) : Bool :=
  match word.toList with
  | [] => false
  | c :: cs => isWordStart c && cs.all isWordChar && !(word ∈ ["true", "false", "null"])

/-- The words of a namespace. -/
def namespaceWords (space : String) : List String := (space.toList.splitOn '.').map String.ofList

/-! ### Expressions without locations -/

/-- The place that stands for no place. -/
def Location.nowhere : Location := ⟨none, 0⟩

mutual

/-- An expression with all of its locations forgotten. -/
def Expr.unlocated : Expr → Expr
  | .const v => .const v
  | .var x => .var x
  | .assign x value _ => .assign x value.unlocated .nowhere
  | .assignAt x key value _ => .assignAt x key.unlocated value.unlocated .nowhere
  | .ternary test yes no => .ternary test.unlocated yes.unlocated no.unlocated
  | .or left right => .or left.unlocated right.unlocated
  | .and left right => .and left.unlocated right.unlocated
  | .not operand => .not operand.unlocated
  | .compare op left right _ => .compare op left.unlocated right.unlocated .nowhere
  | .arith op left right _ => .arith op left.unlocated right.unlocated .nowhere
  | .quiet operand => .quiet operand.unlocated
  | .coalesce operand fallback => .coalesce operand.unlocated fallback.unlocated
  | .sign sign operand _ => .sign sign operand.unlocated .nowhere
  | .step step early x _ => .step step early x .nowhere
  | .staticField space x _ => .staticField space x .nowhere
  | .staticCall space x args _ => .staticCall space x (unlocatedAll args) .nowhere
  | .call x args _ => .call x (unlocatedAll args) .nowhere
  | .index target key _ => .index target.unlocated key.unlocated .nowhere
  | .field target x _ => .field target.unlocated x .nowhere
  | .method target x args _ => .method target.unlocated x (unlocatedAll args) .nowhere
  | .map keys values => .map keys (unlocatedAll values)
  | .list items => .list (unlocatedAll items)
  | .range first last _ => .range first.unlocated last.unlocated .nowhere

/-- Expressions with all of their locations forgotten. -/
def unlocatedAll : List Expr → List Expr
  | [] => []
  | e :: es => e.unlocated :: unlocatedAll es

end

/-! ### Printable expressions -/

/-- Whether a value is a constant that can be printed: null, a boolean, an integer or a string. -/
def Value.hasLiteral : Value → Bool
  | .null | .bool _ | .int _ | .long _ | .str _ => true
  | _ => false

/-- Whether an expression is a numeric constant. -/
def Expr.isNumber : Expr → Bool
  | .const v => v.isNumber
  | _ => false

mutual

/-- Whether an expression can be printed. -/
def Expr.printable : Expr → Bool
  | .const v => v.hasLiteral
  | .var x => isName x
  | .assign x value _ => isName x && value.printable
  | .assignAt x key value _ => isName x && key.printable && value.printable
  | .ternary test yes no => test.printable && yes.printable && no.printable
  | .or left right | .and left right | .compare _ left right _ | .arith _ left right _ =>
    left.printable && right.printable
  | .not operand | .quiet operand => operand.printable
  | .coalesce operand fallback => operand.printable && fallback.printable
  | .sign _ operand _ => operand.printable && !operand.isNumber
  | .step _ _ x _ => isName x
  | .staticField space x _ => (namespaceWords space).all isName && isName x
  | .staticCall space x args _ => (namespaceWords space).all isName && isName x && allPrintable args
  | .call x args _ => isName x && allPrintable args
  | .index target key _ => target.printable && key.printable
  | .field target x _ => target.printable && isName x
  | .method target x args _ => target.printable && isName x && allPrintable args
  | .map keys values => keys.length == values.length && allPrintable values
  | .list items => allPrintable items
  | .range first last _ => first.printable && last.printable

/-- Whether all of some expressions can be printed. -/
def allPrintable : List Expr → Bool
  | [] => true
  | e :: es => e.printable && allPrintable es

end

/-! ### Printing -/

/-- The tokens of an integer: decimal digits behind a sign if it is negative, but the smallest
integer of its width in hexadecimal digits, which spell out its bits. -/
def integerLexemes (smallest : Int) (bits : Lexeme) (decimal : Nat → Lexeme) (i : Int) :
    List Lexeme :=
  if i = smallest then [bits]
  else if i < 0 then [.punct .minus, decimal i.natAbs]
  else [decimal i.natAbs]

/-- The decimal literal of an int. -/
def intLiteral (n : Nat) : Lexeme := .number (Decimal.ofNat n) (.int (.ofNat n))

/-- The decimal literal of a long. -/
def longLiteral (n : Nat) : Lexeme := .number (Decimal.ofNat n ++ "L") (.long (.ofNat n))

/-- The literal of a value that has one. -/
def Value.lexemes : Value → List Lexeme
  | .null => [.keyword .null]
  | .bool true => [.keyword .true]
  | .bool false => [.keyword .false]
  | .int i =>
    integerLexemes Int32.minValue.toInt (.number "0x80000000" (.int .minValue)) intLiteral i.toInt
  | .long l =>
    integerLexemes Int64.minValue.toInt (.number "0x8000000000000000L" (.long .minValue))
      longLiteral l.toInt
  | .str s => [.text s]
  | _ => []

/-- The level of an integer constant; a sign makes it an operand with an operator. -/
def integerLevel (smallest i : Int) : Level :=
  if i < 0 ∧ i ≠ smallest then .unary else .primary

/-- The mark of an operator. -/
def CompareOp.mark : CompareOp → Punct
  | eq => .eq
  | ne => .ne
  | lt => .lt
  | le => .le
  | gt => .gt
  | ge => .ge

/-- The mark of an operator. -/
def ArithOp.mark : ArithOp → Punct
  | add => .plus
  | sub => .minus
  | mul => .times
  | div => .divide
  | mod => .modulo

/-- The mark of an operator. -/
def Parse.BinaryOp.mark : Parse.BinaryOp → Punct
  | or => .or
  | and => .and
  | compare op => op.mark
  | arith op => op.mark

/-- The mark of a sign. -/
def Sign.mark : Sign → Punct
  | minus => .minus
  | plus => .plus

/-- The mark of a step. -/
def Step.mark : Step → Punct
  | up => .increment
  | down => .decrement

/-- The level that an expression is spelled at without parentheses around it. -/
def Expr.level : Expr → Level
  | .const (.int i) => integerLevel Int32.minValue.toInt i.toInt
  | .const (.long l) => integerLevel Int64.minValue.toInt l.toInt
  | .const _ | .var _ | .map .. | .list .. | .range .. => .primary
  | .assign .. | .assignAt .. => .assignment
  | .ternary .. => .ternary
  | .or .. => .binary Parse.BinaryOp.or.level
  | .and .. => .binary Parse.BinaryOp.and.level
  | .compare op .. => .binary (Parse.BinaryOp.compare op).level
  | .arith op .. => .binary (Parse.BinaryOp.arith op).level
  | .quiet .. | .coalesce .. => .coalesce
  | .not .. | .sign .. | .step _ true .. => .unary
  | .step _ false .. => .postfixed
  | .staticField .. | .staticCall .. | .call .. | .index .. | .field .. | .method .. => .member

/-- Tokens in parentheses. -/
def inParens (lexemes : List Lexeme) : List Lexeme := .punct .lparen :: (lexemes ++ [.punct .rparen])

/-- The tokens of a namespace. -/
def namespaceLexemes (space : String) : List Lexeme :=
  ((namespaceWords space).map Lexeme.name).intersperse (.punct .dot)

/-- Whether tokens start with a sign. -/
def startsSigned (lexemes : List Lexeme) : Bool :=
  match lexemes with
  | lexeme :: _ => (Parse.sign? lexeme).isSome
  | [] => false

variable (extra : Expr → Bool)

/-- The tokens of an operand in a place of a level. -/
def Expr.enclose (level : Level) (e : Expr) (lexemes : List Lexeme) : List Lexeme :=
  if e.level.rank < level.rank || extra e then inParens lexemes else lexemes

/-- The tokens of the right side of `??`. -/
def Expr.encloseFallback (e : Expr) (lexemes : List Lexeme) : List Lexeme :=
  if startsSigned lexemes then inParens lexemes else e.enclose extra .unary lexemes

/-- The tokens of an operator and its operands. -/
def printBinary (op : Parse.BinaryOp) (left right : Expr) (leftLexemes rightLexemes : List Lexeme) :
    List Lexeme :=
  left.enclose extra (.binary op.level) leftLexemes ++
    .punct op.mark :: right.enclose extra (.binary (op.level + 1)) rightLexemes

mutual

/-- The tokens of an expression. -/
def Expr.print : Expr → List Lexeme
  | .const v => v.lexemes
  | .var x => [.name x]
  | .assign x value _ =>
    .name x :: .punct .assign :: value.enclose extra .assignment value.print
  | .assignAt x key value _ =>
    .name x :: .punct .lbracket :: (key.enclose extra .assignment key.print ++
      .punct .rbracket :: .punct .assign :: value.enclose extra .assignment value.print)
  | .ternary test yes no =>
    test.enclose extra (.binary 0) test.print ++
      .punct .question :: (yes.enclose extra .assignment yes.print ++
        .punct .colon :: no.enclose extra .assignment no.print)
  | .or left right => printBinary extra .or left right left.print right.print
  | .and left right => printBinary extra .and left right left.print right.print
  | .not operand => .punct .not :: operand.enclose extra .unary operand.print
  | .compare op left right _ => printBinary extra (.compare op) left right left.print right.print
  | .arith op left right _ => printBinary extra (.arith op) left right left.print right.print
  | .quiet operand => operand.enclose extra .coalesce operand.print ++ [.punct .coalesce]
  | .coalesce operand fallback =>
    operand.enclose extra .coalesce operand.print ++
      .punct .coalesce :: fallback.encloseFallback extra fallback.print
  | .sign sign operand _ => .punct sign.mark :: operand.enclose extra .unary operand.print
  | .step step true x _ => [.punct step.mark, .name x]
  | .step step false x _ => [.name x, .punct step.mark]
  | .staticField space x _ => namespaceLexemes space ++ [.punct .doubleColon, .name x]
  | .staticCall space x args _ =>
    namespaceLexemes space ++ .punct .doubleColon :: .name x :: inParens (printList args)
  | .call x args _ => .name x :: inParens (printList args)
  | .index target key _ =>
    target.enclose extra .member target.print ++
      .punct .lbracket :: (key.enclose extra .assignment key.print ++ [.punct .rbracket])
  | .field target x _ => target.enclose extra .member target.print ++ [.punct .dot, .name x]
  | .method target x args _ =>
    target.enclose extra .member target.print ++
      .punct .dot :: .name x :: inParens (printList args)
  | .map keys values => .punct .lbrace :: (printEntries keys values ++ [.punct .rbrace])
  | .list items => .punct .lbracket :: (printList items ++ [.punct .rbracket])
  | .range first last _ =>
    .punct .lbracket :: (first.enclose extra .assignment first.print ++
      .punct .range :: (last.enclose extra .assignment last.print ++ [.punct .rbracket]))

/-- The tokens of expressions with commas between them. -/
def printList : List Expr → List Lexeme
  | [] => []
  | e :: es => e.enclose extra .assignment e.print ++ printItems es

/-- The tokens of expressions with a comma in front of each. -/
def printItems : List Expr → List Lexeme
  | [] => []
  | e :: es => .punct .comma :: (e.enclose extra .assignment e.print ++ printItems es)

/-- The tokens of the entries of a map. -/
def printEntries : List String → List Expr → List Lexeme
  | key :: keys, value :: values =>
    .text key :: .punct .colon :: (value.enclose extra .assignment value.print ++
      if keys.isEmpty then [] else .punct .comma :: printEntries keys values)
  | _, _ => []

end

end Stencil
