import Stencil.Expr.Basic
import Stencil.Expr.Scan

/-!
# Parsing expressions

The grammar, from the loosest to the tightest binding:

* assignment, and the ternary operator below it, both right associative;
* six levels of binary operators (`BinaryOp.level`), left associative: `||`, `&&`, equality,
  order, sums, products;
* `??`, whose right side may be left out;
* signs, `!`, and `++`/`--` before a variable; then `++`/`--` after one;
* static members and calls of shared methods;
* a primary expression; the last two may be followed by a chain of fields, indexes and method
  calls.

A parser works on the tokens that are left. It reports faults at the row of the next token, or at
the last row of the text when no token is left. `name[key]` is read twice: first as the target of
an assignment, and from the start again if no `=` follows.

Every function takes a bound on the depth of its recursion. `parseWith` gives one that grows with
the number of tokens and is never reached, since between two functions that call each other
without taking a token there are at most fifteen.

Main definitions: `parseExprs`, `parseLoopHead`, `parseParameters`.
-/

namespace Stencil

/-- Where the tokens of a directive come from: the file, and the row where its text ends. -/
structure Origin where
  file : Option String
  lastRow : Nat

/-- A parser reads tokens from the front of a list. -/
abbrev Parse := ReaderT Origin (StateT (List Token) (Except ParseError))

namespace Parse

/-! ### Single tokens -/

/-- The next token. -/
def peek : Parse (Option Lexeme) := do
  return (← get).head?.map Token.lexeme

/-- The location of the next token. -/
def here : Parse Location := do
  let origin ← read
  match ← get with
  | [] => return ⟨origin.file, origin.lastRow⟩
  | token :: _ => return ⟨origin.file, token.row⟩

/-- Drops the next token. -/
def drop : Parse Unit := modify List.tail

/-- Fails at the next token. -/
def fail {α : Type} (fault : ParseFault) : Parse α := do
  throw ⟨fault, ← here⟩

/-- Fails because the next token is not what was expected. -/
def unexpected {α : Type} (expected : String) : Parse α := do
  match ← peek with
  | none => fail (.unexpectedEnd expected)
  | some lexeme => fail (.unexpectedToken expected lexeme.describe)

/-- Whether the next token is a mark. -/
def nextIs (mark : Punct) : Parse Bool := do
  match ← peek with
  | some (.punct p) => return p == mark
  | _ => return false

/-- Takes a mark, if it is next. -/
def skip (mark : Punct) : Parse Bool := do
  if ← nextIs mark then
    drop
    return true
  else return false

/-- Takes a mark. -/
def expect (mark : Punct) : Parse Unit := do
  unless ← skip mark do unexpected mark.describe

/-- Takes a name. -/
def name : Parse String := do
  match ← peek with
  | some (.name word) =>
    drop
    return word
  | _ => unexpected "identifier"

/-- Checks that no token is left. -/
def finish : Parse Unit := do
  if (← peek).isSome then unexpected "end of expression"

/-! ### Operators -/

/-- The binary operators, apart from `??`. -/
inductive BinaryOp where
  | or
  | and
  | compare (op : CompareOp)
  | arith (op : ArithOp)
deriving DecidableEq, Repr

/-- How tightly an operator binds; a higher level binds tighter. -/
def BinaryOp.level : BinaryOp → Nat
  | or => 0
  | and => 1
  | compare .eq | compare .ne => 2
  | compare _ => 3
  | arith .add | arith .sub => 4
  | arith _ => 5

/-- The number of levels of binary operators. -/
def levels : Nat := 6

/-- The operator that a mark stands for between two operands. -/
def BinaryOp.ofPunct? : Punct → Option BinaryOp
  | .or => some .or
  | .and => some .and
  | .eq => some (.compare .eq)
  | .ne => some (.compare .ne)
  | .lt => some (.compare .lt)
  | .le => some (.compare .le)
  | .gt => some (.compare .gt)
  | .ge => some (.compare .ge)
  | .plus => some (.arith .add)
  | .minus => some (.arith .sub)
  | .times => some (.arith .mul)
  | .divide => some (.arith .div)
  | .modulo => some (.arith .mod)
  | _ => none

/-- The expression that an operator at a location builds. -/
def BinaryOp.build (op : BinaryOp) (left right : Expr) (location : Location) : Expr :=
  match op with
  | or => .or left right
  | and => .and left right
  | compare op => .compare op left right location
  | arith op => .arith op left right location

/-- The operator of a level at the front of the tokens. -/
def operator? (level : Nat) (tokens : List Token) : Option BinaryOp :=
  match tokens with
  | ⟨.punct mark, _⟩ :: _ => (BinaryOp.ofPunct? mark).filter (·.level == level)
  | _ => none

/-- The sign that a token is. -/
def sign? : Lexeme → Option Sign
  | .punct .minus => some .minus
  | .punct .plus => some .plus
  | _ => none

/-- The step that a token is. -/
def step? : Lexeme → Option Step
  | .punct .increment => some .up
  | .punct .decrement => some .down
  | _ => none

/-! ### Look-ahead -/

/-- The namespace `a.b.c` in front of a `::`, with the tokens from the `::` on. -/
def namespace? : List Token → Option (String × List Token)
  | ⟨.name word, _⟩ :: ⟨.punct .doubleColon, row⟩ :: rest =>
    some (word, ⟨.punct .doubleColon, row⟩ :: rest)
  | ⟨.name word, _⟩ :: ⟨.punct .dot, _⟩ :: rest =>
    (namespace? rest).map fun (space, rest) => (word ++ "." ++ space, rest)
  | _ => none

/-- The text of a map key that a token spells. -/
def mapKey? : Lexeme → Option String
  | .name word => some word
  | .text content => some content
  | .keyword k => some k.spelling
  | .number _ v => some (Heap.text {} v)
  | .punct _ => none

/-! ### Expressions -/

mutual

/-- An assignment, or anything that binds tighter. -/
def expr : Nat → Parse Expr
  | 0 => unexpected "expression"
  | n + 1 => do
    let start ← get
    let location ← here
    match start with
    | ⟨.name x, _⟩ :: ⟨.punct .assign, _⟩ :: rest =>
      set rest
      return .assign x (← expr n) location
    | ⟨.name x, _⟩ :: ⟨.punct .lbracket, _⟩ :: rest =>
      set rest
      let key ← expr n
      expect .rbracket
      if ← skip .assign then
        return .assignAt x key (← expr n) location
      else
        -- No target of an assignment: the same tokens begin an operand.
        set start
        ternary n
    | _ => ternary n

/-- The ternary operator. -/
def ternary : Nat → Parse Expr
  | 0 => unexpected "expression"
  | n + 1 => do
    let test ← binary n 0
    if ← skip .question then
      let yes ← expr n
      expect .colon
      let no ← expr n
      return .ternary test yes no
    else return test

/-- The binary operators of a level and above. -/
def binary : Nat → Nat → Parse Expr
  | 0, _ => unexpected "expression"
  | n + 1, level => do
    -- From the loosest level to the tightest, and then on to `??`.
    if level < levels then
      let left ← binary n (level + 1)
      binaryRest n level left
    else coalesce n

/-- The operators of a level that follow a left operand. -/
def binaryRest : Nat → Nat → Expr → Parse Expr
  | 0, _, left => return left
  | n + 1, level, left => do
    match operator? level (← get) with
    | some op =>
      let location ← here
      drop
      let right ← binary n (level + 1)
      -- Operators of one level group to the left.
      binaryRest n level (op.build left right location)
    | none => return left

/-- Operands with their defaults. -/
def coalesce : Nat → Parse Expr
  | 0 => unexpected "expression"
  | n + 1 => do
    let left ← unary n
    coalesceRest n left

/-- The `??` that follow a left operand. -/
def coalesceRest : Nat → Expr → Parse Expr
  | 0, left => return left
  | n + 1, left => do
    if ← skip .coalesce then
      match ← peek with
      | some lexeme =>
        -- Without an operand behind it, `??` only silences what is in front of it.
        if lexeme.startsOperand then
          let right ← unary n
          coalesceRest n (.coalesce left right)
        else coalesceRest n (.quiet left)
      | none => coalesceRest n (.quiet left)
    else return left

/-- An operand with the operators before it. -/
def unary : Nat → Parse Expr
  | 0 => unexpected "expression"
  | n + 1 => do
    let location ← here
    match ← peek with
    | some (.punct .not) =>
      drop
      return .not (← unary n)
    | some lexeme =>
      match sign? lexeme, step? lexeme with
      | some sign, _ =>
        drop
        -- The sign of a constant is folded into it.
        return .ofSign sign (← unary n) location
      | none, some step =>
        drop
        match ← peek with
        | some (.name x) =>
          drop
          return .step step true x location
        | _ => fail (.missing ("a variable after " ++ lexeme.describe))
      | none, none => postfixed n
    | none => postfixed n

/-- An operand with `++` or `--` after it. -/
def postfixed : Nat → Parse Expr
  | 0 => unexpected "expression"
  | n + 1 => do
    let location ← here
    let operand ← member n
    match ← peek with
    | some lexeme =>
      match step? lexeme with
      | some step =>
        match operand with
        | .var x =>
          drop
          return .step step false x location
        | _ => fail (.missing ("a variable before " ++ lexeme.describe))
      | none => return operand
    | none => return operand

/-- A static member, a call or a primary expression, with its chain. -/
def member : Nat → Parse Expr
  | 0 => unexpected "expression"
  | n + 1 => do
    let location ← here
    let tokens ← get
    match namespace? tokens with
    -- A `::` makes a namespace of the names in front of it.
    | some (space, rest) =>
      set rest
      expect .doubleColon
      let x ← name
      if ← nextIs .lparen then
        chain n (.staticCall space x (← arguments n) location)
      else chain n (.staticField space x location)
    | none =>
      match tokens with
      | ⟨.name x, _⟩ :: ⟨.punct .lparen, _⟩ :: _ =>
        drop
        chain n (.call x (← arguments n) location)
      | _ =>
        let target ← primary n
        chain n target

/-- The fields, indexes and method calls that follow an operand. -/
def chain : Nat → Expr → Parse Expr
  | 0, target => return target
  | n + 1, target => do
    let location ← here
    if ← skip .dot then
      let x ← name
      if ← nextIs .lparen then
        chain n (.method target x (← arguments n) location)
      else chain n (.field target x location)
    else if ← skip .lbracket then
      let key ← expr n
      expect .rbracket
      chain n (.index target key location)
    else return target

/-- The arguments of a call, in parentheses. -/
def arguments : Nat → Parse (List Expr)
  | 0 => unexpected "expression"
  | n + 1 => do
    expect .lparen
    let args ← exprsBefore n (some .rparen)
    expect .rparen
    return args

/-- Expressions with commas between them, up to a mark or the end of the text. -/
def exprsBefore : Nat → Option Punct → Parse (List Expr)
  | 0, _ => unexpected "expression"
  | n + 1, closing => do
    let closed ←
      match closing with
      | some mark => nextIs mark
      -- Without a mark to close them, the expressions go up to the end of the text.
      | none => do pure (← peek).isNone
    if closed then return []
    else exprs n

/-- One or more expressions with commas between them. -/
def exprs : Nat → Parse (List Expr)
  | 0 => unexpected "expression"
  | n + 1 => do
    let first ← expr n
    if ← skip .comma then
      return first :: (← exprs n)
    else return [first]

/-- Constants, variables, parentheses and literals. -/
def primary : Nat → Parse Expr
  | 0 => unexpected "expression"
  | n + 1 => do
    let location ← here
    match ← peek with
    | some (.number _ v) =>
      drop
      return .const v
    | some (.text content) =>
      drop
      return .const (.str content)
    | some (.keyword k) =>
      drop
      return .const k.value
    | some (.name x) =>
      drop
      return .var x
    | some (.punct .lparen) =>
      drop
      let inner ← expr n
      expect .rparen
      return inner
    | some (.punct .lbrace) =>
      drop
      if ← skip .rbrace then return .map [] []
      else
        let (keys, values) ← entries n
        expect .rbrace
        return .map keys values
    | some (.punct .lbracket) =>
      drop
      if ← skip .rbracket then return .list []
      else
        -- What stands behind the first item tells a list from a range.
        let first ← expr n
        if ← skip .range then
          let last ← expr n
          expect .rbracket
          return .range first last location
        else
          let rest ← moreItems n
          expect .rbracket
          return .list (first :: rest)
    | _ => unexpected "expression"

/-- The items of a list after the first one. -/
def moreItems : Nat → Parse (List Expr)
  | 0 => return []
  | n + 1 => do
    if ← skip .comma then
      let item ← expr n
      return item :: (← moreItems n)
    else return []

/-- The entries of a map that is not empty. -/
def entries : Nat → Parse (List String × List Expr)
  | 0 => unexpected "expression"
  | n + 1 => do
    match ← peek with
    | none => fail (.unexpectedEnd "\x7d")
    | some lexeme =>
      drop
      match mapKey? lexeme with
      | none => fail (.illegalMapKey lexeme.describe)
      | some key =>
        -- A key that goes on, such as `a.b` or `f(x)`, is reported as a key.
        if let some next ← peek then
          if next.continues then
            fail (.illegalMapKey (lexeme.spelling ++ " " ++ next.spelling ++ " ..."))
        expect .colon
        let value ← expr n
        if ← skip .comma then
          let (keys, values) ← entries n
          return (key :: keys, value :: values)
        else return ([key], [value])

end

/-! ### Whole parameter texts -/

/-- The head of a loop: `item : collection`, or `start; test; update` in which every part may be
left out. -/
def loopHead (n : Nat) : Parse LoopHead := do
  match ← get with
  | ⟨.name item, _⟩ :: ⟨.punct .colon, _⟩ :: rest =>
    set rest
    let collection ← expr n
    finish
    return .each item collection
  | _ =>
    let start ← exprsBefore n (some .semicolon)
    expect .semicolon
    let test ← do
      if ← nextIs .semicolon then pure none else some <$> expr n
    expect .semicolon
    let update ← exprsBefore n none
    finish
    return .counting start test update

/-- The parameter names of a function, each different from the ones before. -/
def parameterNames : Nat → List String → Parse (List String)
  | 0, _ => unexpected "identifier"
  | n + 1, earlier => do
    let x ← name
    if x ∈ earlier then fail (.other ("Duplicate parameter name '" ++ x ++ "'"))
    if ← skip .comma then
      return x :: (← parameterNames n (x :: earlier))
    else return [x]

/-- The parameters of a function. -/
def parameters (n : Nat) : Parse (List String) := do
  if (← peek).isNone then return []
  else
    let names ← parameterNames n []
    finish
    return names

/-- All expressions of a text. -/
def wholeList (n : Nat) : Parse (List Expr) := do
  let list ← exprsBefore n none
  finish
  return list

end Parse

/-- Runs a parser on the tokens of a text that starts in a row of a file. -/
def parseWith {α : Type} (parser : Nat → Parse α) (file : Option String) (row : Nat)
    (text : String) : Except ParseError α :=
  match scanTokens row text.toList with
  | .error (fault, row) => .error ⟨fault, ⟨file, row⟩⟩
  | .ok (tokens, lastRow) =>
    match (parser (16 * (tokens.length + 2))).run ⟨file, lastRow⟩ |>.run tokens with
    | .error error => .error error
    | .ok (result, _) => .ok result

/-- The expressions of a directive, with commas between them. -/
def parseExprs := parseWith Parse.wholeList

/-- The head of a loop. -/
def parseLoopHead := parseWith Parse.loopHead

/-- The parameter names of a template function. -/
def parseParameters := parseWith Parse.parameters

end Stencil
