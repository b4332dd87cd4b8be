import Stencil.Config
import Stencil.Expr.Parse
import Stencil.Source.Files
import Stencil.Template.Lines
import Stencil.Template.Statement
import Stencil.Text.Squeeze

/-!
# Parsing templates

The items of a template are read from the first to the last. What is read so far is a stack of
blocks that are still open (`Opener`), each with the statements in front of it, and the statements
of the innermost block (`Blocks`).

* A tag that opens a block pushes it; `#end` closes the innermost block and turns it into a
  statement of the block around it; `#else`, `#elseif`, `#case` and `#default` close one part of a
  block and open the next.
* A tag that the innermost block has no use for is an error, at its own row. A block that is still
  open at the end of the text is an error at the row that opened it.
* Loops may be left or continued only from inside their bodies, and functions are defined only
  outside all blocks. Both are questions about the stack.
* An included file is parsed where its tag stands, with a stack of its own but with the same
  functions. The names of the files that are being parsed are known, so that a file that includes
  itself, directly or not, is an error.

Main definitions: `Blocks.add`, `parseItems`, `parseFile`, `compile`.
-/

namespace Stencil

/-! ### Compiled templates -/

/-- A template that has been compiled with everything it includes. -/
structure Compiled where
  body : Statement
  functions : Assoc TemplateFunction
  /-- The sources that were read, in the order of reading. -/
  sources : List Source
deriving Inhabited

/-- Whether a text that a template was compiled from has changed. -/
def Compiled.isModified (files : Files) (c : Compiled) : Bool := c.sources.any (·.isModified files)

/-- What the files of one template have in common while they are parsed. -/
structure Draft where
  functions : Assoc TemplateFunction := .empty
  sources : List Source := []
  /-- The number of the next site where a template is rendered. -/
  nextSite : Nat

/-! ### Open blocks -/

/-- A block whose end has not been read, up to its current part. The row is that of the tag that
opened the part. -/
inductive Opener where
  /-- In a branch of an `#if`, after earlier branches. -/
  | branch (row : Nat) (earlier : List (Expr × Statement)) (test : Expr)
  /-- In the `#else` of an `#if`. -/
  | otherwise (row : Nat) (branches : List (Expr × Statement))
  /-- In the body of a `#for`. -/
  | loop (row : Nat) (head : LoopHead)
  /-- In the `#else` of a `#for`. -/
  | loopOtherwise (row : Nat) (head : LoopHead) (body : Statement)
  /-- Between a `#switch` and its first case. -/
  | switch (row : Nat) (subject : Expr)
  /-- In a `#case`. -/
  | case (row : Nat) (subject : Expr) (earlier : List Case) (fallback : Option Statement)
    (values : List Expr)
  /-- In a `#default`. -/
  | default (row : Nat) (subject : Expr) (earlier : List Case)
  | define (row : Nat) (name : String) (parameters : List String)
  | custom (row : Nat) (name : String) (directive : Directive) (args : List Expr)

namespace Opener

/-- The row that an unclosed block is reported at. -/
def row : Opener → Nat
  | branch row .. | otherwise row .. | loop row .. | loopOtherwise row .. | switch row ..
  | case row .. | default row .. | define row .. | custom row .. => row

/-- The tag that error messages name. -/
def describe : Opener → String
  | branch .. => "#if"
  | otherwise .. | loopOtherwise .. => "#else"
  | loop .. => "#for"
  | switch .. | case .. | default .. => "#switch"
  | define .. => "#define"
  | custom _ name .. => "#" ++ name

/-- Whether a block is the body of a loop. -/
def isLoop : Opener → Bool
  | loop .. => true
  | _ => false

end Opener

/-- An `#if` with its branches, first one first, and what follows them. -/
def Statement.ofBranches (branches : List (Expr × Statement)) (last : Statement) : Statement :=
  branches.foldr (fun b rest => .condition b.1 b.2 rest) last

/-- What has been read of a file. -/
structure Blocks where
  /-- The open blocks, the innermost first, each with the statements in front of it, last one
  first. -/
  stack : List (Opener × List Statement) := []
  /-- The statements of the innermost block, last one first. -/
  current : List Statement := []

namespace Blocks

variable (b : Blocks)

/-- Adds a statement to the innermost block. -/
def append (s : Statement) : Blocks := { b with current := s :: b.current }

/-- Opens a block. -/
def openBlock (opener : Opener) : Blocks := ⟨(opener, b.current) :: b.stack, []⟩

/-- The statements of the innermost block as one. -/
def body : Statement := .ofList b.current.reverse

/-- Whether the innermost block is a switch without a case. -/
def awaitsCase : Bool :=
  match b.stack with
  | (.switch .., _) :: _ => true
  | _ => false

/-- Whether a loop body is open. -/
def insideLoop : Bool := b.stack.any (·.1.isLoop)

end Blocks

/-! ### Tags that end a part of a block -/

/-- A tag that ends the current part of a block. -/
inductive Divider where
  | end
  | else
  | elseif (parameters : String)
  | case (parameters : String)
  | default
deriving DecidableEq, Repr

/-- The tag that error messages name. -/
def Divider.describe : Divider → String
  | .end => "#end"
  | .else => "#else"
  | .elseif _ => "#elseif"
  | .case _ => "#case"
  | .default => "#default"

/-- The divider that a tag is. -/
def Divider.ofTag? : Tag → Option Divider
  | .directive "end" _ => some .end
  | .directive "else" _ => some .else
  | .directive "default" _ => some .default
  | .directive "elseif" (some p) => some (.elseif p)
  | .directive "case" (some p) => some (.case p)
  | _ => none

/-! ### Parsing one file -/

/-- What the parser of a file knows from outside. -/
structure Parsing where
  config : Config
  files : Files
  /-- The name of the file. -/
  file : Option String
  /-- The names of the files that are being parsed, this one included. -/
  opened : List String
  /-- Parses an included file. -/
  nested : Source → Draft → Except Error (Statement × Draft)

namespace Parsing

variable (p : Parsing)

/-- A parse error at a row. -/
def errorAt {α : Type} (row : Nat) (fault : ParseFault) : Except Error α :=
  .error (.parse ⟨fault, ⟨p.file, row⟩⟩)

/-- A parse error in words. -/
def complain {α : Type} (row : Nat) (message : String) : Except Error α :=
  p.errorAt row (.other message)

/-- The expressions of a tag. -/
def exprs (row : Nat) (parameters : String) : Except Error (List Expr) :=
  (parseExprs p.file row parameters).mapError .parse

/-- The one expression of a tag. -/
def singleExpr (row : Nat) (parameters directive : String) : Except Error Expr := do
  match ← p.exprs row parameters with
  | [e] => return e
  | [] => p.complain row (directive ++ " requires an expression")
  | several =>
    p.complain row
      (directive ++ " takes exactly one expression, found " ++ Decimal.ofNat several.length)

/-- The error for a divider that a block has no use for. -/
def misplaced {α : Type} (row : Nat) (divider : Divider) (opener : Opener) : Except Error α :=
  p.errorAt row (.unexpectedToken ("#end closing " ++ opener.describe) divider.describe)

/-- The error for what stands between a switch and its first case. -/
def notInSwitch {α : Type} (row : Nat) : Except Error α :=
  p.complain row "Only #case and #default may appear directly inside #switch"

/-! ### Dividers -/

/-- Opens a case. -/
def openCase (b : Blocks) (row : Nat) (parameters : String) (switchRow : Nat) (subject : Expr)
    (earlier : List Case) (fallback : Option Statement) (before : List Statement)
    (rest : List (Opener × List Statement)) : Except Error Blocks := do
  let values ← p.exprs row parameters
  if values.isEmpty then p.complain row "#case requires at least one value"
  else return { b with
    stack := (.case switchRow subject earlier fallback values, before) :: rest, current := [] }

/-- Ends the current part of the innermost block. -/
def divide (b : Blocks) (draft : Draft) (row : Nat) (divider : Divider) :
    Except Error (Blocks × Draft) :=
  match b.stack with
  | [] =>
    p.complain row ("Unexpected " ++ divider.describe ++ " without a matching opening directive")
  | (opener, before) :: rest =>
    let close (s : Statement) : Blocks × Draft := (⟨rest, s :: before⟩, draft)
    let reopen (o : Opener) : Blocks × Draft := (⟨(o, before) :: rest, []⟩, draft)
    match opener, divider with
    -- An `#if` without an `#else` has nothing in its place.
    | .branch _ earlier test, .end =>
      .ok (close (.ofBranches (earlier ++ [(test, b.body)]) .nothing))
    | .branch _ earlier test, .else =>
      .ok (reopen (.otherwise row (earlier ++ [(test, b.body)])))
    -- A block that is never closed is reported at the tag of its last part.
    | .branch _ earlier test, .elseif parameters => do
      let next ← p.singleExpr row parameters "#elseif"
      return reopen (.branch row (earlier ++ [(test, b.body)]) next)
    | .otherwise _ branches, .end => .ok (close (.ofBranches branches b.body))
    | .loop _ head, .end => .ok (close (.loop head b.body .nothing))
    | .loop _ head, .else => .ok (reopen (.loopOtherwise row head b.body))
    | .loopOtherwise _ head body, .end => .ok (close (.loop head body b.body))
    | .switch _ subject, .end => .ok (close (.switch subject [] .nothing))
    | .switch switchRow subject, .case parameters => do
      return (← p.openCase b row parameters switchRow subject [] none before rest, draft)
    | .switch switchRow subject, .default => .ok (reopen (.default switchRow subject []))
    -- No other divider belongs between a switch and its first case.
    | .switch .., _ => p.notInSwitch row
    | .case _ subject earlier fallback values, .end =>
      .ok (close (.switch subject (earlier ++ [.mk values b.body]) (fallback.getD .nothing)))
    | .case switchRow subject earlier fallback values, .case parameters => do
      return (← p.openCase b row parameters switchRow subject (earlier ++ [.mk values b.body])
        fallback before rest, draft)
    -- The cases may go on behind a `#default`, but a second one is refused.
    | .case switchRow subject earlier none values, .default =>
      .ok (reopen (.default switchRow subject (earlier ++ [.mk values b.body])))
    | .case _ _ _ (some _) _, .default => p.complain row "#switch has more than one #default"
    | .default _ subject earlier, .end => .ok (close (.switch subject earlier b.body))
    | .default switchRow subject earlier, .case parameters => do
      return (← p.openCase b row parameters switchRow subject earlier (some b.body) before rest,
        draft)
    | .default .., .default => p.complain row "#switch has more than one #default"
    -- A function is known from the end of its definition on.
    | .define openRow name parameters, .end =>
      let function := ⟨name, parameters, b.body, ⟨p.file, openRow⟩⟩
      .ok (⟨rest, .definition name :: before⟩,
        { draft with functions := draft.functions.insert name function })
    | .custom openRow _ directive args, .end =>
      .ok (close (.custom directive args b.body ⟨p.file, openRow⟩))
    | _, _ => p.misplaced row divider opener

/-! ### Directives -/

/-- The policy and the name of an assigning directive. -/
def policyOf? : String → Option Policy
  | "set" => some .nearest
  | "setLocal" => some .inner
  | "setGlobal" => some .root
  | _ => none

/-- The call that the expressions of a `#call` denote. -/
def callOf (row : Nat) (ifDefined : Bool) : List Expr → Except Error Statement
  | [] => p.complain row "#call requires a function name"
  -- A lone call is not evaluated: its name and its arguments are those of the function.
  | [.call name args _] => .ok (.call (.named name) args ifDefined ⟨p.file, row⟩)
  | callee :: args => .ok (.call (.computed callee) args ifDefined ⟨p.file, row⟩)

/-- The file that a tag names, and the assignments that follow. -/
def target (row : Nat) (parameters directive : String) : Except Error (String × List Expr) := do
  match ← p.exprs row parameters with
  | .const (.str name) :: assignments =>
    if assignments.all Expr.isAssignment then return (resolvePath p.file name, assignments)
    else p.complain row (directive ++ " only accepts assignments after the file name")
  | _ => p.complain row ("The first parameter of " ++ directive ++ " must be a string constant")

/-- An included file. -/
def includeFile (row : Nat) (parameters : String) (draft : Draft) :
    Except Error (Statement × Draft) := do
  let (name, assignments) ← p.target row parameters "#include"
  let source ← p.files.openSource p.config.settings.basePath name
  match source.fileName? with
  | some name =>
    if name ∈ p.opened then p.complain row ("Circular #include of " ++ name)
    else
      let (body, draft) ← p.nested source draft
      return (.inlined assignments body, draft)
  -- A source without a name is in no circle.
  | none =>
    let (body, draft) ← p.nested source draft
    return (.inlined assignments body, draft)

/-- A custom directive. -/
def customDirective (b : Blocks) (id parameters : String) (row : Nat) : Except Error Blocks :=
  match p.config.directives.get? id with
  | none => p.errorAt row (.unknownDirective id)
  | some directive => do
    let args ← p.exprs row parameters
    if directive.hasBody then return b.openBlock (.custom row id directive args)
    else return b.append (.custom directive args .nothing ⟨p.file, row⟩)

/-- Adds a directive that is no divider. -/
def directive (b : Blocks) (draft : Draft) (id parameters : String) (row : Nat) :
    Except Error (Blocks × Draft) :=
  match id with
  | "if" => do
    let test ← p.singleExpr row parameters "#if"
    return (b.openBlock (.branch row [] test), draft)
  | "for" => do
    let head ← (parseLoopHead p.file row parameters).mapError .parse
    return (b.openBlock (.loop row head), draft)
  | "switch" => do
    let subject ← p.singleExpr row parameters "#switch"
    return (b.openBlock (.switch row subject), draft)
  | "output" => do
    let value ← p.singleExpr row parameters "#()"
    return (b.append (.output value), draft)
  | "include" => do
    let (statement, draft) ← p.includeFile row parameters draft
    return (b.append statement, draft)
  | "render" => do
    let (name, assignments) ← p.target row parameters "#render"
    return (b.append (.render name assignments draft.nextSite ⟨p.file, row⟩),
      { draft with nextSite := draft.nextSite + 1 })
  | "call" => do
    let call ← p.callOf row false (← p.exprs row parameters)
    return (b.append call, draft)
  | "call?" => do
    let call ← p.callOf row true (← p.exprs row parameters)
    return (b.append call, draft)
  | "break" =>
    if b.insideLoop then .ok (b.append (.jump .break), draft)
    else p.complain row "#break must be inside a #for loop"
  | "continue" =>
    if b.insideLoop then .ok (b.append (.jump .continue), draft)
    else p.complain row "#continue must be inside a #for loop"
  | "return" => .ok (b.append (.jump .return), draft)
  | _ =>
    match policyOf? id with
    | some policy => do
      let assignments ← p.exprs row parameters
      if assignments.isEmpty || !assignments.all Expr.isAssignment then
        p.complain row ("#" ++ id ++ " only accepts assignment expressions")
      else return (b.append (.assign policy assignments), draft)
    | none => do return (← p.customDirective b id parameters row, draft)

/-- Opens the definition of a function. -/
def define (b : Blocks) (draft : Draft) (name parameters : String) (row : Nat) :
    Except Error Blocks :=
  if !b.stack.isEmpty then p.complain row ("#define " ++ name ++ " must be at the top level")
  else if draft.functions.contains name then
    p.complain row ("Template function already defined: " ++ name)
  else do
    let names ← (parseParameters p.file row parameters).mapError .parse
    return b.openBlock (.define row name names)

/-- Adds literal text, squeezed as the configuration says. -/
def literal (b : Blocks) (chars : List Char) : Blocks :=
  let chars :=
    match p.config.settings.separator with
    | some separator => Text.squeeze separator chars
    | none => chars
  if chars.isEmpty then b else b.append (.text (String.ofList chars))

/-- Adds a tag. -/
def addTag (b : Blocks) (draft : Draft) (tag : Tag) (row : Nat) :
    Except Error (Blocks × Draft) :=
  match Divider.ofTag? tag with
  | some divider => p.divide b draft row divider
  | none =>
    -- Dividers are asked for first, since a case is one.
    if b.awaitsCase then p.notInSwitch row
    else
      match tag with
      | .directive id parameters => p.directive b draft id (parameters.getD "") row
      | .call name ifDefined parameters => do
        let args ← p.exprs row parameters
        return (b.append (.call (.named name) args ifDefined ⟨p.file, row⟩), draft)
      | .define name parameters => do return (← p.define b draft name parameters row, draft)

/-- Adds an item. -/
def add (b : Blocks) (draft : Draft) : Item → Except Error (Blocks × Draft)
  | .text chars row =>
    if b.awaitsCase then
      -- Blank text may stand in front of the first case.
      if Text.allBlank chars then .ok (b, draft) else p.notInSwitch row
    else .ok (p.literal b chars, draft)
  | .tag tag row => p.addTag b draft tag row

/-- Adds all items of a file. -/
def addAll (b : Blocks) (draft : Draft) : List Item → Except Error (Blocks × Draft)
  | [] => .ok (b, draft)
  | item :: rest => do
    let (b, draft) ← p.add b draft item
    addAll b draft rest

/-- The statement that the items of a file make up. -/
def parseItems (draft : Draft) (items : List Item) : Except Error (Statement × Draft) := do
  let (b, draft) ← p.addAll {} draft items
  match b.stack with
  | [] => return (b.body, draft)
  -- The innermost block is the one that is reported.
  | (opener, _) :: _ => p.errorAt opener.row (.unexpectedEnd "#end")

end Parsing

/-! ### Files that include files -/

/-- Parses a source and the files it includes, up to a nesting depth. `opened` names the files
around it. -/
def parseFile (config : Config) (files : Files) :
    Nat → List String → Source → Draft → Except Error (Statement × Draft)
  | 0, _, source, _ =>
    .error (.parse ⟨.other ("Circular #include of " ++ source.fileName?.getD ""),
      ⟨source.fileName?, 1⟩⟩)
  | depth + 1, opened, source, draft => do
    let content ← source.content files
    let draft := { draft with sources := draft.sources ++ [source] }
    let opened := source.fileName?.toList ++ opened
    match itemsOf config.keep content.toList with
    | .error (fault, row) => .error (.parse ⟨fault, ⟨source.fileName?, row⟩⟩)
    | .ok items =>
      let parsing : Parsing :=
        { config, files, file := source.fileName?, opened
          nested := parseFile config files depth opened }
      parsing.parseItems draft items

/-- Compiles a source with everything it includes. Sites are numbered from `nextSite` on; the
next free number is part of the result. -/
def compile (config : Config) (files : Files) (source : Source) (nextSite : Nat) :
    Except Error (Compiled × Nat) := do
  let (body, draft) ← parseFile config files files.nestingBound [] source { nextSite }
  return (⟨body, draft.functions, draft.sources⟩, draft.nextSite)

end Stencil
