import Stencil.Expr.Eval
import Stencil.Render.State
import Stencil.Render.Walk

/-!
# Executing statements

A statement is executed in a frame, for what it writes and for what it leaves behind in memory.

* A block goes on until a statement leaves a **jump** pending. A loop takes up `#continue` and
  `#break`, and passes `#return` on; calls, included files and rendered files take up any jump.
* Loops, calls, included files and rendered files have a **frame of their own**. The collection of
  a loop and the arguments of a call are evaluated outside of it, the assignments of an included
  or rendered file inside.
* A loop binds its item and the variable `for`, whose value is new in every turn, so that the
  status of a turn stays as it was.
* The **functions** a template may call are its own and the shared ones. A function that is called
  sees the functions of its caller; a rendered file sees its own.

Executing takes fuel, since loops and calls need not end: one unit per level of nesting, and one
per turn of a loop.

Main definitions: `Statement.exec`, `Compiled.render`.
-/

namespace Stencil

open Render

/-! ### Expressions in statements -/

/-- The value of an expression. -/
def Config.eval (config : Config) (scope : ScopeId) (e : Expr) : Render Value :=
  ofEval (e.eval config.host scope)

/-- The values of expressions. -/
def Config.evalAll (config : Config) (scope : ScopeId) (es : List Expr) : Render (List Value) :=
  ofEval (Expr.evalAll config.host scope es)

/-- Whether an expression holds. -/
def Config.holds (config : Config) (scope : ScopeId) (e : Expr) : Render Bool := do
  let v ← config.eval scope e
  return (← heap).isTruthy v

/-- Carries out assignments under a policy. -/
def Config.assign (config : Config) (policy : Policy) (scope : ScopeId) (es : List Expr) :
    Render Unit := do
  let _ ← ofEval (Eval.withPolicy policy (Expr.evalAll config.host scope es))

/-! ### Blocks and switches -/

/-- Runs statements up to the first that leaves a jump pending. -/
def runBlock (run : Statement → Render Unit) : List Statement → Render Unit
  | [] => pure ()
  | s :: rest => do
    run s
    if (← jump) = .none then runBlock run rest else pure ()

/-- Whether one of some expressions has a given value; those behind it are not evaluated. -/
def Config.anyIs (config : Config) (scope : ScopeId) (subject : Value) : List Expr → Render Bool
  | [] => return false
  | e :: rest => do
    let v ← config.eval scope e
    if (← heap).same v subject then return true else anyIs config scope subject rest

/-- The body of the first case that stands for a value. -/
def Config.chooseCase (config : Config) (scope : ScopeId) (subject : Value)
    (otherwise : Statement) : List Case → Render Statement
  | [] => return otherwise
  | .mk values body :: rest => do
    if ← config.anyIs scope subject values then return body
    else chooseCase config scope subject otherwise rest

/-! ### Loops -/

/-- Takes up the jump that the body of a loop left pending. Answers whether the loop is over. -/
def takeLoopJump : Render Bool := do
  match ← jump with
  | .none => return false
  | .continue => do
    setJump .none
    return false
  | .break => do
    setJump .none
    return true
  -- It stays pending, for the loops and the call around this loop.
  | .return => return true

/-- The status of the loop around a frame. -/
def Config.outerStatus (config : Config) (frame : ScopeId) : Render Value := do
  match ← ofEval (Eval.lookup config.host frame "for") with
  | .status id => return .status id
  | _ => return .null

/-- Binds the variable `for` for a turn of a loop. -/
def bindStatus (frame : ScopeId) (status : LoopStatus) : Render Unit := do
  let v ← ofEval (Eval.onHeap (·.newStatus status))
  bind frame "for" v

/-- Runs the turns of a loop over a collection. Answers whether there was one. -/
def walkTurns (item : String) (frame : ScopeId) (outer : Value) (body : Render Unit) :
    Nat → Walk → Nat → Render Bool
  | 0, _, _ => throw .outOfFuel
  | fuel + 1, walk, index => do
    match ← ofEval (Eval.onHeap walk.next?) with
    | none => return 0 < index
    | some (v, walk) => do
      -- Whether this turn is the last is settled before its body runs.
      let last := !walk.hasNext (← heap)
      bind frame item v
      bindStatus frame ⟨index, .walking walk.size? last, outer⟩
      body
      if ← takeLoopJump then return true
      else walkTurns item frame outer body fuel walk (index + 1)

/-- Whether a counting loop goes on. -/
def Config.goesOn (config : Config) (frame : ScopeId) : Option Expr → Render Bool
  -- A loop without a test goes on until something leaves it.
  | none => return true
  | some test => do
    let v ← ofEval (Eval.withPolicy .inner (test.eval config.host frame))
    return (← heap).isTruthy v

/-- Runs the turns of a counting loop. Answers whether there was one. -/
def Config.countTurns (config : Config) (test : Option Expr) (update : List Expr) (frame : ScopeId)
    (outer : Value) (body : Render Unit) : Nat → Nat → Render Bool
  | 0, _ => throw .outOfFuel
  | fuel + 1, index => do
    if ← config.goesOn frame test then
      bindStatus frame ⟨index, .counting, outer⟩
      body
      -- A `#continue` goes on with the update, a `#break` skips it.
      if ← takeLoopJump then return true
      else
        config.assign .inner frame update
        countTurns config test update frame outer body fuel (index + 1)
    else return 0 < index

/-- Runs a loop in its frame, which was opened in `scope`. Answers whether its body ran. -/
def Config.runLoop (config : Config) (fuel : Nat) (head : LoopHead) (scope frame : ScopeId)
    (body : Render Unit) : Render Bool := do
  match head with
  | .each item collection => do
    -- The collection belongs to the frame around the loop.
    let v ← config.eval scope collection
    let outer ← config.outerStatus frame
    let walk ← ofEval (Eval.onHeap (Walk.ofValue v))
    walkTurns item frame outer body fuel walk 0
  | .counting start test update => do
    let outer ← config.outerStatus frame
    config.assign .inner frame start
    config.countTurns test update frame outer body fuel 0

/-! ### Calls and rendered files -/

/-- The name of the function that a call calls. -/
def Config.calleeName (config : Config) (scope : ScopeId) (location : Location) :
    Callee → Render String
  | .named name => return name
  | .computed e => do
    match ← config.eval scope e with
    | .str name => return name
    | v => raise (.calleeNotText v.typeName) location

/-- The function of a name, from those of the template or the shared ones. -/
def Config.findFunction (config : Config) (functions : Assoc TemplateFunction) (name : String) :
    Render (Option TemplateFunction) :=
  match functions.get? name with
  | some function => return some function
  | none => onLibrary fun files lib => lib.sharedFunction ⟨config, files⟩ name

/-- The arguments of a call, as many as the function has parameters. -/
def Config.arguments (config : Config) (scope : ScopeId) (function : TemplateFunction)
    (args : List Expr) (location : Location) : Render (List Value) :=
  if args.length = function.parameters.length then config.evalAll scope args
  else
    raise (.wrongArgumentCount function.name function.location function.parameters.length
      args.length) location

/-- Binds parameters in a frame. -/
def bindAll (frame : ScopeId) : List (String × Value) → Render Unit
  | [] => pure ()
  | (name, v) :: rest => do
    bind frame name v
    bindAll frame rest

/-- The error of a `#render` whose file could not be compiled: what is missing or unreadable is
reported at the `#render`, a parse error where it is. -/
def renderError (location : Location) : Error → Error
  | error@(.missingTemplate _) | error@(.io _) =>
    .template (.renderFailed error.message) location
  | error => error

/-- The template that a `#render` renders. -/
def Config.rendered (config : Config) (site : Nat) (file : String) (location : Location) :
    Render Compiled :=
  onLibrary fun files lib =>
    let (result, lib) := lib.siteTemplate ⟨config, files⟩ site file
    (result.mapError (renderError location), lib)

/-! ### Custom directives -/

/-- Runs the script of a custom directive in a frame. -/
def runScript (config : Config) (scope : ScopeId) (body : Render Unit) : Script → Render Unit
  | .stop result => ofExcept result
  -- A script is told of a failure, and goes on as it decides.
  | .writeText text next => do runScript config scope body (next (← attempt (write text)))
  | .writeValue v next => do runScript config scope body (next (← attempt (writeValue v)))
  | .renderBody next => do runScript config scope body (next (← attempt body))
  | .renderToText next => do runScript config scope body (next (← attempt (captured body)))
  | .lookup name next => do
    runScript config scope body (next (← ofEval (Eval.lookup config.host scope name)))
  | .bind name v next => do
    bind scope name v
    runScript config scope body next
  | .inspect next => do runScript config scope body (next (← heap))
  | .update change next => do
    onMemory fun m => { m with heap := change m.heap }
    runScript config scope body next

/-! ### Statements -/

/-- Executes a statement in a frame, for a template with given functions. -/
def Statement.exec (config : Config) :
    Nat → Assoc TemplateFunction → Statement → ScopeId → Render Unit
  | 0, _, _, _ => throw .outOfFuel
  | fuel + 1, functions, statement, scope =>
    match statement with
    | .nothing | .definition _ => pure ()
    | .text content => write content
    | .output value => do writeValue (← config.eval scope value)
    | .condition test yes no => do
      if ← config.holds scope test then exec config fuel functions yes scope
      else exec config fuel functions no scope
    | .loop head body otherwise =>
      inFrame scope fun frame => do
        let turn := exec config fuel functions body frame
        if ← config.runLoop fuel head scope frame turn then pure ()
        -- The `#else` runs in the frame of the loop.
        else exec config fuel functions otherwise frame
    | .switch subject cases otherwise => do
      let v ← config.eval scope subject
      let body ← config.chooseCase scope v otherwise cases
      exec config fuel functions body scope
    | .call callee args ifDefined location => do
      let name ← config.calleeName scope location callee
      match ← config.findFunction functions name with
      | some function => do
        -- Arguments are evaluated where the call stands, but the body sees only its own frame.
        let values ← config.arguments scope function args location
        confined scope fun frame => do
          bindAll frame (function.parameters.zip values)
          exec config fuel functions function.body frame
      | none => if ifDefined then pure () else raise (.undefinedFunction name) location
    | .inlined assignments body =>
      confined scope fun frame => do
        config.assign .inner frame assignments
        exec config fuel functions body frame
    | .render file assignments site location => do
      let unit ← config.rendered site file location
      confined scope fun frame => do
        config.assign .inner frame assignments
        -- From here on the functions are those of the rendered file.
        exec config fuel unit.functions unit.body frame
    | .assign policy assignments => config.assign policy scope assignments
    | .jump kind => setJump kind
    | .custom directive args body location => do
      let values ← config.evalAll scope args
      runScript config scope (exec config fuel functions body scope) (directive.run location values)
    | .block statements => runBlock (fun s => exec config fuel functions s scope) statements

/-- Renders a template: executes its body in frame `0`, then passes on what the output holds. -/
def Compiled.render (config : Config) (fuel : Nat) (unit : Compiled) : Render Unit := do
  unit.body.exec config fuel unit.functions 0
  flush

end Stencil
