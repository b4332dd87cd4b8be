import Stencil.Render.Library
import Stencil.Render.Output

/-!
# Actions of a render

A render works on its memory, on the output, on the library of its engine and on the files. An
action of a render may stop: with an error, which a custom directive around it may catch, because
the fuel that bounds the render is used up, or because it waits for itself; nothing catches these.

The files change only by what the render itself writes: a render to a file that reads this very file
finds in it what the buffer has let through so far.

* `Render.inFrame` opens a frame for the time of an action and drops it again, whether the action
  stops or not.
* `Render.confined` does the same for a body that a jump may leave but not pass: no jump is
  pending behind it, whether it stops or not.
* `Render.captured` lends an action an output of its own.

Main definitions: `RenderState`, `Stop`, `Render`.
-/

namespace Stencil

/-- What a render works on. -/
structure RenderState where
  memory : Memory
  output : Output
  library : Library
  files : Files

/-- Why a render stops before its end. -/
inductive Stop where
  | outOfFuel
  /-- It waits for a lock that it holds itself, and goes no further. -/
  | blocked
  | error (error : Error)
deriving DecidableEq, Repr

/-- Why a render stops in which an evaluation ends in an error. -/
def Stop.ofError (error : Error) : Stop := if error.waits then .blocked else .error error

/-- An action of a render. -/
abbrev Render := ExceptT Stop (StateM RenderState)

namespace Render

variable {α : Type}

/-- The action that a function on states describes. -/
def ofFun (f : RenderState → Except Stop α × RenderState) : Render α := f

/-- The outcome of an action. -/
def runOn (act : Render α) (st : RenderState) : Except Stop α × RenderState := act st

/-- Stops with an error. -/
def fail (error : Error) : Render α := throw (.error error)

/-- Stops with an error at a location. -/
def raise (fault : Fault) (location : Location) : Render α := fail (.template fault location)

/-- The result of a pure computation. -/
def ofExcept : Except Error α → Render α
  | .ok a => pure a
  | .error error => fail error

/-- Evaluates an expression, or anything else on the memory alone. -/
def ofEval (act : Eval α) : Render α := ofFun fun st =>
  let (result, memory) := act.runOn st.memory
  (result.mapError .ofError, { st with memory })

/-- Runs an action on the library, with the files as they are now. -/
def onLibrary (f : Files → Library → Except Error α × Library) : Render α := ofFun fun st =>
  let (result, library) := f st.files st.library
  (result.mapError .error, { st with library })

/-- Catches an error; what an action did before it stays done. -/
def attempt (act : Render α) : Render (Except Error α) := ofFun fun st =>
  match act.runOn st with
  | (.ok a, after) => (.ok (.ok a), after)
  | (.error (.error error), after) => (.ok (.error error), after)
  | (.error .outOfFuel, after) => (.error .outOfFuel, after)
  | (.error .blocked, after) => (.error .blocked, after)

/-! ### Memory -/

/-- Changes the memory. -/
def onMemory (f : Memory → Memory) : Render Unit :=
  modify fun st => { st with memory := f st.memory }

/-- The heap as it is. -/
def heap : Render Heap := return (← get).memory.heap

/-- Binds a variable in a frame. -/
def bind (scope : ScopeId) (name : String) (value : Value) : Render Unit :=
  onMemory fun m => { m with scopes := m.scopes.bind scope name value }

/-- The jump that is pending. -/
def jump : Render Jump := return (← get).memory.control.jump

/-- Sets the pending jump. -/
def setJump (jump : Jump) : Render Unit :=
  onMemory fun m => { m with control := { m.control with jump } }

/-- Runs an action in a frame of its own. -/
def inFrame (parent : ScopeId) (act : ScopeId → Render α) : Render α := ofFun fun st =>
  let (frame, scopes) := st.memory.scopes.push parent
  let (result, after) := (act frame).runOn { st with memory := { st.memory with scopes } }
  (result, { after with memory := { after.memory with scopes := after.memory.scopes.pop frame } })

/-- Runs an action in a frame of its own that jumps do not leave. -/
def confined (parent : ScopeId) (act : ScopeId → Render α) : Render α := ofFun fun st =>
  let (result, after) := (inFrame parent act).runOn st
  (result, ((setJump .none).runOn after).2)

/-! ### Output -/

/-- The files after the output has changed: a file that took chunks has them on disk. -/
def saved (before after : Output) (files : Files) : Files :=
  match after with
  | .file path _ =>
    if before.chunkCount = after.chunkCount then files
    else { files with disk := (files.disk.write path after.received).getD files.disk }
  | .text _ | .bytes _ => files

/-- Does something to the output. -/
def onOutput (f : Output → Except IoFault Unit × Output) : Render Unit := ofFun fun st =>
  let (result, output) := f st.output
  (result.mapError fun fault => .error (.io fault),
    { st with output, files := saved st.output output st.files })

/-- Writes a text. -/
def write (text : String) : Render Unit := onOutput (·.write text)

/-- Writes a value as output directives do. -/
def writeValue (v : Value) : Render Unit := do
  let h ← heap
  onOutput (·.writeValue h v)

/-- Passes on what the output holds back. -/
def flush : Render Unit := onOutput (·.flush)

/-- Runs an action that writes into a string. -/
def captured (act : Render Unit) : Render String := ofFun fun st =>
  let (result, after) := act.runOn { st with output := .unlimited }
  (result.map fun _ => after.output.received, { after with output := st.output })

end Render

end Stencil
