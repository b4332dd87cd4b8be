import Stencil.Render.Scope
import Stencil.Value.Method

/-!
# Memory and host

Expressions are evaluated against the **memory** of a render and the **host** that the engine was
configured with.

* The memory is the heap, the frames, and the control state: the jump that is pending, the
  assignment policy in force, and whether reads of null are forgiven.
* The host offers shared objects, shared methods, static namespaces, and the operations that its
  objects name as their methods.

An evaluation may fail; the memory is what it has become up to then. `Eval.withPolicy` and
`Eval.withNullSafe` install a piece of control state for the time of an action; both restore what
was there before, whether the action fails or not.
-/

namespace Stencil

/-- A jump that is on its way out of a block. -/
inductive Jump where
  | none
  | break
  | continue
  | return
deriving DecidableEq, Repr

/-- The control state of a render. -/
structure Control where
  jump : Jump := .none
  policy : Policy := .nearest
  nullSafe : Bool := false
deriving DecidableEq, Repr

/-- The state that expressions work on. -/
structure Memory where
  heap : Heap
  scopes : Scopes
  control : Control := {}

/-- The members of a static namespace. -/
structure StaticNamespace where
  fields : Assoc Value := .empty
  methods : Assoc Operation := .empty

/-- What the host makes available to templates. -/
structure Host where
  /-- The values that every render sees behind the data of its caller. -/
  objects : Assoc Value := .empty
  /-- The operations that are called by their name alone. -/
  methods : Assoc Operation := .empty
  namespaces : Assoc StaticNamespace := .empty
  /-- The operations that host objects name as their methods. -/
  operations : Assoc Operation := .empty

/-- An action on the memory that may fail. -/
abbrev Eval := ExceptT Error (StateM Memory)

namespace Eval

/-- The action that a function on memories describes. -/
def ofFun {α : Type} (f : Memory → Except Error α × Memory) : Eval α := f

/-- The outcome of an action. -/
def runOn {α : Type} (act : Eval α) (m : Memory) : Except Error α × Memory := act m

/-- Fails at a location. -/
def raise {α : Type} (fault : Fault) (location : Location) : Eval α :=
  throw (.template fault location)

/-- The result of a pure computation, which may fail at a location. -/
def ofExcept {α : Type} (location : Location) : Except Fault α → Eval α
  | .ok a => pure a
  | .error fault => raise fault location

/-- The heap as it is. -/
def heap : Eval Heap := return (← get).heap

/-- Changes the heap and answers with a result of the change. -/
def onHeap {α : Type} (f : Heap → α × Heap) : Eval α :=
  modifyGet fun m =>
    let (a, h) := f m.heap
    (a, { m with heap := h })

/-- The value of a variable. -/
def lookup (host : Host) (scope : ScopeId) (name : String) : Eval Value :=
  return (← get).scopes.get host.objects scope name

/-- Assigns to a variable under the policy in force. -/
def assign (scope : ScopeId) (name : String) (value : Value) : Eval Unit :=
  modify fun m => { m with scopes := m.scopes.set m.control.policy scope name value }

/-- Runs a host operation. -/
def runOperation (operation : Operation) (args : List Value) (callee : String)
    (location : Location) : Eval Value := do
  match ← onHeap (operation args) with
  | .ok v => return v
  | .error message => raise (.callFailed callee (.host message)) location

/-- Runs an action with reads of null forgiven. -/
def withNullSafe {α : Type} (act : Eval α) : Eval α := ofFun fun m =>
  let (result, after) := act.runOn { m with control := { m.control with nullSafe := true } }
  (result, { after with control := { after.control with nullSafe := m.control.nullSafe } })

/-- Runs an action under an assignment policy. -/
def withPolicy {α : Type} (policy : Policy) (act : Eval α) : Eval α := ofFun fun m =>
  let (result, after) := act.runOn { m with control := { m.control with policy } }
  (result, { after with control := { after.control with policy := m.control.policy } })

end Eval

end Stencil
