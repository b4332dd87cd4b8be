import Stencil.Value.Heap

/-!
# Scopes

The variables of a render live in frames. Frame `0` holds the data of the caller; every block
that needs variables of its own pushes a frame on top and drops it again when it ends. A frame
names the frame it was opened in, and a name is looked up from a frame to the ones around it.
Names that no frame has are the shared objects of the engine, and what is missing there too is
null.

An assignment goes where the **policy** in force says (`Policy`).

Main definitions: `Scopes.get`, `Scopes.set`.
-/

namespace Stencil

/-- The number of a frame. -/
abbrev ScopeId := Nat

/-- Where an assignment writes. -/
inductive Policy where
  /-- The nearest frame that has the name already, else frame `0`. -/
  | nearest
  /-- The current frame. -/
  | inner
  /-- Frame `0`. -/
  | root
deriving DecidableEq, Repr

/-- The variables of a block. -/
structure Frame where
  /-- The frame that the block was opened in. -/
  parent : Option ScopeId
  bindings : Assoc Value

/-- The frames of a render, the outermost first. -/
structure Scopes where
  frames : Array Frame

namespace Scopes

variable (s : Scopes)

/-- The frames of a render that has just begun. -/
def ofData (data : Assoc Value) : Scopes := ⟨#[⟨none, data⟩]⟩

/-- Opens a frame. -/
def push (parent : ScopeId) : ScopeId × Scopes :=
  (s.frames.size, ⟨s.frames.push ⟨some parent, .empty⟩⟩)

/-- Drops a frame and everything above it. Frame `0` stays. -/
def pop (scope : ScopeId) : Scopes :=
  if 0 < scope then ⟨s.frames.take scope⟩ else s

/-! ### Lookup -/

/-- The first frame that has a name, on the way from a frame outwards. -/
def holder? (scope : ScopeId) (name : String) : Option ScopeId :=
  match s.frames[scope]? with
  | none => none
  | some frame =>
    if frame.bindings.contains name then some scope
    else
      match frame.parent with
      | none => none
      | some parent => if parent < scope then holder? parent name else none
termination_by scope

/-- The binding of a name as a frame sees it. -/
def binding? (scope : ScopeId) (name : String) : Option Value := do
  let holder ← s.holder? scope name
  let frame ← s.frames[holder]?
  frame.bindings.get? name

/-- The value of a name as a frame sees it. -/
def get (shared : Assoc Value) (scope : ScopeId) (name : String) : Value :=
  ((s.binding? scope name).or (shared.get? name)).getD .null

/-! ### Assignment -/

/-- Binds a name in a frame. -/
def bind (scope : ScopeId) (name : String) (value : Value) : Scopes :=
  ⟨s.frames.modify scope fun frame =>
    { frame with bindings := frame.bindings.insert name value }⟩

/-- The frame that an assignment writes to. -/
def target (scope : ScopeId) (name : String) : Policy → ScopeId
  | .nearest => (s.holder? scope name).getD 0
  | .inner => scope
  | .root => 0

/-- Assigns to a name from within a frame. -/
def set (policy : Policy) (scope : ScopeId) (name : String) (value : Value) : Scopes :=
  s.bind (s.target scope name policy) name value

end Scopes

end Stencil
