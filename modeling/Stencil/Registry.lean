import Stencil.Engine

/-!
# Registries

An application may have several engines under names of their own. One of them is the main engine:
it can be any of them, but it cannot be removed, so that there is always one. This invariant is
the field `Registry.hasMain`.

Main definitions: `Registry`, `Registry.mainEngine`.
-/

namespace Stencil

/-- Named engines, one of which is the main engine. -/
structure Registry where
  engines : Assoc Engine
  /-- The name of the main engine. -/
  main : String
  /-- The main engine is one of the engines. -/
  hasMain : engines.contains main = true

namespace Registry

/-- The name of the engine that every registry starts with. -/
def mainName : String := "main"

/-- A registry that holds a main engine only. -/
def new : Registry where
  engines := Assoc.empty.insert mainName { name := mainName }
  main := mainName
  hasMain := (Assoc.contains_insert ..).2 (.inl rfl)

variable (r : Registry)

/-- The engine of a name. -/
def get? (name : String) : Option Engine := r.engines.get? name

/-- Stores an engine under a name. -/
def put (name : String) (engine : Engine) : Registry where
  engines := r.engines.insert name engine
  main := r.main
  hasMain := (Assoc.contains_insert ..).2 (.inr r.hasMain)

/-- Creates an engine. -/
def create (name : String) (config : Config) : Except ConfigFault (Engine × Registry) :=
  if r.engines.contains name then .error (.engineExists name)
  else
    let engine : Engine := { name, config }
    .ok (engine, r.put name engine)

/-- Removes an engine; the answer holds the engine that was removed, if there was one. -/
def remove (name : String) : Except ConfigFault (Option Engine × Registry) :=
  if h : name = r.main then .error (.mainEngineKept name)
  else
    let rest : Registry :=
      { engines := r.engines.erase name
        main := r.main
        hasMain := (Assoc.contains_erase ..).2 ⟨fun e => h e.symm, r.hasMain⟩ }
    .ok (r.get? name, rest)

/-- The main engine. -/
def mainEngine : Engine := (r.get? r.main).get ((Assoc.isSome_get?_iff ..).2 r.hasMain)

/-- Makes an engine the main engine. -/
def setMain (name : String) : Except ConfigFault Registry :=
  if h : r.engines.contains name = true then .ok ⟨r.engines, name, h⟩
  else .error (.engineNotFound name)

end Registry

end Stencil
