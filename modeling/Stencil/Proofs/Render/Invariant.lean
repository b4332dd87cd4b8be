import Mathlib.Tactic.Choose
import Stencil.Proofs.Render.Composition

/-!
# What runs keep

A run touches the output and the library in few places, and everything else it does concerns its
memory. So a property of outputs that a piece and a flush keep, and a property of libraries that
the lookup of a shared function and of a site keep, hold after every run of every statement if they
held before it: whether the run ends, stops with an error or runs out of fuel, and whatever custom
directives do on the way.

* `Local` actions work on the memory alone. Expressions, assignments, jumps and frames are of this
  kind, and nothing has to be shown for them one by one.
* A body that is rendered into a string writes to an output of its own. What is kept of the output
  around it is kept because it is put back.

Main definitions: `Local`, `OutputInvariant`, `LibraryInvariant`, `Maintains`.
Main statement: `Statement.exec_maintains`.
-/

namespace Stencil

open Render

variable {α β : Type}

/-! ### Running -/

/-- An action goes on with the result of the one before it, if there is one. -/
theorem Render.runOn_bind (x : Render α) (f : α → Render β) (st : RenderState) :
    (x >>= f).runOn st =
      match x.runOn st with
      | (.ok a, after) => (f a).runOn after
      | (.error stop, after) => (.error stop, after) := by
  change (match x st with | (result, after) => ExceptT.bindCont f result after) = _
  change _ = match x st with
    | (.ok a, after) => (f a) after
    | (.error stop, after) => (.error stop, after)
  rcases x st with ⟨_ | _, _⟩ <;> rfl

/-- What an attempt makes of the end of an action. -/
theorem Render.runOn_attempt (act : Render α) (st : RenderState) :
    (attempt act).runOn st =
      match act.runOn st with
      | (.ok a, after) => (.ok (.ok a), after)
      | (.error (.error error), after) => (.ok (.error error), after)
      | (.error .outOfFuel, after) => (.error .outOfFuel, after)
      | (.error .blocked, after) => (.error .blocked, after) := rfl

/-! ### Actions on the memory alone -/

/-- An action that reads and changes nothing but the memory. -/
def Local (act : Render α) : Prop :=
  ∃ f : Memory → Except Stop α × Memory,
    ∀ st, act.runOn st = ((f st.memory).1, { st with memory := (f st.memory).2 })

namespace Local

theorem pure (a : α) : Local (pure a : Render α) := ⟨fun m => (.ok a, m), fun _ => rfl⟩

theorem throw (stop : Stop) : Local (throw stop : Render α) :=
  ⟨fun m => (.error stop, m), fun _ => rfl⟩

/-- Local actions go on with local actions. -/
theorem bind {x : Render α} {f : α → Render β} (hx : Local x) (hf : ∀ a, Local (f a)) :
    Local (x >>= f) := by
  obtain ⟨g, hg⟩ := hx
  choose k hk using hf
  refine ⟨fun m => match g m with
    | (.ok a, m) => k a m
    | (.error stop, m) => (.error stop, m), fun st => ?_⟩
  rw [runOn_bind, hg]
  dsimp only
  rcases hgm : g st.memory with ⟨_ | a, m⟩
  -- what has failed goes on with nothing
  · rfl
  · exact hk a { st with memory := m }

/-- An evaluation is local. -/
theorem ofEval (act : Eval α) : Local (ofEval act) :=
  ⟨fun m => ((act.runOn m).1.mapError .ofError, (act.runOn m).2), fun _ => rfl⟩

theorem onMemory (f : Memory → Memory) : Local (onMemory f) :=
  ⟨fun m => (.ok (), f m), fun _ => rfl⟩

theorem heap : Local heap := ⟨fun m => (.ok m.heap, m), fun _ => rfl⟩

theorem jump : Local jump := ⟨fun m => (.ok m.control.jump, m), fun _ => rfl⟩

theorem setJump (kind : Jump) : Local (setJump kind) := .onMemory _

/-- So is a result that may be an error. -/
theorem ofExcept (result : Except Error α) : Local (ofExcept result) := by
  cases result with
  | ok a => exact .pure a
  | error error => exact .throw _

/-! Everything that statements do with expressions and frames is local. -/

variable (config : Config) (scope frame : ScopeId)

theorem eval (e : Expr) : Local (config.eval scope e) := .ofEval _

theorem evalAll (es : List Expr) : Local (config.evalAll scope es) := .ofEval _

/-- A test is local. -/
theorem holds (e : Expr) : Local (config.holds scope e) :=
  .bind (.eval config scope e) fun _ => .bind .heap fun _ => .pure _

theorem assign (policy : Policy) (es : List Expr) : Local (config.assign policy scope es) :=
  .bind (.ofEval _) fun _ => .pure _

/-- So is the search for an equal value. -/
theorem anyIs (subject : Value) (es : List Expr) : Local (config.anyIs scope subject es) := by
  induction es with
  | nil => exact .pure _
  | cons e rest ih =>
    refine .bind (.eval config scope e) fun v => .bind .heap fun h => ?_
    split
    · exact .pure _
    · exact ih

/-- A loop takes up a jump locally. -/
theorem takeLoopJump : Local takeLoopJump := by
  refine .bind .jump fun kind => ?_
  cases kind with
  | none => exact .pure _
  | «continue» => exact .bind (.onMemory _) fun _ => .pure _
  | «break» => exact .bind (.onMemory _) fun _ => .pure _
  | «return» => exact .pure _

/-- The status of the loop around is read locally. -/
theorem outerStatus : Local (config.outerStatus frame) := by
  refine .bind (.ofEval _) fun v => ?_
  split <;> exact .pure _

theorem bindStatus (status : LoopStatus) : Local (bindStatus frame status) :=
  .bind (.ofEval _) fun _ => .onMemory _

/-- Whether a loop goes on is found out locally. -/
theorem goesOn (test : Option Expr) : Local (config.goesOn frame test) := by
  cases test with
  | none => exact .pure _
  | some e => exact .bind (.ofEval _) fun _ => .bind .heap fun _ => .pure _

/-- The name of a callee is local. -/
theorem calleeName (location : Location) (callee : Callee) :
    Local (config.calleeName scope location callee) := by
  cases callee with
  | named name => exact .pure _
  | computed e =>
    refine .bind (.eval config scope e) fun v => ?_
    split
    · exact .pure _
    · exact .throw _

/-- So are the arguments of a call. -/
theorem arguments (function : TemplateFunction) (args : List Expr) (location : Location) :
    Local (config.arguments scope function args location) := by
  unfold Config.arguments
  split
  · exact .evalAll config scope args
  · exact .throw _

/-- So are the bindings of parameters. -/
theorem bindAll (pairs : List (String × Value)) : Local (bindAll frame pairs) := by
  induction pairs with
  | nil => exact .pure _
  | cons pair rest ih => exact .bind (.onMemory _) fun _ => ih

end Local

/-! ### Invariants -/

/-- A property of outputs that survives a piece and a flush, and under which what an output leaves
on disk keeps a property of the files. -/
structure OutputInvariant (files : Files → Prop) where
  holds : Output → Prop
  write : ∀ {out} piece, holds out → holds (out.write piece).2
  flush : ∀ {out}, holds out → holds out.flush.2
  saved : ∀ {before after f}, holds before → holds after → files f →
    files (saved before after f)

namespace OutputInvariant

variable {files : Files → Prop}

/-- What is kept by writing texts is kept by writing values. -/
theorem writeValue (O : OutputInvariant files) {out : Output} (h : Heap) (v : Value)
    (hout : O.holds out) : O.holds (out.writeValue h v).2 := by
  unfold Output.writeValue
  split
  · exact hout
  · exact O.write _ hout

/-- Any output may become of any other, among files that what is written does not lead out of. -/
def any (h : ∀ before after {f}, files f → files (Render.saved before after f)) :
    OutputInvariant files :=
  ⟨fun _ => True, fun _ _ => ⟨⟩, fun _ => ⟨⟩, fun _ _ hf => h _ _ hf⟩

/-- Being a text sink. -/
def text (files : Files → Prop) : OutputInvariant files where
  holds out := ∃ sink, out = .text sink
  write := by
    rintro _ piece ⟨sink, rfl⟩
    exact ⟨_, rfl⟩
  flush := by
    rintro _ ⟨sink, rfl⟩
    exact ⟨_, rfl⟩
  saved := by
    rintro _ _ f _ ⟨sink, rfl⟩ hf
    exact hf

end OutputInvariant

/-- An output whose text lies in a file on disk. -/
def Output.OnDisk : Output → Prop
  | .file .. => True
  | .text _ | .bytes _ => False

/-- An output that is no file leaves the files alone. -/
theorem saved_of_not_onDisk {before after : Output} (h : ¬ after.OnDisk) (f : Files) :
    saved before after f = f := by
  cases after with
  | file path sink => exact absurd ⟨⟩ h
  | text sink => rfl
  | bytes sink => rfl

/-- Being no file. -/
def OutputInvariant.offDisk (files : Files → Prop) : OutputInvariant files where
  holds out := ¬ out.OnDisk
  write {out} piece h := by
    cases out with
    | file path sink => exact absurd ⟨⟩ h
    | text sink => exact id
    | bytes sink => exact id
  flush {out} h := by
    cases out with
    | file path sink => exact absurd ⟨⟩ h
    | text sink => exact id
    | bytes sink => exact id
  saved _ hafter hf := by rwa [saved_of_not_onDisk hafter]

/-- A property of libraries that survives the lookup of a shared function and of a site, among
files of some kind. -/
structure LibraryInvariant (config : Config) where
  files : Files → Prop
  holds : Library → Prop
  sharedFunction : ∀ {f lib} name, files f → holds lib →
    holds (lib.sharedFunction ⟨config, f⟩ name).2
  siteTemplate : ∀ {f lib} site file, files f → holds lib →
    holds (lib.siteTemplate ⟨config, f⟩ site file).2

/-- The property that all libraries have, among any files. -/
def LibraryInvariant.trivial (config : Config) : LibraryInvariant config :=
  ⟨fun _ => True, fun _ => True, fun _ _ _ => ⟨⟩, fun _ _ _ _ => ⟨⟩⟩

section Maintains

variable {config : Config} (L : LibraryInvariant config)

/-- The invariants hold in a state. -/
structure Held (O : OutputInvariant L.files) (st : RenderState) : Prop where
  files : L.files st.files
  library : L.holds st.library
  output : O.holds st.output

/-- An action keeps an invariant of libraries, and every invariant of outputs beside it. -/
def Maintains (act : Render α) : Prop :=
  ∀ (O : OutputInvariant L.files) (st : RenderState), Held L O st → Held L O (act.runOn st).2

namespace Maintains

variable {L}

/-- A local action keeps everything. -/
theorem of_local {act : Render α} (h : Local act) : Maintains L act := by
  obtain ⟨f, hf⟩ := h
  intro O st hst
  rw [hf]
  exact ⟨hst.files, hst.library, hst.output⟩

/-- What two actions keep, they keep one behind the other. -/
theorem bind {x : Render α} {f : α → Render β} (hx : Maintains L x) (hf : ∀ a, Maintains L (f a)) :
    Maintains L (x >>= f) := by
  intro O st hst
  rw [runOn_bind]
  have hafter := hx O st hst
  rcases hrun : x.runOn st with ⟨_ | a, after⟩
  -- what has stopped keeps it by itself
  · rw [hrun] at hafter
    exact hafter
  · rw [hrun] at hafter
    exact hf a O after hafter

/-- An action keeps what the same action keeps whose result is read off in another way. -/
theorem of_state_eq {x : Render α} {y : Render β} (hx : Maintains L x)
    (h : ∀ st, (y.runOn st).2 = (x.runOn st).2) : Maintains L y := by
  intro O st hst
  rw [h]
  exact hx O st hst

/-- What is done to the output keeps what all such outputs keep. -/
theorem onOutput {f : Output → Except IoFault Unit × Output}
    (hf : ∀ (O : OutputInvariant L.files) {out}, O.holds out → O.holds (f out).2) :
    Maintains L (onOutput f) :=
  fun O _ hst =>
    ⟨O.saved hst.output (hf O hst.output) hst.files, hst.library, hf O hst.output⟩

theorem write (text : String) : Maintains L (write text) := onOutput fun O => O.write text

theorem writeValue (v : Value) : Maintains L (writeValue v) :=
  bind (of_local .heap) fun h => onOutput fun O => O.writeValue h v

theorem flush : Maintains L flush := onOutput fun O => O.flush

/-- Frames do not matter for what is kept. -/
theorem inFrame {act : ScopeId → Render α} (h : ∀ frame, Maintains L (act frame))
    (parent : ScopeId) : Maintains L (inFrame parent act) := by
  intro O st hst
  have hafter := h (st.memory.scopes.push parent).1 O
    { st with memory := { st.memory with scopes := (st.memory.scopes.push parent).2 } }
    ⟨hst.files, hst.library, hst.output⟩
  exact ⟨hafter.files, hafter.library, hafter.output⟩

/-- Nor does a jump that is forgotten. -/
theorem confined {act : ScopeId → Render α} (h : ∀ frame, Maintains L (act frame))
    (parent : ScopeId) : Maintains L (confined parent act) := by
  intro O st hst
  have hafter := inFrame h parent O st hst
  exact ⟨hafter.files, hafter.library, hafter.output⟩

/-- Nor does an error that becomes a result. -/
theorem attempt {act : Render α} (h : Maintains L act) : Maintains L (attempt act) := by
  refine of_state_eq h fun st => ?_
  rw [runOn_attempt]
  rcases act.runOn st with ⟨(_ | _ | _) | _, _⟩ <;> rfl

/-- The output around a captured action is put back, and the action itself writes to a text sink. -/
theorem captured {act : Render Unit} (h : Maintains L act) : Maintains L (captured act) := by
  intro O st hst
  have hafter := h (.text L.files) { st with output := .unlimited }
    ⟨hst.files, hst.library, _, rfl⟩
  exact ⟨hafter.files, hafter.library, hst.output⟩

/-- To find a function keeps what looking up shared functions keeps. -/
theorem findFunction (functions : Assoc TemplateFunction) (name : String) :
    Maintains L (config.findFunction functions name) := by
  unfold Config.findFunction
  split
  · exact of_local (.pure _)
  · exact fun O st hst => ⟨hst.files, L.sharedFunction name hst.files hst.library, hst.output⟩

/-- To find a template keeps what looking up sites keeps. -/
theorem rendered (site : Nat) (file : String) (location : Location) :
    Maintains L (config.rendered site file location) :=
  fun _ _ hst => ⟨hst.files, L.siteTemplate site file hst.files hst.library, hst.output⟩

/-- A quiet action keeps everything. -/
theorem quiet {act : Render α} (h : Quiet config act) : Maintains L act := by
  -- by induction on how it is put together
  induction h with
  | pure a => exact of_local (.pure a)
  | throw stop => exact of_local (.throw stop)
  | heap => exact of_local .heap
  | onHeap f => exact of_local (.ofEval _)
  | updateHeap change => exact of_local (.onMemory _)
  | jump => exact of_local .jump
  | write content => exact write content
  | writeValue v => exact writeValue v
  | flush => exact flush
  | attempt _ hact => exact attempt hact
  | findFunction functions name => exact findFunction functions name
  | rendered site file location => exact rendered site file location
  | bind _ _ hx hf => exact bind hx hf

/-- What is kept concerns no evaluation, and the actions that are put together from others keep
what these keep. -/
theorem runComposes :
    RunComposes config (fun _ _ _ _ => True) (fun _ _ _ _ act => Maintains L act) where
  parts _ _ :=
    { evals := fun _ => by constructor <;> intros <;> trivial
      silent := quiet
      bind := bind
      evalTop := fun _ => of_local (.ofEval _)
      evalOuter := fun _ => of_local (.ofEval _)
      bindName := fun _ _ => of_local (.onMemory _) }
  setJump kind := of_local (.setJump kind)
  takeLoopJump := of_local .takeLoopJump
  attempt := attempt
  captured := captured
  inFrame h := inFrame h _
  confined h := confined h _
  noting _ := id
  directed _ result := of_local (.ofExcept result)

end Maintains

/-- **Runs keep invariants.** What the lookup of a shared function and of a site keeps of the
library, and what a piece and a flush keep of the output, every statement keeps. -/
theorem Statement.exec_maintains (fuel : Nat) (functions : Assoc TemplateFunction)
    (statement : Statement) (scope : ScopeId) :
    Maintains L (statement.exec config fuel functions scope) :=
  Maintains.runComposes.exec fuel functions statement scope scope 0

/-- A render keeps what its statements and the last flush keep. -/
theorem Compiled.render_maintains (fuel : Nat) (unit : Compiled) :
    Maintains L (unit.render config fuel) :=
  .bind (unit.body.exec_maintains L fuel unit.functions 0) fun _ => .flush

end Maintains

end Stencil
