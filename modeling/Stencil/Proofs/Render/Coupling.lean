import Stencil.Proofs.Render.Invariant
import Stencil.Proofs.Template.Likeness

/-!
# Two runs side by side

Two renders of alike statements go in step: as long as their memories are equal, and their libraries
and outputs belong together, they take the same branches, make the same changes, and end alike. They
may part in one place only. A sink of the first run can refuse what the sink of the second one takes;
then the first run has **lost** the second, and what is left of it is an error that every custom
directive passes on, while the second one writes on.

* A `LibraryPair` says which libraries belong together. What has to be shown for it concerns the two
  places where a render looks at its library.
* An `OutputPair` says which outputs belong together, and what is known of two outputs when the first
  has been refused something. What has to be shown for it concerns a piece and a flush.
* A body that is rendered into a string writes to equal outputs on both sides, and loses nothing.
  This is why runs are coupled for every pair of outputs at once.

Main definitions: `LibraryPair`, `OutputPair`, `Coupled`, `Script.Relays`.
Main statement: `Statement.exec_coupled`.
-/

namespace Stencil

open Render

variable {α α' β β' : Type}

/-! ### Custom directives that pass errors on -/

/-- A script that is done with the output: it stops with an error, after looking at variables and
the heap, or changing them, at most. -/
inductive Script.GivesUp (error : Error) : Script → Prop where
  | stop : Script.GivesUp error (.stop (.error error))
  | lookup (name : String) {next : Value → Script} : (∀ v, Script.GivesUp error (next v)) →
      Script.GivesUp error (.lookup name next)
  | bind (name : String) (v : Value) {next : Script} : Script.GivesUp error next →
      Script.GivesUp error (.bind name v next)
  | inspect {next : Heap → Script} : (∀ h, Script.GivesUp error (next h)) →
      Script.GivesUp error (.inspect next)
  | update (change : Heap → Heap) {next : Script} : Script.GivesUp error next →
      Script.GivesUp error (.update change next)

/-- A script that passes on what goes wrong with the output. -/
inductive Script.Relays : Script → Prop where
  | stop (result : Except Error Unit) : Script.Relays (.stop result)
  | writeText (text : String) {next : Except Error Unit → Script} :
      (∀ r, Script.Relays (next r)) →
      (∀ fault, Script.GivesUp (.io fault) (next (.error (.io fault)))) →
      Script.Relays (.writeText text next)
  | writeValue (v : Value) {next : Except Error Unit → Script} :
      (∀ r, Script.Relays (next r)) →
      (∀ fault, Script.GivesUp (.io fault) (next (.error (.io fault)))) →
      Script.Relays (.writeValue v next)
  | renderBody {next : Except Error Unit → Script} :
      (∀ r, Script.Relays (next r)) →
      (∀ fault, Script.GivesUp (.io fault) (next (.error (.io fault)))) →
      Script.Relays (.renderBody next)
  | renderToText {next : Except Error String → Script} : (∀ r, Script.Relays (next r)) →
      Script.Relays (.renderToText next)
  | lookup (name : String) {next : Value → Script} : (∀ v, Script.Relays (next v)) →
      Script.Relays (.lookup name next)
  | bind (name : String) (v : Value) {next : Script} : Script.Relays next →
      Script.Relays (.bind name v next)
  | inspect {next : Heap → Script} : (∀ h, Script.Relays (next h)) → Script.Relays (.inspect next)
  | update (change : Heap → Heap) {next : Script} : Script.Relays next →
      Script.Relays (.update change next)

/-- A directive that passes on what goes wrong with the output. -/
def Directive.Relays (directive : Directive) : Prop :=
  ∀ location args, (directive.run location args).Relays

/-- The directive that escapes its body passes errors on. -/
theorem Directive.escape_relays : Directive.escape.Relays := by
  intro location args
  unfold Directive.escape
  dsimp only
  split
  · refine .renderToText fun r => ?_
    cases r with
    | ok body => exact .writeText _ (fun r => .stop r) fun fault => .stop
    | error error => exact .stop _
  · exact .stop _

/-! ### Libraries and outputs that belong together -/

/-- Which libraries belong together, among files that a render may change on disk. -/
structure LibraryPair (config : Config) where
  likeness : Likeness
  files : Files → Prop
  joined : Library → Library → Prop
  sharedFunction : ∀ {f l₁ l₂} name, files f → joined l₁ l₂ →
    Agree (Option.Rel (TemplateFunction.Alike likeness))
        (l₁.sharedFunction ⟨config, f⟩ name).1 (l₂.sharedFunction ⟨config, f⟩ name).1 ∧
      joined (l₁.sharedFunction ⟨config, f⟩ name).2 (l₂.sharedFunction ⟨config, f⟩ name).2
  siteTemplate : ∀ {f l₁ l₂ site site'} file, files f → joined l₁ l₂ →
    likeness.sites site site' →
    Agree (Compiled.Alike likeness) (l₁.siteTemplate ⟨config, f⟩ site file).1
        (l₂.siteTemplate ⟨config, f⟩ site' file).1 ∧
      joined (l₁.siteTemplate ⟨config, f⟩ site file).2 (l₂.siteTemplate ⟨config, f⟩ site' file).2

/-- What becomes of two outputs: they stay together, or the first has been refused something. -/
inductive Together (joined lost : Output → Output → Prop) :
    Except IoFault Unit × Output → Except IoFault Unit × Output → Prop where
  | joined (result : Except IoFault Unit) {o₁ o₂ : Output} : joined o₁ o₂ →
      Together joined lost (result, o₁) (result, o₂)
  | lost (fault : IoFault) (result : Except IoFault Unit) {o₁ o₂ : Output} : lost o₁ o₂ →
      Together joined lost (.error fault, o₁) (result, o₂)

/-- Which outputs belong together, and what is known of two outputs when the first has been refused
something and the second goes on. -/
structure OutputPair (files : Files → Prop) where
  joined : Output → Output → Prop
  lost : Output → Output → Prop
  write : ∀ {o₁ o₂} piece, joined o₁ o₂ → Together joined lost (o₁.write piece) (o₂.write piece)
  flush : ∀ {o₁ o₂}, joined o₁ o₂ → Together joined lost o₁.flush o₂.flush
  lostWrite : ∀ {o₁ o₂} piece, lost o₁ o₂ → lost o₁ (o₂.write piece).2
  lostFlush : ∀ {o₁ o₂}, lost o₁ o₂ → lost o₁ o₂.flush.2
  saved : ∀ {o₁ o₂ o₁' o₂' f}, joined o₁ o₂ → joined o₁' o₂' → files f →
    saved o₁ o₁' f = saved o₂ o₂' f ∧ files (saved o₁ o₁' f)

namespace OutputPair

variable {files : Files → Prop} (O : OutputPair files)

/-- Nothing is ever lost. -/
def Lossless : Prop := ∀ o₁ o₂, ¬ O.lost o₁ o₂

/-- Likewise for a value, of which null is not written at all. -/
theorem writeValue {o₁ o₂ : Output} (h : Heap) (v : Value) (ho : O.joined o₁ o₂) :
    Together O.joined O.lost (o₁.writeValue h v) (o₂.writeValue h v) := by
  unfold Output.writeValue
  split
  · exact .joined _ ho
  · exact O.write _ ho

/-- The second of two outputs keeps what is known of it when the first has lost it. -/
def lostInvariant (o₁ : Output) : OutputInvariant fun _ => True :=
  ⟨O.lost o₁, O.lostWrite, O.lostFlush, fun _ _ _ => ⟨⟩⟩

/-- Equal text sinks belong together. -/
def text (files : Files → Prop) : OutputPair files where
  joined o₁ o₂ := o₁ = o₂ ∧ ∃ sink, o₁ = .text sink
  lost _ _ := False
  write piece := by
    rintro ⟨rfl, sink, rfl⟩
    exact .joined _ ⟨rfl, _, rfl⟩
  flush := by
    rintro _ _ ⟨rfl, sink, rfl⟩
    exact .joined _ ⟨rfl, _, rfl⟩
  lostWrite _ h := h
  lostFlush h := h
  saved := by
    rintro _ _ _ _ f ⟨rfl, _, rfl⟩ ⟨rfl, _, rfl⟩ hf
    exact ⟨rfl, hf⟩

theorem text_lossless : (text files).Lossless := fun _ _ h => h

end OutputPair

/-! ### Coupled actions -/

section Coupled

variable {config : Config} (P : LibraryPair config) (O : OutputPair P.files)

/-- Two runs have come equally far. -/
structure InStep (st₁ st₂ : RenderState) : Prop where
  memory : st₁.memory = st₂.memory
  files : st₁.files = st₂.files
  among : P.files st₁.files
  library : P.joined st₁.library st₂.library
  output : O.joined st₁.output st₂.output

/-- How two runs end: in step and with results that agree, or such that the first has lost the
second one. -/
inductive Outcome (r : α → α' → Prop) :
    Except Stop α × RenderState → Except Stop α' × RenderState → Prop where
  | inStep {x : Except Stop α} {y : Except Stop α'} {st₁ st₂ : RenderState} : Agree r x y →
      InStep P O st₁ st₂ → Outcome r (x, st₁) (y, st₂)
  | lost (fault : IoFault) (y : Except Stop α') {st₁ st₂ : RenderState} :
      O.lost st₁.output st₂.output → Outcome r (.error (.error (.io fault)), st₁) (y, st₂)

/-- Two actions that go in step until the first one loses the second, which keeps what is known of
its output then. -/
structure Coupled (r : α → α' → Prop) (x : Render α) (y : Render α') : Prop where
  outcome : ∀ {st₁ st₂}, InStep P O st₁ st₂ → Outcome P O r (x.runOn st₁) (y.runOn st₂)
  keeps : Maintains (.trivial config) y

namespace Coupled

variable {P} {O}

/-- A run that has been lost stays lost while the other one goes on. -/
theorem lost_keeps {y : Render β} (hy : Maintains (.trivial config) y) {o : Output} {st : RenderState}
    (h : O.lost o st.output) : O.lost o (y.runOn st).2.output :=
  (hy (O.lostInvariant o) st ⟨⟨⟩, ⟨⟩, h⟩).output

/-- An action on the memory alone does not touch what the two runs differ in. -/
theorem of_local {x : Render α} (h : Local x) : Coupled P O Eq x x where
  outcome := by
    obtain ⟨f, hf⟩ := h
    intro st₁ st₂ hst
    rw [hf, hf, hst.memory]
    refine .inStep ?_ ⟨rfl, hst.files, hst.among, hst.library, hst.output⟩
    cases (f st₂.memory).1 with
    | ok a => exact .ok rfl
    | error stop => exact .error stop
  keeps := .of_local h

/-- Coupled actions go on with coupled actions. What the second run keeps once it is lost has to be
known for all its results, since it may have any. -/
theorem bindRel {r : α → α' → Prop} {s : β → β' → Prop} {x : Render α} {y : Render α'}
    {f : α → Render β} {g : α' → Render β'} (hx : Coupled P O r x y)
    (hf : ∀ a b, r a b → Coupled P O s (f a) (g b))
    (hg : ∀ b, Maintains (.trivial config) (g b)) : Coupled P O s (x >>= f) (y >>= g) where
  outcome := by
    intro st₁ st₂ hst
    rw [runOn_bind, runOn_bind]
    have hout := hx.outcome hst
    rcases hx₁ : x.runOn st₁ with ⟨result₁, after₁⟩
    rcases hx₂ : y.runOn st₂ with ⟨result₂, after₂⟩
    rw [hx₁, hx₂] at hout
    -- the first run goes on where the second one does, or it has lost it already
    cases hout with
    | inStep hr hafter =>
      cases hr with
      | ok hab => exact (hf _ _ hab).outcome hafter
      | error stop => exact .inStep (.error stop) hafter
    -- a run that is lost ends here, while the other one keeps what is known of its output
    | lost fault _ hlost =>
      cases result₂ with
      | error stop => exact .lost fault _ hlost
      | ok b => exact .lost fault _ (lost_keeps (hg b) hlost)
  keeps := .bind hx.keeps hg

/-- Coupled actions with equal results go on with coupled actions. -/
theorem bind {s : β → β' → Prop} {x y : Render α} {f : α → Render β} {g : α → Render β'}
    (hx : Coupled P O Eq x y) (hf : ∀ a, Coupled P O s (f a) (g a)) :
    Coupled P O s (x >>= f) (y >>= g) :=
  bindRel hx (fun a _ hab => hab ▸ hf a) fun b => (hf b).keeps

/-! ### Output -/

/-- What is done to the output is coupled if it keeps outputs together or loses the first. -/
theorem onOutput {f : Output → Except IoFault Unit × Output}
    (hf : ∀ {o₁ o₂}, O.joined o₁ o₂ → Together O.joined O.lost (f o₁) (f o₂))
    (hkeep : ∀ (K : OutputInvariant fun _ => True) {out}, K.holds out → K.holds (f out).2) :
    Coupled P O Eq (onOutput f) (onOutput f) where
  outcome := by
    intro st₁ st₂ hst
    have hout := hf hst.output
    change Outcome P O Eq
      ((f st₁.output).1.mapError fun fault => .error (.io fault),
        { st₁ with output := (f st₁.output).2
                   files := saved st₁.output (f st₁.output).2 st₁.files })
      ((f st₂.output).1.mapError fun fault => .error (.io fault),
        { st₂ with output := (f st₂.output).2
                   files := saved st₂.output (f st₂.output).2 st₂.files })
    rcases hf₁ : f st₁.output with ⟨result₁, o₁⟩
    -- both outputs say the same, or the first has been refused something
    rcases hf₂ : f st₂.output with ⟨result₂, o₂⟩
    rw [hf₁, hf₂] at hout
    cases hout with
    | joined _ ho =>
      obtain ⟨hsaved, hamong⟩ := O.saved hst.output ho hst.among
      refine .inStep ?_ ⟨hst.memory, ?_, hamong, hst.library, ho⟩
      · cases result₁ with
        | ok u => exact .ok rfl
        | error fault => exact .error _
      · exact hsaved.trans (congrArg _ hst.files)
    | lost fault _ ho => exact .lost fault _ ho
  keeps := .onOutput hkeep

/-- A text that is written is coupled. -/
theorem write (text : String) : Coupled P O Eq (write text) (write text) :=
  onOutput (O.write text) fun K => K.write text

theorem writeValue (v : Value) : Coupled P O Eq (writeValue v) (writeValue v) :=
  bind (of_local .heap) fun h => onOutput (O.writeValue h v) fun K => K.writeValue h v

theorem flush : Coupled P O Eq flush flush := onOutput O.flush fun K => K.flush

/-! ### Frames -/

/-- Coupled actions are coupled in frames of their own. -/
theorem inFrame {r : α → α' → Prop} {x : ScopeId → Render α} {y : ScopeId → Render α'}
    (h : ∀ frame, Coupled P O r (x frame) (y frame)) (parent : ScopeId) :
    Coupled P O r (inFrame parent x) (inFrame parent y) where
  outcome := by
    intro st₁ st₂ hst
    let enter (st : RenderState) : RenderState :=
      { st with memory := { st.memory with scopes := (st.memory.scopes.push parent).2 } }
    let leave (frame : ScopeId) (st : RenderState) : RenderState :=
      { st with memory := { st.memory with scopes := st.memory.scopes.pop frame } }
    have hframe : (st₁.memory.scopes.push parent).1 = (st₂.memory.scopes.push parent).1 := by
      rw [hst.memory]
    have henter : InStep P O (enter st₁) (enter st₂) := by
      refine ⟨?_, hst.files, hst.among, hst.library, hst.output⟩
      dsimp only [enter]
      rw [hst.memory]
    have hout := (h (st₂.memory.scopes.push parent).1).outcome henter
    change Outcome P O r
      (((x (st₁.memory.scopes.push parent).1).runOn (enter st₁)).1,
        leave _ ((x (st₁.memory.scopes.push parent).1).runOn (enter st₁)).2)
      (((y (st₂.memory.scopes.push parent).1).runOn (enter st₂)).1,
        leave _ ((y (st₂.memory.scopes.push parent).1).runOn (enter st₂)).2)
    rw [hframe]
    generalize (x _).runOn (enter st₁) = run₁ at hout ⊢
    generalize (y _).runOn (enter st₂) = run₂ at hout ⊢
    -- What is lost is lost for good: leaving the frame does not touch the output.
    cases hout with
    | inStep hr hafter =>
      refine .inStep hr ⟨?_, hafter.files, hafter.among, hafter.library, hafter.output⟩
      dsimp only [leave]
      rw [hafter.memory, hst.memory]
    | lost fault _ hlost => exact .lost fault _ hlost
  keeps := .inFrame (fun frame => (h frame).keeps) parent

/-- Likewise if they are confined to them. -/
theorem confined {r : α → α' → Prop} {x : ScopeId → Render α} {y : ScopeId → Render α'}
    (h : ∀ frame, Coupled P O r (x frame) (y frame)) (parent : ScopeId) :
    Coupled P O r (confined parent x) (confined parent y) where
  outcome := by
    intro st₁ st₂ hst
    have hout := (inFrame h parent).outcome hst
    change Outcome P O r
      (((Render.inFrame parent x).runOn st₁).1,
        ((setJump .none).runOn ((Render.inFrame parent x).runOn st₁).2).2)
      (((Render.inFrame parent y).runOn st₂).1,
        ((setJump .none).runOn ((Render.inFrame parent y).runOn st₂).2).2)
    generalize (Render.inFrame parent x).runOn st₁ = run₁ at hout ⊢
    generalize (Render.inFrame parent y).runOn st₂ = run₂ at hout ⊢
    -- both runs forget their jumps, or the first is lost with its own
    cases hout with
    | @inStep _ _ after₁ after₂ hr hafter =>
      refine .inStep hr ⟨?_, hafter.files, hafter.among, hafter.library, hafter.output⟩
      change ({ after₁.memory with control := { after₁.memory.control with jump := .none } } :
        Memory) = { after₂.memory with control := { after₂.memory.control with jump := .none } }
      rw [hafter.memory]
    | lost fault _ hlost => exact .lost fault _ hlost
  keeps := .confined (fun frame => (h frame).keeps) parent

/-! ### Functions and rendered files -/

/-- Functions of both runs are alike, or there are none. -/
theorem findFunction {functions functions' : Assoc TemplateFunction}
    (h : Assoc.Alike (TemplateFunction.Alike P.likeness) functions functions') (name : String) :
    Coupled P O (Option.Rel (TemplateFunction.Alike P.likeness))
      (config.findFunction functions name) (config.findFunction functions' name) where
  outcome := by
    intro st₁ st₂ hst
    -- Alike functions of the template have the same names, so both runs look among the shared
    -- functions, or neither does.
    have hget := h.get? name
    unfold Config.findFunction
    cases hf : functions.get? name with
    | some f =>
      cases hf' : functions'.get? name with
      | none => rw [hf, hf'] at hget; cases hget
      | some f' =>
        rw [hf, hf'] at hget
        exact .inStep (.ok hget) hst
    | none =>
      cases hf' : functions'.get? name with
      | some _ => rw [hf, hf'] at hget; cases hget
      | none =>
        obtain ⟨memory, output₁, library₁, files⟩ := st₁
        obtain ⟨memory', output₂, library₂, files'⟩ := st₂
        obtain ⟨rfl, rfl, hamong, hlibrary, houtput⟩ := hst
        obtain ⟨hresult, hafter⟩ := P.sharedFunction name hamong hlibrary
        exact .inStep (hresult.mapError _) ⟨rfl, rfl, hamong, hafter, houtput⟩
  keeps := .findFunction functions' name

/-- Templates of both runs are alike, or fail to compile in both. -/
theorem rendered {site site' : Nat} (h : P.likeness.sites site site') (file : String)
    (location : Location) :
    Coupled P O (Compiled.Alike P.likeness) (config.rendered site file location)
      (config.rendered site' file location) where
  outcome := by
    intro st₁ st₂ hst
    obtain ⟨memory, output₁, library₁, files⟩ := st₁
    obtain ⟨memory', output₂, library₂, files'⟩ := st₂
    obtain ⟨rfl, rfl, hamong, hlibrary, houtput⟩ := hst
    obtain ⟨hresult, hafter⟩ := P.siteTemplate file hamong hlibrary h
    exact .inStep ((hresult.mapError (renderError location)).mapError _)
      ⟨rfl, rfl, hamong, hafter, houtput⟩
  keeps := .rendered site' file location

/-! ### Blocks, switches and loops -/

/-- Blocks are coupled if their statements are. -/
theorem runBlock {run run' : Statement → Render Unit} {statements statements' : List Statement}
    {r : Statement → Statement → Prop} (h : List.Forall₂ r statements statements')
    (hrun : ∀ s s', r s s' → Coupled P O Eq (run s) (run' s')) :
    Coupled P O Eq (runBlock run statements) (runBlock run' statements') := by
  induction h with
  | nil => exact of_local (.pure _)
  | cons hd _ ih =>
    refine bind (hrun _ _ hd) fun _ => bind (of_local .jump) fun kind => ?_
    split
    · exact ih
    · exact of_local (.pure _)

/-- Both runs choose cases that are alike. -/
theorem chooseCase (scope : ScopeId) (subject : Value) {otherwise otherwise' : Statement}
    (hotherwise : Statement.Alike P.likeness otherwise otherwise') {cases cases' : List Case}
    (h : List.Forall₂ (Case.Alike P.likeness) cases cases') :
    Coupled P O (Statement.Alike P.likeness) (config.chooseCase scope subject otherwise cases)
      (config.chooseCase scope subject otherwise' cases') := by
  -- A statement that was chosen is a result like any other.
  have hpure : ∀ {s s' : Statement}, Statement.Alike P.likeness s s' →
      Coupled P O (Statement.Alike P.likeness) (pure s) (pure s') :=
    fun hs => ⟨fun hst => .inStep (.ok hs) hst, .of_local (.pure _)⟩
  induction h with
  | nil => exact hpure hotherwise
  | cons hd _ ih =>
    cases hd with
    | mk values hbody =>
      refine bind (of_local (.anyIs config scope subject values)) fun hit => ?_
      split
      · exact hpure hbody
      · exact ih

/-- Turns over a collection are coupled if their bodies are. -/
theorem walkTurns (item : String) (frame : ScopeId) (outer : Value) {body body' : Render Unit}
    (h : Coupled P O Eq body body') (fuel : Nat) (walk : Walk) (index : Nat) :
    Coupled P O Eq (walkTurns item frame outer body fuel walk index)
      (walkTurns item frame outer body' fuel walk index) := by
  -- By induction on the fuel: every turn of the walk takes one.
  induction fuel generalizing walk index with
  | zero => exact of_local (.throw _)
  | succ fuel ih =>
    unfold Stencil.walkTurns
    refine bind (of_local (.ofEval _)) fun next => ?_
    split
    · exact of_local (.pure _)
    · refine bind (of_local .heap) fun h₀ => bind (of_local (.onMemory _)) fun _ =>
        bind (of_local (.bindStatus _ _)) fun _ => bind h fun _ =>
          bind (of_local .takeLoopJump) fun isOver => ?_
      split
      · exact of_local (.pure _)
      · exact ih _ _

/-- So are counted turns. -/
theorem countTurns (test : Option Expr) (update : List Expr) (frame : ScopeId) (outer : Value)
    {body body' : Render Unit} (h : Coupled P O Eq body body') (fuel index : Nat) :
    Coupled P O Eq (config.countTurns test update frame outer body fuel index)
      (config.countTurns test update frame outer body' fuel index) := by
  -- by induction on the fuel; only the body may write to the output
  induction fuel generalizing index with
  | zero => exact of_local (.throw _)
  | succ fuel ih =>
    unfold Config.countTurns
    refine bind (of_local (.goesOn config frame test)) fun on => ?_
    split
    · refine bind (of_local (.bindStatus _ _)) fun _ => bind h fun _ =>
        bind (of_local .takeLoopJump) fun isOver => ?_
      split
      · exact of_local (.pure _)
      · exact bind (of_local (.assign config frame .inner update)) fun _ => ih _
    · exact of_local (.pure _)

/-- So are loops. -/
theorem runLoop (fuel : Nat) (head : LoopHead) (scope frame : ScopeId) {body body' : Render Unit}
    (h : Coupled P O Eq body body') :
    Coupled P O Eq (config.runLoop fuel head scope frame body)
      (config.runLoop fuel head scope frame body') := by
  cases head with
  | each item collection =>
    exact bind (of_local (.eval config scope collection)) fun v =>
      bind (of_local (.outerStatus config frame)) fun outer =>
        bind (of_local (.ofEval _)) fun walk => walkTurns item frame outer h fuel walk 0
  | counting start test update =>
    exact bind (of_local (.outerStatus config frame)) fun outer =>
      bind (of_local (.assign config frame .inner start)) fun _ =>
        countTurns test update frame outer h fuel 0

/-! ### Custom directives -/

/-- A captured body writes to equal outputs on both sides, whatever the outputs around it are, so
that two runs of it never part. -/
theorem captured_inStep {x y : Render Unit} (h : Coupled P (.text P.files) Eq x y)
    {st₁ st₂ : RenderState} (hst : InStep P O st₁ st₂) :
    Agree Eq ((captured x).runOn st₁).1 ((captured y).runOn st₂).1 ∧
      InStep P O ((captured x).runOn st₁).2 ((captured y).runOn st₂).2 := by
  -- inside, both runs write to texts, which nothing is refused by
  have hinside : InStep P (.text P.files) { st₁ with output := .unlimited }
      { st₂ with output := .unlimited } :=
    ⟨hst.memory, hst.files, hst.among, hst.library, rfl, _, rfl⟩
  have hout := h.outcome hinside
  change Agree Eq
      ((x.runOn { st₁ with output := .unlimited }).1.map
        fun _ => (x.runOn { st₁ with output := .unlimited }).2.output.received)
      ((y.runOn { st₂ with output := .unlimited }).1.map
        fun _ => (y.runOn { st₂ with output := .unlimited }).2.output.received) ∧
    InStep P O { (x.runOn { st₁ with output := .unlimited }).2 with output := st₁.output }
      { (y.runOn { st₂ with output := .unlimited }).2 with output := st₂.output }
  generalize x.runOn { st₁ with output := .unlimited } = run₁ at hout ⊢
  generalize y.runOn { st₂ with output := .unlimited } = run₂ at hout ⊢
  cases hout with
  | inStep hr hafter =>
    refine ⟨?_, hafter.memory, hafter.files, hafter.among, hafter.library, hst.output⟩
    -- the texts that were captured are equal
    cases hr with
    | ok _ => exact .ok (congrArg Output.received hafter.output.1)
    | error stop => exact .error stop
  | lost _ _ hlost => exact hlost.elim

/-- Captured bodies are coupled: what goes wrong in them is a result on both sides. -/
theorem attemptCaptured {x y : Render Unit} (h : Coupled P (.text P.files) Eq x y) :
    Coupled P O Eq (attempt (captured x)) (attempt (captured y)) where
  outcome := by
    intro st₁ st₂ hst
    obtain ⟨hresult, hafter⟩ := captured_inStep h hst
    rw [runOn_attempt, runOn_attempt]
    generalize (captured x).runOn st₁ = run₁ at hresult hafter ⊢
    generalize (captured y).runOn st₂ = run₂ at hresult hafter ⊢
    obtain ⟨result₁, after₁⟩ := run₁
    obtain ⟨result₂, after₂⟩ := run₂
    cases hresult with
    | ok hab => exact .inStep (.ok (congrArg Except.ok hab)) hafter
    -- an error becomes a result, and what else stops a run stops both
    | error stop =>
      cases stop with
      | error error => exact .inStep (.ok rfl) hafter
      | outOfFuel | blocked => exact .inStep (.error _) hafter
  keeps := .attempt (.captured h.keeps)

/-- A script that gives up leaves the output as it is. -/
theorem givesUp_runOn (config : Config) {error : Error} {script : Script}
    (h : script.GivesUp error) (scope : ScopeId) (body : Render Unit) (st : RenderState) :
    ∃ st', (runScript config scope body script).runOn st = (.error (.error error), st') ∧
      st'.output = st.output := by
  induction h generalizing st with
  | stop => exact ⟨st, rfl, rfl⟩
  | lookup name _ ih => exact ih _ _
  | bind name v _ ih => exact ih _
  | inspect _ ih => exact ih _ _
  | update change _ ih => exact ih _

/-- What a directive does after a step that may fail. Where the first run has lost the second, the
directive has to give up. -/
theorem attemptThen {x y : Render α} (h : Coupled P O Eq x y) (scope : ScopeId)
    {body body' : Render Unit} {next : Except Error α → Script}
    (hnext : ∀ r, Coupled P O Eq (runScript config scope body (next r))
      (runScript config scope body' (next r)))
    (hlost : O.Lossless ∨ ∀ fault, (next (.error (.io fault))).GivesUp (.io fault)) :
    Coupled P O Eq (attempt x >>= fun r => runScript config scope body (next r))
      (attempt y >>= fun r => runScript config scope body' (next r)) where
  outcome := by
    intro st₁ st₂ hst
    have hout := h.outcome hst
    rw [runOn_bind, runOn_bind, runOn_attempt, runOn_attempt]
    generalize x.runOn st₁ = run₁ at hout ⊢
    generalize y.runOn st₂ = run₂ at hout ⊢
    cases hout with
    | inStep hr hafter =>
      cases hr with
      | @ok a b hab =>
        obtain rfl : a = b := hab
        exact (hnext (.ok a)).outcome hafter
      | error stop =>
        cases stop with
        | error error => exact (hnext (.error error)).outcome hafter
        | outOfFuel | blocked => exact .inStep (.error _) hafter
    | @lost fault result after₁ after₂ ho =>
      have hgives := hlost.resolve_left fun hlossless => hlossless _ _ ho
      obtain ⟨st', hrun, houtput⟩ := givesUp_runOn config (hgives fault) scope body after₁
      rw [← houtput] at ho
      dsimp only
      rw [hrun]
      -- Whatever the second run goes on with, it keeps what is known of its output.
      cases result with
      | ok a => exact .lost fault _ (lost_keeps (hnext (.ok a)).keeps ho)
      | error stop =>
        cases stop with
        | error error => exact .lost fault _ (lost_keeps (hnext (.error error)).keeps ho)
        | outOfFuel | blocked => exact .lost fault _ ho
  keeps := .bind (.attempt h.keeps) fun r => (hnext r).keeps

/-- A custom directive goes in step with itself, if its body does. -/
theorem runScript (scope : ScopeId) {body body' : Render Unit} (h : Coupled P O Eq body body')
    (htext : Coupled P (.text P.files) Eq body body') {script : Script}
    (hscript : O.Lossless ∨ script.Relays) :
    Coupled P O Eq (runScript config scope body script) (runScript config scope body' script) := by
  -- By induction on the script. A step that may fail is where the runs can part.
  induction script with
  | stop result => exact of_local (.ofExcept result)
  | writeText text next ih =>
    refine attemptThen (write text) scope (fun r => ih r (hscript.imp_right ?_))
      (hscript.imp_right ?_)
    · rintro (_ | ⟨_, hnext, _⟩)
      exact hnext r
    · rintro (_ | ⟨_, _, hgives⟩)
      exact hgives
  | writeValue v next ih =>
    refine attemptThen (writeValue v) scope (fun r => ih r (hscript.imp_right ?_))
      (hscript.imp_right ?_)
    · rintro (_ | _ | ⟨_, hnext, _⟩)
      exact hnext r
    · rintro (_ | _ | ⟨_, _, hgives⟩)
      exact hgives
  | renderBody next ih =>
    refine attemptThen h scope (fun r => ih r (hscript.imp_right ?_)) (hscript.imp_right ?_)
    · rintro (_ | _ | _ | ⟨hnext, _⟩)
      exact hnext r
    · rintro (_ | _ | _ | ⟨_, hgives⟩)
      exact hgives
  | renderToText next ih =>
    refine bind (attemptCaptured htext) fun r => ih r (hscript.imp_right ?_)
    rintro (_ | _ | _ | _ | hnext)
    exact hnext r
  | lookup name next ih =>
    refine bind (of_local (.ofEval _)) fun v => ih v (hscript.imp_right ?_)
    rintro (_ | _ | _ | _ | _ | ⟨_, hnext⟩)
    exact hnext v
  | bind name v next ih =>
    refine bind (of_local (.onMemory _)) fun _ => ih (hscript.imp_right ?_)
    rintro (_ | _ | _ | _ | _ | _ | ⟨_, _, hnext⟩)
    exact hnext
  | inspect next ih =>
    refine bind (of_local .heap) fun h => ih h (hscript.imp_right ?_)
    rintro (_ | _ | _ | _ | _ | _ | _ | hnext)
    exact hnext h
  | update change next ih =>
    refine bind (of_local (.onMemory _)) fun _ => ih (hscript.imp_right ?_)
    rintro (_ | _ | _ | _ | _ | _ | _ | _ | ⟨_, hnext⟩)
    exact hnext

end Coupled

end Coupled

/-! ### Statements -/

section Statements

variable {config : Config} (P : LibraryPair config)

/-- Nothing is ever lost, or every directive that may occur passes errors on. -/
def OutputPair.Suits (O : OutputPair P.files) : Prop :=
  O.Lossless ∨ ∀ directive, P.likeness.directive directive → directive.Relays

/-- **Alike statements go in step.** Two runs of alike statements, from equal memories and from
libraries and outputs that belong together, end alike, or the first one has lost the second. -/
theorem Statement.exec_coupled (fuel : Nat) {functions functions' : Assoc TemplateFunction}
    (hfunctions : Assoc.Alike (TemplateFunction.Alike P.likeness) functions functions')
    {statement statement' : Statement} (hs : Statement.Alike P.likeness statement statement')
    (scope : ScopeId) (O : OutputPair P.files) (hO : O.Suits P) :
    Coupled P O Eq (statement.exec config fuel functions scope)
      (statement'.exec config fuel functions' scope) := by
  -- By induction on the fuel, for all pairs of outputs: what a directive renders into a string is
  -- coupled for outputs of its own.
  induction fuel generalizing functions functions' statement statement' scope O with
  | zero => exact .of_local (.throw _)
  | succ fuel ih =>
    cases hs with
    | nothing => exact .of_local (.pure _)
    | text content => exact .write content
    | output value => exact .bind (.of_local (.eval config scope value)) fun v => .writeValue v
    | condition test hyes hno =>
      refine .bind (.of_local (.holds config scope test)) fun holds => ?_
      split
      · exact ih hfunctions hyes scope O hO
      · exact ih hfunctions hno scope O hO
    | loop head hbody hotherwise =>
      unfold Statement.exec
      refine .inFrame (fun frame => ?_) scope
      refine .bind (.runLoop fuel head scope frame (ih hfunctions hbody frame O hO)) fun ran => ?_
      split
      · exact .of_local (.pure _)
      · exact ih hfunctions hotherwise frame O hO
    | switch subject hcases hotherwise =>
      exact .bind (.of_local (.eval config scope subject)) fun v =>
        .bindRel (.chooseCase scope v hotherwise hcases)
          (fun _ _ hbody => ih hfunctions hbody scope O hO)
          fun body => body.exec_maintains _ fuel functions' scope
    | definition name => exact .of_local (.pure _)
    | call callee args ifDefined location =>
      -- Alike functions take the same arguments, and their bodies are alike.
      refine .bind (.of_local (.calleeName config scope location callee)) fun name => ?_
      refine .bindRel (.findFunction hfunctions name) (fun found found' hfound => ?_)
        fun found => ?_
      · cases hfound with
        | none =>
          dsimp only
          split
          · exact .of_local (.pure _)
          · exact .of_local (.throw _)
        | @some f f' hf =>
          have harguments : config.arguments scope f args location =
              config.arguments scope f' args location := by
            unfold Config.arguments
            rw [hf.parameters, hf.name, hf.location]
          dsimp only
          rw [harguments, hf.parameters]
          exact .bind (.of_local (.arguments config scope f' args location)) fun values =>
            .confined (fun frame => .bind (.of_local (.bindAll frame _))
              fun _ => ih hfunctions hf.body frame O hO) scope
      · -- What the second run goes on with alone keeps what is known of its output.
        split
        · exact .bind (.of_local (.arguments config scope _ args location)) fun values =>
            .confined (fun frame => .bind (.of_local (.bindAll frame _))
              fun _ => Statement.exec_maintains _ fuel functions' _ frame) scope
        · split
          · exact .of_local (.pure _)
          · exact .of_local (.throw _)
    | inlined assignments hbody =>
      exact .confined (fun frame => .bind (.of_local (.assign config frame .inner assignments))
        fun _ => ih hfunctions hbody frame O hO) scope
    | render file assignments location hsite =>
      refine .bindRel (.rendered hsite file location) (fun unit unit' hunit => ?_) fun unit => ?_
      · exact .confined (fun frame => .bind (.of_local (.assign config frame .inner assignments))
          fun _ => ih hunit.functions hunit.body frame O hO) scope
      · exact .confined (fun frame => .bind (.of_local (.assign config frame .inner assignments))
          fun _ => unit.body.exec_maintains _ fuel unit.functions frame) scope
    | assign policy assignments => exact .of_local (.assign config scope policy assignments)
    | jump kind => exact .of_local (.setJump kind)
    | custom args location hdirective hbody =>
      -- The body is coupled for the outputs around it, and for captured text of its own.
      exact .bind (.of_local (.evalAll config scope args)) fun values =>
        .runScript scope (ih hfunctions hbody scope O hO)
          (ih hfunctions hbody scope _ (.inl OutputPair.text_lossless))
          (hO.imp_right fun h => h _ hdirective location values)
    | block hstatements =>
      exact .runBlock hstatements fun s s' hs => ih hfunctions hs scope O hO

/-- Two renders of alike templates go in step. -/
theorem Compiled.render_coupled (fuel : Nat) {unit unit' : Compiled}
    (h : Compiled.Alike P.likeness unit unit') (O : OutputPair P.files) (hO : O.Suits P) :
    Coupled P O Eq (unit.render config fuel) (unit'.render config fuel) :=
  .bind (Statement.exec_coupled P fuel h.functions h.body 0 O hO) fun _ => .flush

end Statements

end Stencil
