import Stencil.Proofs.Render.Library

/-!
# Where the statements of a run come from

A render executes the body of its template, the statements in it, and the bodies of the functions
and of the files that it finds on the way. So what a statement hands down to the statements in it,
and on to the functions and files that it finds, has every statement that is executed, in renders
that fail as in those that go well.

* What a render may execute can be told from the template, the library and the files beforehand
  (`MayExecute`): whatever one gets to from the statements of the template by way of the statements
  in them, the functions they call and the files they render.
* A custom directive is one of the configuration: everything that is found was compiled with it, so
  no other is ever executed.

Main definitions: `HandedDown`, `HandedOn`, `Recorded.Executes`, `MayExecute`.
Main statements: `Compiled.executes`, `MayExecute.of_recorded`, `Compiled.Made.executes_known`.
-/

namespace Stencil

open Render

/-- The statement that a moment is the execution of. -/
def Moment.statement? : Moment → Option Statement
  | .executed _ s .. => some s
  | _ => none

/-- A property of statements that goes over to the statements in them. -/
structure HandedDown (P : Statement → Prop) : Prop where
  condition : ∀ {test yes no}, P (.condition test yes no) → P yes ∧ P no
  loop : ∀ {head body otherwise}, P (.loop head body otherwise) → P body ∧ P otherwise
  switch : ∀ {subject cases otherwise}, P (.switch subject cases otherwise) →
    (∀ values body, .mk values body ∈ cases → P body) ∧ P otherwise
  inlined : ∀ {assignments body}, P (.inlined assignments body) → P body
  custom : ∀ {directive args body location}, P (.custom directive args body location) → P body
  block : ∀ {statements}, P (.block statements) → ∀ s ∈ statements, P s

/-- A property that all bodies of a template have. -/
structure Compiled.All (P : Statement → Prop) (unit : Compiled) : Prop where
  body : P unit.body
  functions : ∀ e ∈ unit.functions.entries, P e.2.body

/-- The function that a call calls may have a name. -/
def Callee.MayName (name : String) : Callee → Prop
  | .named called => called = name
  | .computed _ => True

/-- A property of statements that goes over to the statements in them, to the shared functions that
they call, and to the files that they render, in libraries and among files of some kind. -/
structure HandedOn {config : Config} (L : LibraryInvariant config) (P : Statement → Prop) : Prop
    extends HandedDown P where
  called : ∀ {files lib callee args ifDefined location name function},
    L.files files → L.holds lib → P (.call callee args ifDefined location) → callee.MayName name →
    (lib.sharedFunction ⟨config, files⟩ name).1 = .ok (some function) → P function.body
  rendered : ∀ {files lib file assignments site location unit},
    L.files files → L.holds lib → P (.render file assignments site location) →
    (lib.siteTemplate ⟨config, files⟩ site file).1 = .ok unit → unit.All P

variable {α β : Type} {config : Config} {L : LibraryInvariant config} {P : Statement → Prop}

/-- Where the invariants hold, an action executes statements with a property only and keeps the
invariants; if it goes well, its result is as given. -/
def Recorded.Executes (L : LibraryInvariant config) (P : Statement → Prop)
    (x : Recorded RenderState Stop α) (K : α → Prop) : Prop :=
  ∀ (O : OutputInvariant L.files) (st : RenderState), Held L O st →
    (∀ moment ∈ x.record st, ∀ s, moment.statement? = some s → P s) ∧
      Held L O (x.outcome st).2 ∧ ∀ a, (x.outcome st).1 = .ok a → K a

namespace Recorded.Executes

variable {K : α → Prop} {M : β → Prop} {x : Recorded RenderState Stop α}
  {f : α → Recorded RenderState Stop β}

theorem pure (a : α) (h : K a) : (pure a : Recorded RenderState Stop α).Executes L P K :=
  fun _ _ hheld => ⟨List.forall_mem_nil _, hheld, fun _ hok => Except.ok.inj hok ▸ h⟩

/-- One action behind another: the second goes by what the first has for a result. -/
theorem bind (hx : x.Executes L P K) (hf : ∀ a, K a → (f a).Executes L P M) :
    (x >>= f).Executes L P M := by
  intro O st hheld
  obtain ⟨hhere, hmid, hk⟩ := hx O st hheld
  rw [outcome_bind, record_bind]
  rcases houtcome : x.outcome st with ⟨_ | a, mid⟩
  -- what has stopped has executed its own part
  · rw [houtcome] at hmid
    exact ⟨hhere, hmid, nofun⟩
  -- what has gone well starts the second action
  · rw [houtcome] at hmid hk
    obtain ⟨hlater, hafter, hm⟩ := hf a (hk a rfl) O mid hmid
    exact ⟨List.forall_mem_append.mpr ⟨hhere, hlater⟩, hafter, hm⟩

/-- A silent action executes nothing, if it keeps the invariants. -/
theorem silent {act : Render α} (h : Maintains L act) :
    (Recorded.silent act).Executes L P fun _ => True :=
  fun O st hheld => ⟨List.forall_mem_nil _, h O st hheld, fun _ _ => ⟨⟩⟩

theorem quiet {act : Render α} (h : Render.Quiet config act) :
    (Recorded.silent act).Executes L P fun _ => True := silent (.quiet h)

/-- Evaluations execute no statement. -/
theorem evalComposes (host : Host) (scope : ScopeId) :
    EvalComposes host scope fun x _ =>
      ∀ m, ∀ moment ∈ x.record m, ∀ s, moment.statement? = some s → P s where
  silent _ _ := List.forall_mem_nil _
  bind hx hf m := forall_record_bind (hx m) fun a after _ => hf a after
  lookup _ _ := List.forall_mem_singleton.mpr fun _ => nofun
  assign _ _ _ := List.forall_mem_singleton.mpr fun _ => nofun
  withNullSafe h _ := h _
  withPolicy _ _ _ h _ := h _
  noting h m moment hmoment := by
    rcases mem_record_noting hmoment with hinner | rfl
    · exact h m moment hinner
    · exact fun _ => nofun

/-- An evaluation within a run executes no statement either. -/
theorem ofEval {x : Recorded Memory Error α}
    (h : ∀ m, ∀ moment ∈ x.record m, ∀ s, moment.statement? = some s → P s) :
    (Recorded.ofEval x).Executes L P fun _ => True :=
  fun _ st hheld =>
    ⟨h st.memory, ⟨hheld.files, hheld.library, hheld.output⟩, fun _ _ => ⟨⟩⟩

/-- The parts of statements execute no statement. -/
theorem partsCompose (L : LibraryInvariant config) (P : Statement → Prop) (outer top : ScopeId) :
    PartsCompose config outer top
      (fun _ _ x _ => ∀ m, ∀ moment ∈ x.record m, ∀ s, moment.statement? = some s → P s)
      (fun x _ => x.Executes L P fun _ => True) where
  evals := evalComposes config.host
  silent := quiet
  bind hx hf := hx.bind fun a _ => hf a
  evalTop := ofEval
  evalOuter := ofEval
  bindName _ _ _ _ hheld :=
    ⟨List.forall_mem_singleton.mpr fun _ => nofun,
      ⟨hheld.files, hheld.library, hheld.output⟩, fun _ _ => ⟨⟩⟩

/-- An action in a frame of its own executes what it executes. -/
theorem inFrame {x : ScopeId → Recorded RenderState Stop α}
    (h : ∀ frame, (x frame).Executes L P K) (parent : ScopeId) :
    (Recorded.inFrame parent x).Executes L P K := by
  intro O st hheld
  obtain ⟨hhere, hafter, hk⟩ := h st.memory.scopes.frames.size O (st.opened parent)
    ⟨hheld.files, hheld.library, hheld.output⟩
  exact ⟨hhere, ⟨hafter.files, hafter.library, hafter.output⟩, hk⟩

/-- So does a confined one. -/
theorem confined {x : ScopeId → Recorded RenderState Stop α}
    (h : ∀ frame, (x frame).Executes L P K) (parent : ScopeId) :
    (Recorded.confined parent x).Executes L P K := by
  intro O st hheld
  obtain ⟨hhere, hafter, hk⟩ := inFrame h parent O st hheld
  exact ⟨hhere, ⟨hafter.files, hafter.library, hafter.output⟩, hk⟩

/-- So does an attempt. -/
theorem attempt (h : x.Executes L P K) : x.attempt.Executes L P fun _ => True := by
  intro O st hheld
  obtain ⟨hhere, hafter, -⟩ := h O st hheld
  refine ⟨hhere, ?_, fun _ _ => ⟨⟩⟩
  rw [outcome_attempt]
  rcases houtcome : x.outcome st with ⟨(_ | _ | _) | _, after⟩ <;>
    · rw [houtcome] at hafter
      exact hafter

/-- A captured action writes to a text sink, and the output around it is put back. -/
theorem captured {x : Recorded RenderState Stop Unit} {K : Unit → Prop}
    (h : x.Executes L P K) : x.captured.Executes L P fun _ => True := by
  intro O st hheld
  obtain ⟨hhere, hafter, -⟩ := h (.text L.files) { st with output := .unlimited }
    ⟨hheld.files, hheld.library, _, rfl⟩
  exact ⟨hhere, ⟨hafter.files, hafter.library, hheld.output⟩, fun _ _ => ⟨⟩⟩

/-- A switch chooses among its bodies. -/
theorem chooseCase {cases : List Case} {otherwise : Statement}
    (hcases : ∀ values body, .mk values body ∈ cases → P body) (hotherwise : P otherwise)
    (scope : ScopeId) (subject : Value) :
    (Recorded.chooseCase config scope subject otherwise cases).Executes L P P := by
  induction cases with
  | nil => exact pure otherwise hotherwise
  | cons c rest ih =>
    cases c with
    | mk values body =>
      refine bind ((partsCompose L P scope scope).anyIs subject values) fun hit _ => ?_
      -- the first case that matches, or one of those behind it
      split
      · exact pure body (hcases values body List.mem_cons_self)
      · exact ih fun values' body' hmem => hcases values' body' (List.mem_cons_of_mem _ hmem)

/-- Loops execute what their bodies execute. -/
theorem loopsCompose {outer top : ScopeId} :
    LoopsCompose config outer top fun x _ => x.Executes L P fun _ => True :=
  have C := partsCompose L P outer top
  { pure := C.pure
    throw := fun stop => quiet (.throw stop)
    bind := fun hx hf => hx.bind fun a _ => hf a
    heap := quiet .heap
    jump := quiet .jump
    onHeap := fun f => quiet (.onHeap f)
    takeLoopJump := silent (.of_local .takeLoopJump)
    bindName := C.bindName
    collection := fun e => ofEval ((C.evals outer).eval e)
    outerStatus := C.outerStatus
    goesOn := C.goesOn
    assigns := C.assigns .inner }

/-- A call calls a function of a name that it may have. -/
theorem calleeName (scope : ScopeId) (location : Location) (callee : Callee) :
    (Recorded.calleeName config scope location callee).Executes L P callee.MayName := by
  cases callee with
  | named name => exact pure name rfl
  | computed e => exact (partsCompose L P scope scope).calleeName location (.computed e)

/-- A function that is found is one of the template at hand, or a shared one. -/
theorem findFunction {functions : Assoc TemplateFunction} {name : String}
    (hfunctions : ∀ e ∈ functions.entries, P e.2.body)
    (hshared : ∀ {files lib f}, L.files files → L.holds lib →
      (lib.sharedFunction ⟨config, files⟩ name).1 = .ok (some f) → P f.body) :
    (Recorded.silent (config.findFunction functions name)).Executes L P
      fun found => ∀ f ∈ found, P f.body := by
  intro O st hheld
  obtain ⟨hexecuted, hafter, -⟩ := quiet (P := P) (.findFunction functions name) O st hheld
  refine ⟨hexecuted, hafter, fun found hok f hf => ?_⟩
  obtain rfl := Option.mem_def.mp hf
  unfold Config.findFunction at hok
  -- the functions of the template at hand come first, and the shared ones are kept by the library
  cases hget : functions.get? name with
  | some f' =>
    rw [hget] at hok
    cases hok
    exact hfunctions _ (Assoc.mem_entries_of_get? hget)
  | none =>
    rw [hget] at hok
    exact hshared hheld.files hheld.library (mapError_eq_ok_iff.mp hok)

/-- What a file is rendered by is the template of the site. -/
theorem rendered {site : Nat} {file : String} {K : Compiled → Prop}
    (hsite : ∀ {files lib unit}, L.files files → L.holds lib →
      (lib.siteTemplate ⟨config, files⟩ site file).1 = .ok unit → K unit) (location : Location) :
    (Recorded.silent (config.rendered site file location)).Executes L P K := by
  intro O st hheld
  obtain ⟨hexecuted, hafter, -⟩ := quiet (P := P) (.rendered site file location) O st hheld
  refine ⟨hexecuted, hafter, fun unit hok => hsite hheld.files hheld.library ?_⟩
  exact mapError_eq_ok_iff.mp (mapError_eq_ok_iff.mp hok)

/-- What a directive executes is in its body. -/
theorem runScript {body : Recorded RenderState Stop Unit}
    (h : body.Executes L P fun _ => True) (scope : ScopeId)
    (bodies : List (Except Error Unit)) (script : Script) :
    (Recorded.runScript config scope body bodies script).Executes L P fun _ => True := by
  have C := partsCompose L P scope scope
  -- by induction on the script: only the body executes statements
  induction script generalizing bodies with
  | stop result =>
    intro O st hheld
    refine ⟨List.forall_mem_singleton.mpr fun _ => nofun, ?_, fun _ _ => ⟨⟩⟩
    exact Maintains.of_local (.ofExcept result) O st hheld
  | writeText text _ ih => exact bind (quiet (.attempt (.write text))) fun r _ => ih r bodies
  | writeValue v _ ih => exact bind (quiet (.attempt (.writeValue v))) fun r _ => ih r bodies
  | renderBody _ ih => exact bind (attempt h) fun r _ => ih r _
  | renderToText _ ih => exact bind (attempt (captured h)) fun r _ => ih r _
  | lookup name _ ih => exact bind (C.lookup name) fun v _ => ih v bodies
  | bind name v _ ih => exact bind (C.bindName name v) fun _ _ => ih bodies
  | inspect _ ih => exact bind (quiet .heap) fun h _ => ih h bodies
  | update change _ ih => exact bind (quiet (.updateHeap change)) fun _ _ => ih bodies

/-- A statement that is noted is one that is executed. -/
theorem noting {place : Place} {s : Statement} (hs : P s) {x : Recorded RenderState Stop Unit}
    (h : x.Executes L P fun _ => True) :
    (Recorded.noting (.executed place s) x).Executes L P fun _ => True := by
  intro O st hheld
  obtain ⟨hinner, hafter⟩ := h O st hheld
  refine ⟨fun moment hmoment => ?_, hafter⟩
  rcases mem_record_noting hmoment with hin | rfl
  · exact hinner moment hin
  · rintro _ ⟨⟩
    exact hs

/-- **What is executed was handed on.** A statement executes nothing but itself, the statements in
it, and those of the functions and files that they find. So a property that goes over to all of
these holds of all that is executed. -/
theorem exec (hP : HandedOn L P) (fuel : Nat) {functions : Assoc TemplateFunction} {s : Statement}
    (hfunctions : ∀ e ∈ functions.entries, P e.2.body) (hs : P s) (scope : ScopeId) (loops : Nat) :
    (Recorded.exec config fuel functions s scope loops).Executes L P fun _ => True := by
  -- By induction on the fuel: a statement runs the statements in it, and those of the functions
  -- and files it finds, with less.
  induction fuel generalizing functions s scope loops with
  | zero => exact noting hs (quiet (.throw _))
  | succ fuel ih =>
    have here {s : Statement} (hs : P s) := ih hfunctions hs
    have C := partsCompose L P scope scope
    refine noting hs ?_
    cases s with
    | nothing | definition name => exact pure () ⟨⟩
    | text content => exact quiet (.write content)
    | output value => exact bind (C.eval value) fun v _ => quiet (.writeValue v)
    | condition test yes no =>
      refine bind (C.holds test) fun holds _ => ?_
      split
      · exact here (hP.condition hs).1 scope loops
      · exact here (hP.condition hs).2 scope loops
    | loop head body otherwise =>
      refine inFrame (fun frame => ?_) scope
      have turn := here (hP.loop hs).1 frame (loops + 1)
      refine bind (loopsCompose.runLoop (y := body.exec config fuel functions frame) fuel head turn)
        fun ran _ => ?_
      split
      · exact pure () ⟨⟩
      · exact here (hP.loop hs).2 frame loops
    | switch subject cases otherwise =>
      obtain ⟨hcases, hotherwise⟩ := hP.switch hs
      exact bind (C.eval subject) fun v _ =>
        bind (chooseCase hcases hotherwise scope v) fun body hbody => here hbody scope loops
    | call callee args ifDefined location =>
      refine bind (calleeName scope location callee) fun name hname =>
        bind (findFunction hfunctions fun hfiles hlib => hP.called hfiles hlib hs hname)
          fun found hfound => ?_
      split
      -- The function is one of this template or of another one, and its body has the property.
      next f =>
        refine bind (C.arguments f args location) fun values _ => confined (fun frame => ?_) scope
        have C := partsCompose L P scope frame
        exact bind (C.bindAll _) fun _ _ => here (hfound f rfl) frame 0
      · split
        · exact C.pure _
        · exact quiet (.throw _)
    | inlined assignments body =>
      refine confined (fun frame => ?_) scope
      have C := partsCompose L P scope frame
      exact bind (C.assigns .inner assignments) fun _ _ => here (hP.inlined hs) frame 0
    | render file assignments site location =>
      -- The functions at hand are those of the rendered file from here on.
      refine bind (rendered (fun hfiles hlib => hP.rendered hfiles hlib hs) location)
        fun unit hunit => confined (fun frame => ?_) scope
      have C := partsCompose L P scope frame
      exact bind (C.assigns .inner assignments) fun _ _ => ih hunit.functions hunit.body frame 0
    | assign policy assignments => exact C.assigns policy assignments
    | jump kind => exact silent (.of_local (.setJump kind))
    | custom directive args body location =>
      exact bind (C.evalAll args) fun values _ =>
        runScript (here (hP.custom hs) scope loops) scope [] _
    | block statements =>
      exact (@loopsCompose config L P scope scope).runBlock
        (y := fun s => s.exec config fuel functions scope) fun s hmem =>
          here (hP.block hs s hmem) scope loops

end Recorded.Executes

/-- What a render of a template executes. -/
theorem Compiled.executes (hP : HandedOn L P) {unit : Compiled} (hunit : unit.All P) (fuel : Nat) :
    (unit.recorded config fuel).Executes L P fun _ => True :=
  .bind (.exec hP fuel hunit.functions hunit.body 0 0) fun _ _ => .quiet .flush

/-! ### What may be executed -/

/-- The statements that stand in a statement itself. -/
def Statement.parts : Statement → List Statement
  | .condition _ yes no => [yes, no]
  | .loop _ body otherwise => [body, otherwise]
  | .switch _ cases otherwise => otherwise :: cases.map fun | .mk _ body => body
  | .inlined _ body | .custom _ _ body _ => [body]
  | .block statements => statements
  | .nothing | .text _ | .output _ | .definition _ | .call .. | .render .. | .assign .. | .jump _ =>
    []

section MayExecute

variable (config : Config) (files : Files → Prop) (base : Library)

/-- A library that renders may make of another one, among files of some kind. -/
inductive Library.Becomes : Library → Prop where
  | start : Becomes base
  | sharedFunction {f : Files} {lib : Library} (name : String) : files f → Becomes lib →
      Becomes (lib.sharedFunction ⟨config, f⟩ name).2
  | siteTemplate {f : Files} {lib : Library} (site : Nat) (file : String) : files f → Becomes lib →
      Becomes (lib.siteTemplate ⟨config, f⟩ site file).2

/-- What renders may make of a library they make of it all the time. -/
def Library.becoming : LibraryInvariant config where
  files := files
  holds := Becomes config files base
  sharedFunction name := .sharedFunction name
  siteTemplate site file := .siteTemplate site file

/-- What a render of a template may execute in a library, among files of some kind: the statements
of the template and of its functions, the statements in them, those of the shared functions that
they call, and what the files that they render may execute. -/
inductive MayExecute : Compiled → Statement → Prop where
  | body {unit : Compiled} : MayExecute unit unit.body
  | function {unit : Compiled} {e : String × TemplateFunction} : e ∈ unit.functions.entries →
      MayExecute unit e.2.body
  | part {unit : Compiled} {s part : Statement} : MayExecute unit s → part ∈ s.parts →
      MayExecute unit part
  | called {unit : Compiled} {callee : Callee} {args : List Expr} {ifDefined : Bool}
      {location : Location} {name : String} {f : Files} {lib : Library}
      {function : TemplateFunction} :
      MayExecute unit (.call callee args ifDefined location) → callee.MayName name → files f →
      base.Becomes config files lib →
      (lib.sharedFunction ⟨config, f⟩ name).1 = .ok (some function) →
      MayExecute unit function.body
  | rendered {unit found : Compiled} {file : String} {assignments : List Expr} {site : Nat}
      {location : Location} {f : Files} {lib : Library} {s : Statement} :
      MayExecute unit (.render file assignments site location) → files f →
      base.Becomes config files lib → (lib.siteTemplate ⟨config, f⟩ site file).1 = .ok found →
      MayExecute found s → MayExecute unit s

end MayExecute

namespace MayExecute

variable {files : Files → Prop} {base : Library} {unit : Compiled}

/-- What may be executed hands this on: to its parts, to the functions it calls, and to the files it
renders. -/
-- a statement that runs is a part of one that runs, or the body of a function or a file
theorem handedOn : HandedOn (base.becoming config files) (MayExecute config files base unit) where
  condition h :=
    ⟨.part h List.mem_cons_self, .part h (List.mem_cons_of_mem _ List.mem_cons_self)⟩
  loop h := ⟨.part h List.mem_cons_self, .part h (List.mem_cons_of_mem _ List.mem_cons_self)⟩
  switch h :=
    ⟨fun _ _ hmem => .part h (List.mem_cons_of_mem _ (List.mem_map_of_mem hmem)),
      .part h List.mem_cons_self⟩
  inlined h := .part h List.mem_cons_self
  custom h := .part h List.mem_cons_self
  block h _ hmem := .part h hmem
  called hfiles hlib h hname hfound := .called h hname hfiles hlib hfound
  rendered hfiles hlib h hfound :=
    ⟨.rendered h hfiles hlib hfound .body,
      fun _ he => .rendered h hfiles hlib hfound (.function he)⟩

/-- **What is executed may be executed**, among files of any kind that the output does not lead out
of: among all files whatsoever, or among those that are there if the output is no file. -/
theorem of_recorded {O : OutputInvariant files} {st : RenderState} (hfiles : files st.files)
    (houtput : O.holds st.output) (fuel : Nat) :
    ∀ moment ∈ (unit.recorded config fuel).record st, ∀ s ∈ moment.statement?,
      MayExecute config files st.library unit s :=
  have hheld : Held (st.library.becoming config files) O st := ⟨hfiles, .start, houtput⟩
  (Compiled.executes handedOn ⟨.body, fun _ he => .function he⟩ fuel O st hheld).1

end MayExecute

/-! ### Custom directives -/

/-- To hold some directives only goes over to the statements in a statement. -/
theorem handedDown_alike (R : Likeness) : HandedDown fun s => Statement.Alike R s s where
  -- a statement is like itself only if its parts are
  condition h := by
    cases h with
    | condition _ hyes hno => exact ⟨hyes, hno⟩
  loop h := by
    cases h with
    | loop _ hbody hotherwise => exact ⟨hbody, hotherwise⟩
  switch h := by
    cases h with
    | switch _ hcases hotherwise =>
      refine ⟨fun values body hmem => ?_, hotherwise⟩
      cases List.forall₂_same.mp hcases _ hmem with
      | mk _ hbody => exact hbody
  inlined h := by
    cases h with
    | inlined _ hbody => exact hbody
  custom h := by
    cases h with
    | custom _ _ _ hbody => exact hbody
  block h := by
    cases h with
    | block hstatements => exact List.forall₂_same.mp hstatements

/-- What everything has that is compiled with a configuration is handed on in libraries that were
made with it. -/
theorem handedOn_made (hP : HandedDown P)
    (hmade : ∀ unit : Compiled, unit.Made config → unit.All P) :
    HandedOn (Library.madeInvariant config) P :=
  { hP with
    called := fun {files lib _ _ _ _ name function} _ hlib _ _ hfound => by
      obtain ⟨-, hfunction⟩ := @Library.Made.sharedFunction ⟨config, files⟩ lib hlib name
      obtain ⟨unit, hunit, key, hkey⟩ := hfunction function hfound
      exact (hmade unit hunit).functions _ hkey
    rendered := fun {files lib file _ site _ unit} _ hlib _ hunit =>
      hmade unit ((@Library.Made.siteTemplate ⟨config, files⟩ lib hlib site file).2 unit hunit) }

/-- **Custom directives are those of the configuration.** A render of a template that was compiled
with the configuration, in a library of such templates, executes no other. -/
theorem Compiled.Made.executes_known {unit : Compiled} (h : unit.Made config) (fuel : Nat)
    {st : RenderState} (hlibrary : st.library.Made config) :
    ∀ moment ∈ (unit.recorded config fuel).record st, ∀ directive args body location,
      moment.statement? = some (.custom directive args body location) → config.Knows directive := by
  let R := config.likeness Eq anySource
  have hall (unit : Compiled) (h : unit.Made config) : unit.All fun s => Statement.Alike R s s := by
    have hdraws := h.draws Eq fun _ => rfl
    exact ⟨hdraws.body, fun e he => (List.forall₂_same.mp hdraws.functions e he).2.body⟩
  intro moment hmoment directive args body location hs
  have hP := handedOn_made (handedDown_alike R) hall
  obtain ⟨hexecuted, -⟩ := Compiled.executes hP (hall unit h) fuel (.any fun _ _ _ => id) st
    ⟨⟨⟩, hlibrary, ⟨⟩⟩
  cases hexecuted moment hmoment _ hs with
  | custom _ _ hknown _ => exact hknown

end Stencil
