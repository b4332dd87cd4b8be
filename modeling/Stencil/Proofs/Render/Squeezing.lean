import Stencil.Proofs.Render.Delivery
import Stencil.Proofs.Render.Executed
import Stencil.Proofs.Template.Squeezing

/-!
# Renders of squeezed templates

A render of a template and one of the same template with its literal text squeezed go side by side:
they evaluate the same expressions in the same memory, find the same functions and files, but for
their literal text, and end in the same way. What they write differs in runs of blanks only. The
output is followed as a whole and not piece by piece, since the words at the borders of the pieces
belong to more than one of them (`Output.Respaced`).

* Libraries that were compiled with and without squeezing answer alike
  (`Library.sharedFunction_squeezed`, `Library.siteTemplate_squeezed`).
* What the two runs have in common while they go is `InPace`. An action that `Shadows` another one
  keeps pace with it; this is shown for the actions that runs are put together from, and from it for
  all statements.
* A custom directive gets hold of the text of its body and may make anything of it. The directive
  that escapes its body leaves blanks as they are; that no other one is executed is asked of the
  record of the first run (`Recorded.EscapesOnly`).

Main definitions: `Library.mapText`, `Output.Respaced`, `InPace`, `Shadows`.
Main statements: `Shadows.exec`, `Compiled.shadows`.
-/

namespace Stencil

open Render

/-! ### Libraries with other literal text -/

section MapText

variable (f : String → String)

/-- Shared functions with other literal text. -/
def SharedFunctions.mapText (s : SharedFunctions) : SharedFunctions :=
  { s with functions := s.functions.mapValues (·.mapText f) }

/-- A library with other literal text. -/
def Library.mapText (lib : Library) : Library where
  shared := lib.shared.mapText f
  sites := lib.sites.map (·.mapValues (·.mapText f))

/-- A file is added to shared functions before or after its texts are changed. -/
theorem SharedFunctions.add_mapText (s : SharedFunctions) (root : Source) (unit : Compiled) :
    (s.mapText f).add root (unit.mapText f) = (s.add root unit).map (·.mapText f) := by
  have htaken : (s.mapText f).functions.contains = s.functions.contains :=
    funext fun name => Assoc.contains_mapValues ..
  have hinsert : (s.mapText f).functions.insertAll (unit.mapText f).functions.entries =
      (s.functions.insertAll unit.functions.entries).mapValues (·.mapText f) :=
    Assoc.insertAll_mapValues ..
  have hkeys : (unit.mapText f).functions.keys = unit.functions.keys := Assoc.keys_mapValues ..
  unfold add
  rw [htaken, hkeys, hinsert]
  split <;> rfl

namespace Library

variable (lib : Library)

theorem withSites_mapText (count : Nat) :
    (lib.mapText f).withSites count = (lib.withSites count).mapText f := by
  simp [withSites, mapText]

/-- What is compiled at a site, before or after. -/
theorem compiledAt?_mapText (site : Nat) (file : String) :
    (lib.mapText f).compiledAt? site file = (lib.compiledAt? site file).map (·.mapText f) := by
  unfold compiledAt? mapText
  rw [Array.getElem?_map]
  cases lib.sites[site]? with
  | none => rfl
  | some units => exact Assoc.get?_mapValues ..

/-- What is kept at a site, before or after. -/
theorem keepAt_mapText (site : Nat) (file : String) (unit : Compiled) :
    (lib.mapText f).keepAt site file (unit.mapText f) = (lib.keepAt site file unit).mapText f := by
  have hsites : ((lib.mapText f).sites.modify site (·.insert file (unit.mapText f))) =
      (lib.sites.modify site (·.insert file unit)).map (·.mapValues (·.mapText f)) := by
    refine Array.ext_getElem? fun i => ?_
    rw [mapText, Array.getElem?_map, Array.getElem?_modify, Array.getElem?_modify,
      Array.getElem?_map]
    -- only the site that is changed gets a template
    cases lib.sites[i]? with
    | none => simp
    | some units =>
      split
      · exact congrArg some (Assoc.insert_mapValues ..)
      · rfl
  exact congrArg (Library.mk (lib.shared.mapText f)) hsites

/-- Whether a site is usable does not depend on texts. -/
theorem usable?_mapText (ctx : Context) (site : Nat) (file : String) :
    (lib.mapText f).usable? ctx site file = (lib.usable? ctx site file).map (·.mapText f) := by
  unfold usable?
  rw [compiledAt?_mapText]
  cases lib.compiledAt? site file with
  | none => rfl
  | some unit =>
    change (if ctx.config.settings.devMode && unit.isModified ctx.files then none else _) =
      Option.map _ (if ctx.config.settings.devMode && unit.isModified ctx.files then none else _)
    split <;> rfl

end Library

end MapText

/-! ### Libraries of engines that squeeze -/

/-- What commutes with every step of a fold commutes with the fold. -/
theorem foldlM_comm {ε α β : Type} (g : α → α) {step step' : α → β → Except ε α}
    (h : ∀ a b, step' (g a) b = (step a b).map g) (l : List β) (a : α) :
    l.foldlM step' (g a) = (l.foldlM step a).map g := by
  induction l generalizing a with
  | nil => rfl
  | cons b rest ih =>
    rw [List.foldlM_cons, List.foldlM_cons, h]
    cases step a b with
    | error e => rfl
    | ok a => exact ih a

/-- What an engine compiles with, if it squeezes literal text. -/
def Context.squeezing (ctx : Context) (separator : Char) : Context :=
  { ctx with config := ctx.config.withSeparator (some separator) }

namespace Library

variable {ctx : Context} {separator : Char} (hplain : ctx.config.settings.separator = none)
  (lib : Library)

include hplain

/-- A squeezing library compiles the same, squeezed. -/
theorem compile_squeezed (source : Source) :
    (lib.mapText (Text.squeezed separator)).compile (ctx.squeezing separator) source =
      (lib.compile ctx source).map fun r =>
        (r.1.mapText (Text.squeezed separator), r.2.mapText (Text.squeezed separator)) := by
  have hsize : (lib.mapText (Text.squeezed separator)).sites.size = lib.sites.size :=
    Array.size_map
  unfold compile
  rw [hsize]
  change Stencil.compile (ctx.config.withSeparator (some separator)) ctx.files source
    lib.sites.size >>= _ = _
  rw [Stencil.compile_squeezed hplain]
  cases Stencil.compile ctx.config ctx.files source lib.sites.size with
  | error e => rfl
  | ok r =>
    refine congrArg Except.ok (Prod.ext rfl ?_)
    exact withSites_mapText ..

/-- It shares the same, squeezed. -/
theorem share_squeezed (source : Source) :
    (lib.mapText (Text.squeezed separator)).share (ctx.squeezing separator) source =
      (lib.share ctx source).map (·.mapText (Text.squeezed separator)) := by
  unfold share
  rw [compile_squeezed hplain]
  cases lib.compile ctx source with
  | error e => rfl
  | ok r =>
    obtain ⟨unit, lib⟩ := r
    change (((lib.mapText (Text.squeezed separator)).shared.add source
        (unit.mapText (Text.squeezed separator))) >>= _ : Except Error Library) =
      Except.map _ (lib.shared.add source unit >>= _)
    rw [show (lib.mapText (Text.squeezed separator)).shared =
      lib.shared.mapText (Text.squeezed separator) from rfl, SharedFunctions.add_mapText]
    cases lib.shared.add source unit with
    | error e => rfl
    | ok shared => rfl

/-- It reads the same again, squeezed. -/
theorem reload_squeezed :
    (lib.mapText (Text.squeezed separator)).reload (ctx.squeezing separator) =
      (lib.reload ctx).map (·.mapText (Text.squeezed separator)) := by
  rw [reload_eq, reload_eq]
  refine foldlM_comm (·.mapText (Text.squeezed separator)) (fun fresh file => ?_)
    lib.shared.files { lib with shared := {} }
  have hreopen : reopen (ctx.squeezing separator) file.root = reopen ctx file.root := rfl
  rw [hreopen]
  cases reopen ctx file.root with
  | error e => rfl
  | ok source => exact share_squeezed hplain fresh source

/-- It is refreshed alike. -/
theorem refreshed_squeezed :
    (lib.mapText (Text.squeezed separator)).refreshed (ctx.squeezing separator) =
      (lib.refreshed ctx).map (·.mapText (Text.squeezed separator)) := by
  unfold refreshed
  change (if ctx.config.settings.devMode && lib.shared.isModified ctx.files then _ else _) =
    Except.map _ (if ctx.config.settings.devMode && lib.shared.isModified ctx.files then _ else _)
  split
  · exact reload_squeezed hplain lib
  · rfl

/-- It looks up the same shared functions, squeezed. -/
theorem sharedFunction_squeezed (name : String) :
    (lib.mapText (Text.squeezed separator)).sharedFunction (ctx.squeezing separator) name =
      ((lib.sharedFunction ctx name).1.map (Option.map (·.mapText (Text.squeezed separator))),
        (lib.sharedFunction ctx name).2.mapText (Text.squeezed separator)) := by
  unfold sharedFunction
  rw [refreshed_squeezed hplain]
  cases lib.refreshed ctx with
  | error e => rfl
  | ok lib => exact Prod.ext (congrArg Except.ok (Assoc.get?_mapValues ..)) rfl

/-- It answers at a site with the same template, squeezed. -/
theorem siteTemplate_squeezed (site : Nat) (file : String) :
    (lib.mapText (Text.squeezed separator)).siteTemplate (ctx.squeezing separator) site file =
      ((lib.siteTemplate ctx site file).1.map (·.mapText (Text.squeezed separator)),
        (lib.siteTemplate ctx site file).2.mapText (Text.squeezed separator)) := by
  have husable : (lib.mapText (Text.squeezed separator)).usable? (ctx.squeezing separator) site
      file = (lib.usable? ctx site file).map (·.mapText (Text.squeezed separator)) :=
    usable?_mapText _ lib ctx site file
  unfold siteTemplate
  rw [husable]
  -- a usable template stays one, and otherwise the file is compiled by both libraries
  cases lib.usable? ctx site file with
  | some unit => rfl
  | none =>
    have hcompile : ((ctx.squeezing separator).files.openSource
          (ctx.squeezing separator).config.settings.basePath file).bind
          ((lib.mapText (Text.squeezed separator)).compile (ctx.squeezing separator)) =
        ((ctx.files.openSource ctx.config.settings.basePath file).bind (lib.compile ctx)).map
          fun r => (r.1.mapText (Text.squeezed separator),
            r.2.mapText (Text.squeezed separator)) := by
      change (ctx.files.openSource ctx.config.settings.basePath file).bind _ = _
      cases ctx.files.openSource ctx.config.settings.basePath file with
      | error e => rfl
      | ok source => exact compile_squeezed hplain lib source
    dsimp only [Option.map_none]
    rw [hcompile]
    cases (ctx.files.openSource ctx.config.settings.basePath file).bind (lib.compile ctx) with
    | error e => rfl
    | ok r => exact Prod.ext rfl (keepAt_mapText ..)

end Library

/-! ### Outputs with the same words -/

/-- Two outputs that refuse nothing and have taken texts that differ in their blanks only. -/
structure Output.Respaced (o o' : Output) : Prop where
  steady : o.Steady ∧ o'.Steady
  offDisk : ¬ o.OnDisk ∧ ¬ o'.OnDisk
  text : Text.Respaced (o.received ++ o.held).toList (o'.received ++ o'.held).toList

namespace Output.Respaced

variable {o o' : Output}

/-- An output that refuses nothing, beside itself. -/
theorem refl (hsteady : o.Steady) (hdisk : ¬ o.OnDisk) : o.Respaced o :=
  ⟨⟨hsteady, hsteady⟩, ⟨hdisk, hdisk⟩, .refl _⟩

/-- Pieces that differ in blanks keep outputs respaced. -/
theorem write (h : o.Respaced o') {piece piece' : String}
    (hpiece : Text.Respaced piece.toList piece'.toList) :
    (o.write piece).1 = .ok () ∧ (o'.write piece').1 = .ok () ∧
      (o.write piece).2.Respaced (o'.write piece').2 := by
  obtain ⟨hresult, htaken⟩ := (o.write_delivery piece).of_steady h.steady.1
  obtain ⟨hresult', htaken'⟩ := (o'.write_delivery piece').of_steady h.steady.2
  refine ⟨hresult, hresult', ?_, ?_, ?_⟩
  · rw [steady_write, steady_write]
    exact h.steady
  · rw [onDisk_write, onDisk_write]
    exact h.offDisk
  · rw [htaken, htaken', ← String.append_assoc, ← String.append_assoc, String.toList_append,
      String.toList_append (t := piece')]
    exact h.text.append hpiece

/-- So does a value, which is the same on both sides. -/
theorem writeValue (h : o.Respaced o') (heap : Heap) (v : Value) :
    (o.writeValue heap v).1 = .ok () ∧ (o'.writeValue heap v).1 = .ok () ∧
      (o.writeValue heap v).2.Respaced (o'.writeValue heap v).2 := by
  unfold Output.writeValue
  split
  · exact ⟨rfl, rfl, h⟩
  · exact h.write (.refl _)

/-- There is nothing to flush on either side. -/
theorem flush (h : o.Respaced o') :
    o.flush.1 = .ok () ∧ o'.flush.1 = .ok () ∧ o.flush.2.Respaced o'.flush.2 := by
  obtain ⟨hresult, htaken⟩ := o.flush_delivery.of_steady h.steady.1
  obtain ⟨hresult', htaken'⟩ := o'.flush_delivery.of_steady h.steady.2
  refine ⟨hresult, hresult', ?_, ?_, ?_⟩
  · rw [steady_flush, steady_flush]
    exact h.steady
  · rw [onDisk_flush, onDisk_flush]
    exact h.offDisk
  · rw [htaken, htaken']
    exact h.text

end Output.Respaced

/-! ### Two runs side by side -/

/-- A statement that is no custom directive but the one that escapes its body. -/
def Statement.OnlyEscapes : Statement → Prop
  | .custom directive .. => directive = .escape
  | _ => True

/-- No custom directive but the one that escapes its body is executed. -/
def Recorded.EscapesOnly {α : Type} (x : Recorded RenderState Stop α) (st : RenderState) : Prop :=
  ∀ moment ∈ x.record st, ∀ s, moment.statement? = some s → s.OnlyEscapes

/-- The second of two runs squeezes literal text, and has come as far as the first. -/
structure InPace (separator : Char) (st st' : RenderState) : Prop where
  memory : st'.memory = st.memory
  files : st'.files = st.files
  library : st'.library = st.library.mapText (Text.squeezed separator)
  output : st.output.Respaced st'.output

/-- An action of a run that squeezes literal text keeps pace with one of a run that does not, if
this one executes no custom directive but the one that escapes its body. -/
def Shadows {α β : Type} (separator : Char) (r : α → β → Prop) (x : Recorded RenderState Stop α)
    (y : Render β) : Prop :=
  ∀ st st', InPace separator st st' → x.EscapesOnly st →
    Agree r (x.outcome st).1 (y.runOn st').1 ∧
      InPace separator (x.outcome st).2 (y.runOn st').2

namespace Shadows

variable {α α' β β' : Type} {separator : Char} {config : Config}

/-- An action on the memory alone keeps pace with itself. -/
theorem of_local {x : Recorded RenderState Stop α} {act : Render α} (hx : x.Faithful config act)
    (h : Local act) : Shadows separator Eq x act := by
  obtain ⟨f, hf⟩ := h
  intro st st' hst _
  have houtcome : x.outcome st = act.runOn st := hx.outcome st
  rw [houtcome, hf, hf, hst.memory]
  refine ⟨?_, rfl, hst.files, hst.library, hst.output⟩
  cases (f st.memory).1 with
  | ok a => exact .ok rfl
  | error stop => exact .error stop

/-- What keeps pace goes on with what keeps pace. -/
theorem bind {r : α → α' → Prop} {s : β → β' → Prop} {x : Recorded RenderState Stop α}
    {y : Render α'} {f : α → Recorded RenderState Stop β} {g : α' → Render β'}
    (hx : Shadows separator r x y) (hf : ∀ a b, r a b → Shadows separator s (f a) (g b)) :
    Shadows separator s (x >>= f) (y >>= g) := by
  intro st st' hst hescapes
  -- What the record says of the whole, it says of the first part, and of the second one if the
  -- first part goes well.
  rw [Recorded.EscapesOnly, Recorded.record_bind] at hescapes
  rw [Recorded.outcome_bind, runOn_bind]
  have hrun := hx st st' hst
  rcases houtcome : x.outcome st with ⟨result, mid⟩
  rcases hshadow : y.runOn st' with ⟨result', mid'⟩
  rw [houtcome] at hescapes
  rw [houtcome, hshadow] at hrun
  cases result with
  | error stop =>
    obtain ⟨hresult, hmid⟩ := hrun hescapes
    cases hresult
    exact ⟨.error stop, hmid⟩
  | ok a =>
    obtain ⟨hhere, hlater⟩ := List.forall_mem_append.mp hescapes
    obtain ⟨hresult, hmid⟩ := hrun hhere
    cases hresult with
    | ok hab => exact hf _ _ hab mid mid' hmid hlater

/-- What is done to respaced outputs keeps pace if it keeps them respaced. -/
theorem onOutput {f f' : Output → Except IoFault Unit × Output}
    (h : ∀ {o o' : Output}, o.Respaced o' →
      (f o).1 = .ok () ∧ (f' o').1 = .ok () ∧ (f o).2.Respaced (f' o').2) :
    Shadows separator Eq (.silent (onOutput f)) (onOutput f') := by
  intro st st' hst _
  -- neither output refuses anything, and the files stay as they are
  obtain ⟨hresult, hresult', houtput⟩ := h hst.output
  have hrun : (Recorded.silent (Render.onOutput f)).outcome st =
      ((f st.output).1.mapError fun fault => Stop.error (.io fault),
        { st with output := (f st.output).2
                  files := saved st.output (f st.output).2 st.files }) := rfl
  have hrun' : (Render.onOutput f').runOn st' =
      ((f' st'.output).1.mapError fun fault => Stop.error (.io fault),
        { st' with output := (f' st'.output).2
                   files := saved st'.output (f' st'.output).2 st'.files }) := rfl
  rw [hrun, hrun', hresult, hresult', saved_of_not_onDisk houtput.offDisk.1,
    saved_of_not_onDisk houtput.offDisk.2]
  exact ⟨.ok rfl, hst.memory, hst.files, hst.library, houtput⟩

/-- Texts that differ in blanks are written in pace. -/
theorem write {content content' : String}
    (h : Text.Respaced content.toList content'.toList) :
    Shadows separator Eq (.silent (write content)) (write content') :=
  onOutput fun ho => ho.write h

/-- Values are written in pace. -/
theorem writeValue (v : Value) :
    Shadows separator Eq (.silent (writeValue v)) (writeValue v) := by
  intro st st' hst hescapes
  have hwrite := onOutput (fun ho => ho.writeValue st.memory.heap v) st st' hst hescapes
  have hshadow : (Render.writeValue v).runOn st' =
      (Render.onOutput (·.writeValue st'.memory.heap v)).runOn st' := rfl
  rw [hshadow, hst.memory]
  exact hwrite

/-- Frames are opened on both sides. -/
theorem inFrame {r : α → β → Prop} {x : ScopeId → Recorded RenderState Stop α}
    {y : ScopeId → Render β} (h : ∀ frame, Shadows separator r (x frame) (y frame))
    (parent : ScopeId) : Shadows separator r (.inFrame parent x) (inFrame parent y) := by
  intro st st' hst hescapes
  rw [Recorded.outcome_inFrame, runOn_inFrame, hst.memory]
  have hopened : InPace separator (st.opened parent) (st'.opened parent) :=
    ⟨by rw [RenderState.opened, hst.memory]; rfl, hst.files, hst.library, hst.output⟩
  obtain ⟨hresult, hafter⟩ := h st.memory.scopes.frames.size _ _ hopened hescapes
  refine ⟨hresult, ?_, hafter.files, hafter.library, hafter.output⟩
  rw [RenderState.dropped, hafter.memory]
  rfl

/-- Likewise for confined actions. -/
theorem confined {r : α → β → Prop} {x : ScopeId → Recorded RenderState Stop α}
    {y : ScopeId → Render β} (h : ∀ frame, Shadows separator r (x frame) (y frame))
    (parent : ScopeId) : Shadows separator r (.confined parent x) (confined parent y) := by
  intro st st' hst hescapes
  obtain ⟨hresult, hafter⟩ := inFrame h parent st st' hst hescapes
  refine ⟨hresult, ?_, hafter.files, hafter.library, hafter.output⟩
  exact congrArg (fun m : Memory => { m with control := { m.control with jump := .none } })
    hafter.memory

/-- Attempts keep pace: an error on one side is the same on the other. -/
theorem attempt {r : α → β → Prop} {x : Recorded RenderState Stop α} {y : Render β}
    (h : Shadows separator r x y) :
    Shadows separator (Agree r) x.attempt (attempt y) := by
  intro st st' hst hescapes
  have hrun := h st st' hst hescapes
  rw [Recorded.outcome_attempt, runOn_attempt]
  generalize x.outcome st = run at hrun ⊢
  generalize y.runOn st' = run' at hrun ⊢
  obtain ⟨result, after⟩ := run
  obtain ⟨result', after'⟩ := run'
  obtain ⟨hresult, hafter⟩ := hrun
  cases hresult with
  | ok hab => exact ⟨.ok (.ok hab), hafter⟩
  -- an error becomes a result, and what else stops a run stops both
  | error stop =>
    cases stop with
    | error error => exact ⟨.ok (.error error), hafter⟩
    | outOfFuel | blocked => exact ⟨.error _, hafter⟩

/-- A text sink holds nothing back, whatever is rendered to it. -/
theorem held_of_maintains {act : Render Unit} (h : Maintains (.trivial config) act)
    (st : RenderState) : (act.runOn { st with output := .unlimited }).2.output.held = "" := by
  obtain ⟨-, -, sink, hsink⟩ :=
    h (.text _) { st with output := .unlimited } ⟨⟨⟩, ⟨⟩, _, rfl⟩
  rw [hsink]
  rfl

/-- What is rendered into a string by one run is rendered into a respaced one by the other. -/
theorem captured {config' : Config} {x : Recorded RenderState Stop Unit} {act y : Render Unit}
    (h : Shadows separator Eq x y) (hx : x.Faithful config act)
    (hact : Maintains (.trivial config) act) (hy : Maintains (.trivial config') y) :
    Shadows separator (fun a b => Text.Respaced a.toList b.toList) x.captured (captured y) := by
  intro st st' hst hescapes
  -- Inside, both runs begin with an empty text sink.
  have hinside : InPace separator { st with output := .unlimited }
      { st' with output := .unlimited } :=
    ⟨hst.memory, hst.files, hst.library, .refl ⟨rfl, fun _ => rfl⟩ id⟩
  have hrun := h _ _ hinside hescapes
  have hheld := held_of_maintains hact st
  have hheld' := held_of_maintains hy st'
  have houtcome : x.outcome { st with output := .unlimited } =
      act.runOn { st with output := .unlimited } := hx.outcome _
  have hcaptured : (Render.captured y).runOn st' =
      ((y.runOn { st' with output := .unlimited }).1.map fun _ =>
          (y.runOn { st' with output := .unlimited }).2.output.received,
        { (y.runOn { st' with output := .unlimited }).2 with output := st'.output }) := rfl
  rw [Recorded.outcome_captured, hcaptured]
  rw [← houtcome] at hheld
  generalize x.outcome { st with output := .unlimited } = run at hrun hheld ⊢
  generalize y.runOn { st' with output := .unlimited } = run' at hrun hheld' ⊢
  obtain ⟨hresult, hafter⟩ := hrun
  refine ⟨?_, hafter.memory, hafter.files, hafter.library, hst.output⟩
  obtain ⟨result, after⟩ := run
  obtain ⟨result', after'⟩ := run'
  cases hresult with
  | ok _ =>
    -- Nothing is held back, so what the sinks have received is all that was written.
    have htext := hafter.output.text
    rw [hheld, hheld', String.append_empty, String.append_empty] at htext
    exact .ok htext
  | error stop => exact .error stop

/-! ### Functions and rendered files -/

/-- The libraries of two runs correspond, so what is found in them does. -/
theorem onLibrary {g g' : Files → Library → Except Error α × Library} {k : α → α}
    (h : ∀ files lib, g' files (lib.mapText (Text.squeezed separator)) =
      ((g files lib).1.map k, (g files lib).2.mapText (Text.squeezed separator))) :
    Shadows separator (fun a b => b = k a) (.silent (onLibrary g)) (onLibrary g') := by
  intro st st' hst _
  have hrun' : (Render.onLibrary g').runOn st' =
      ((g' st'.files st'.library).1.mapError Stop.error,
        { st' with library := (g' st'.files st'.library).2 }) := rfl
  rw [hrun', hst.files, hst.library, h]
  exact ⟨(Agree.map k _).mapError _, hst.memory, rfl, rfl, hst.output⟩

/-- Functions are found in pace, with squeezed bodies on the other side. -/
theorem findFunction (hplain : config.settings.separator = none)
    (functions : Assoc TemplateFunction) (name : String) :
    Shadows separator (fun a b => b = a.map (·.mapText (Text.squeezed separator)))
      (.silent (config.findFunction functions name))
      ((config.withSeparator (some separator)).findFunction
        (functions.mapValues (·.mapText (Text.squeezed separator))) name) := by
  unfold Config.findFunction
  rw [Assoc.get?_mapValues]
  cases functions.get? name with
  | some function => exact fun st st' hst _ => ⟨.ok rfl, hst⟩
  | none =>
    exact onLibrary fun files lib =>
      @Library.sharedFunction_squeezed ⟨config, files⟩ separator hplain lib name

/-- Templates are found in pace, squeezed on the other side. -/
theorem rendered (hplain : config.settings.separator = none) (site : Nat) (file : String)
    (location : Location) :
    Shadows separator (fun a b => b = a.mapText (Text.squeezed separator))
      (.silent (config.rendered site file location))
      ((config.withSeparator (some separator)).rendered site file location) := by
  refine onLibrary fun files lib => ?_
  have hsite := @Library.siteTemplate_squeezed ⟨config, files⟩ separator hplain lib site file
  dsimp only [Context.squeezing] at hsite
  rw [hsite]
  generalize lib.siteTemplate ⟨config, files⟩ site file = found
  obtain ⟨_ | unit, lib⟩ := found <;> rfl

/-- Values are compared as the host has them, which a separator has no part in. -/
theorem anyIs_withSeparator (config : Config) (separator : Option Char) (scope : ScopeId)
    (subject : Value) (es : List Expr) :
    (config.withSeparator separator).anyIs scope subject es = config.anyIs scope subject es := by
  induction es with
  | nil => rfl
  | cons e rest ih =>
    unfold Config.anyIs
    rw [ih]
    rfl

/-- A switch chooses in pace. -/
theorem chooseCase (scope : ScopeId) (subject : Value) (otherwise : Statement)
    (cases : List Case) :
    Shadows separator (fun a b => b = a.mapText (Text.squeezed separator))
      (.chooseCase config scope subject otherwise cases)
      ((config.withSeparator (some separator)).chooseCase scope subject
        (otherwise.mapText (Text.squeezed separator))
        (cases.map (·.mapText (Text.squeezed separator)))) := by
  have P := (Recorded.Faithful.runComposes config).parts scope scope
  have hpure : ∀ s : Statement,
      Shadows separator (fun a b => b = a.mapText (Text.squeezed separator))
        (Pure.pure s) (Pure.pure (s.mapText (Text.squeezed separator))) :=
    fun s st st' hst _ => ⟨.ok rfl, hst⟩
  -- by induction on the cases; their values are the same on both sides
  induction cases with
  | nil => exact hpure otherwise
  | cons c rest ih =>
    obtain ⟨values, body⟩ := c
    rw [List.map_cons, Case.mapText, Config.chooseCase, anyIs_withSeparator]
    refine bind (of_local (P.anyIs subject values) (.anyIs config scope subject values))
      fun hit _ heq => ?_
    subst heq
    split
    · exact hpure body
    · exact ih

/-! ### Statements -/

/-- What a block or a loop is put together from keeps pace. -/
theorem loopsCompose (outer top : ScopeId) :
    LoopsCompose config outer top (Shadows separator Eq) := by
  have P := (Recorded.Faithful.runComposes config).parts outer top
  exact {
    pure := fun a => of_local (P.pure a) (.pure a)
    throw := fun stop => of_local (P.silent (.throw stop)) (.throw stop)
    bind := fun hx hf => bind hx fun a _ hab => hab ▸ hf a
    heap := of_local (P.silent .heap) .heap
    jump := of_local (P.silent .jump) .jump
    onHeap := fun f => of_local (P.silent (.onHeap f)) (.ofEval _)
    takeLoopJump := of_local (@Recorded.Faithful.silent _ _ _ config _) .takeLoopJump
    bindName := fun name v => of_local (P.bindName name v) (.onMemory _)
    collection := fun e => of_local (P.evalOuter ((P.evals outer).eval e)) (.ofEval _)
    outerStatus := of_local P.outerStatus (.outerStatus config top)
    goesOn := fun test => of_local (P.goesOn test) (.goesOn config top test)
    assigns := fun es => of_local (P.assigns .inner es) (.assign config top .inner es) }

/-- Loops only look at the values a host offers, which a separator has no part in. -/
theorem runLoop_withSeparator (config : Config) (separator : Option Char) (fuel : Nat)
    (head : LoopHead) (scope frame : ScopeId) (body : Render Unit) :
    (config.withSeparator separator).runLoop fuel head scope frame body =
      config.runLoop fuel head scope frame body := by
  have hturns : ∀ test update outer fuel index,
      (config.withSeparator separator).countTurns test update frame outer body fuel index =
        config.countTurns test update frame outer body fuel index := by
    intro test update outer fuel
    -- by induction on the fuel, as the turns are counted
    induction fuel with
    | zero => exact fun _ => rfl
    | succ fuel ih =>
      intro index
      unfold Config.countTurns
      simp only [ih]
      rfl
  cases head with
  | each item collection => rfl
  | counting start test update =>
    unfold Config.runLoop
    simp only [hturns]
    rfl

/-! ### Statements -/

/-- To change statements and run them is to run the changed ones. -/
theorem runBlock_map (run : Statement → Render Unit) (k : Statement → Statement)
    (statements : List Statement) :
    runBlock run (statements.map k) = runBlock (fun s => run (k s)) statements := by
  induction statements with
  | nil => rfl
  | cons s rest ih => rw [List.map_cons, runBlock, runBlock, ih]

/-- A statement that is noted is executed. -/
theorem noting {r : Unit → β → Prop} {place : Place} {s : Statement}
    {x : Recorded RenderState Stop Unit} {y : Render β}
    (h : s.OnlyEscapes → Shadows separator r x y) :
    Shadows separator r (.noting (.executed place s) x) y := by
  intro st st' hst hescapes
  obtain ⟨hinner, hlast⟩ := List.forall_mem_append.mp hescapes
  exact h (hlast _ (List.mem_singleton_self _) s rfl) st st' hst hinner

/-- What ends a script of both runs in the same way. -/
theorem stop (bodies : List (Except Error Unit)) (result : Except Error Unit) :
    Shadows separator Eq
      (do Recorded.note fun _ => .directed bodies result; .silent (ofExcept result))
      (ofExcept result) :=
  of_local (@Recorded.Faithful.noted _ _ _ ({} : Config) _ _ _ (.silent _) fun _ => ⟨⟩)
    (.ofExcept result)

/-- The directive that escapes its body keeps pace: escaping does not touch blanks. -/
theorem escape {config' : Config} {x : Recorded RenderState Stop Unit} {act y : Render Unit}
    (h : Shadows separator Eq x y) (hx : x.Faithful config act)
    (hact : Maintains (.trivial config) act) (hy : Maintains (.trivial config') y)
    (scope : ScopeId) (location : Location) (args : List Value) :
    Shadows separator Eq (.runScript config scope x [] (Directive.escape.run location args))
      (Stencil.runScript config' scope y (Directive.escape.run location args)) := by
  unfold Directive.escape
  dsimp only
  split
  -- The texts of the body differ in runs of blanks only, and so do the escaped texts.
  · refine bind (attempt (captured h hx hact hy)) fun r r' hr => ?_
    cases hr with
    | @ok text text' htext =>
      have hwrite : Shadows separator (Agree Eq)
          (.silent (Render.attempt (Render.write (Text.escape text))))
          (Render.attempt (Render.write (Text.escape text'))) := by
        refine attempt (write ?_)
        rw [Text.escape, Text.escape, String.toList_ofList, String.toList_ofList]
        exact htext.escapeChars
      refine bind hwrite fun r r' hr => ?_
      obtain rfl : r = r' := hr.eq
      exact stop _ _
    | error error => exact stop _ _
  · exact stop _ _

/-- **Statements keep pace.** A run of a statement whose literal text is squeezed goes as the run of
the statement itself goes, and what it writes has the same words. -/
theorem exec (hplain : config.settings.separator = none) (hsep : Text.isBlank separator)
    (fuel : Nat) (functions : Assoc TemplateFunction) (s : Statement) (scope : ScopeId)
    (loops : Nat) :
    Shadows separator Eq (.exec config fuel functions s scope loops)
      ((s.mapText (Text.squeezed separator)).exec (config.withSeparator (some separator)) fuel
        (functions.mapValues (·.mapText (Text.squeezed separator))) scope) := by
  -- By induction on the fuel: a statement runs the statements in it, and those of the functions
  -- and files it finds, with less.
  induction fuel generalizing functions s scope loops with
  | zero => exact noting fun _ => (@loopsCompose separator config scope scope).throw _
  | succ fuel ih =>
    have P := (Recorded.Faithful.runComposes config).parts scope scope
    refine noting fun hcustom => ?_
    cases s with
    | nothing => exact of_local (P.pure _) (.pure _)
    | text content =>
      refine write ?_
      rw [Text.squeezed, String.toList_ofList]
      exact Text.respaced_squeeze hsep content.toList
    | output value =>
      refine bind (of_local (P.eval value) (.eval config scope value)) fun v _ hv => ?_
      subst hv
      exact writeValue v
    | condition test yes no =>
      refine bind (of_local (P.holds test) (.holds config scope test)) fun holds _ hholds => ?_
      subst hholds
      split
      · exact ih functions yes scope loops
      · exact ih functions no scope loops
    | loop head body otherwise =>
      unfold Statement.mapText Statement.exec
      refine inFrame (fun frame => ?_) scope
      dsimp only
      rw [runLoop_withSeparator]
      refine bind ((loopsCompose scope frame).runLoop fuel head
        (ih functions body frame (loops + 1))) fun ran _ hran => ?_
      subst hran
      split
      · exact of_local (P.pure _) (.pure _)
      · exact ih functions otherwise frame loops
    | switch subject cases otherwise =>
      rw [Statement.mapText, mapTextCases_eq]
      refine bind (of_local (P.eval subject) (.eval config scope subject)) fun v _ hv => ?_
      subst hv
      refine bind (chooseCase scope v otherwise cases) fun body _ hbody => ?_
      subst hbody
      exact ih functions body scope loops
    | definition name => exact of_local (P.pure _) (.pure _)
    | call callee args ifDefined location =>
      refine bind (of_local (P.calleeName location callee)
        (.calleeName config scope location callee)) fun name _ hname => ?_
      subst hname
      refine bind (findFunction hplain functions name) fun found _ hfound => ?_
      subst hfound
      cases found with
      | none =>
        dsimp only [Option.map_none]
        split
        · exact of_local (P.pure _) (.pure _)
        · exact of_local (P.silent (.throw _)) (.throw _)
      | some function =>
        -- The function takes the same arguments as the one with squeezed text.
        refine bind (of_local (P.arguments function args location)
          (.arguments config scope function args location)) fun values _ hvalues => ?_
        subst hvalues
        refine confined (fun frame => ?_) scope
        have P := (Recorded.Faithful.runComposes config).parts scope frame
        exact bind (of_local (P.bindAll _) (.bindAll frame _)) fun _ _ _ =>
          ih functions function.body frame 0
    | inlined assignments body =>
      unfold Statement.mapText Statement.exec
      refine confined (fun frame => ?_) scope
      have P := (Recorded.Faithful.runComposes config).parts scope frame
      exact bind (of_local (P.assigns .inner assignments) (.assign config frame .inner assignments))
        fun _ _ _ => ih functions body frame 0
    | render file assignments site location =>
      refine bind (rendered hplain site file location) fun unit _ hunit => ?_
      subst hunit
      refine confined (fun frame => ?_) scope
      have P := (Recorded.Faithful.runComposes config).parts scope frame
      exact bind (of_local (P.assigns .inner assignments) (.assign config frame .inner assignments))
        fun _ _ _ => ih unit.functions unit.body frame 0
    | assign policy assignments =>
      exact of_local (P.assigns policy assignments) (.assign config scope policy assignments)
    | jump kind => exact of_local (@Recorded.Faithful.silent _ _ _ config _) (.setJump kind)
    | custom directive args body location =>
      -- The moment of this statement is in the record, so it is the directive that escapes.
      obtain rfl : directive = .escape := hcustom
      refine bind (of_local (P.evalAll args)
        (.evalAll config scope args)) fun values _ hvalues => ?_
      subst hvalues
      exact escape (ih functions body scope loops)
        (Recorded.exec_faithful config fuel functions body scope loops)
        (body.exec_maintains _ fuel functions scope)
        (Statement.exec_maintains (.trivial (config.withSeparator (some separator))) fuel _ _ scope)
        scope location values
    | block statements =>
      have hpace := (@loopsCompose separator config scope scope).runBlock
        fun s (_ : s ∈ statements) => ih functions s scope loops
      rw [← runBlock_map (fun s => s.exec _ fuel _ scope)] at hpace
      rw [Statement.mapText, mapTextAll_eq]
      exact hpace

end Shadows

/-- **Renders keep pace.** A render of a template whose literal text is squeezed goes as the render
of the template itself goes, and what it writes has the same words. -/
theorem Compiled.shadows {separator : Char} {config : Config}
    (hplain : config.settings.separator = none) (hsep : Text.isBlank separator) (fuel : Nat)
    (unit : Compiled) :
    Shadows separator Eq (unit.recorded config fuel)
      ((unit.mapText (Text.squeezed separator)).render (config.withSeparator (some separator))
        fuel) :=
  Shadows.bind (.exec hplain hsep fuel unit.functions unit.body 0 0) fun _ _ _ =>
    .onOutput fun ho => ho.flush

end Stencil
