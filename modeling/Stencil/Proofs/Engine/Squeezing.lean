import Stencil.Proofs.Engine.EntryPoints
import Stencil.Proofs.Render.Squeezing

/-!
# Squeezing keeps the words

Two engines differ in nothing but that one of them squeezes literal text, with a blank as its
separator, and the same happens to both. Then they stay apart by this text alone: the engine that
squeezes is what the other one would be, were all that it has compiled squeezed (`Engine.squeezed`,
`Session.run_squeezed`). So both compile the same templates, their renders have the same result, and
the words of the outputs, which are what blanks leave of them, are the same in the same order. This
includes the words that literal text and the values of expressions make up together.

Custom directives are handed the text of their bodies and may do with its blanks as they like, so
nothing is said of renders that execute another one than the one that escapes its body. There are no
such renders if the configuration knows no other directive (`Session.Made.escapesOnly`). A sink that
refuses something may refuse it to one of the two engines only, and a render into a file may read
what has been written to it. So the renders are to sinks that refuse nothing.

Main definitions: `Engine.squeezed`, `Engine.EscapesOnly`, `Session.Calm`.
Main statements: `Session.run_squeezed`, `Session.squeezing_keeps_words`.
-/

namespace Stencil

/-! ### Engines that squeeze literal text -/

/-- A template with its literal text squeezed. -/
def Template.squeezed (separator : Char) (t : Template) : Template :=
  { t with unit := t.unit.mapText (Text.squeezed separator) }

namespace Engine

/-- An engine with all the literal text that it has compiled squeezed, which squeezes literal text
from now on. -/
def squeezed (separator : Char) (engine : Engine) : Engine :=
  { engine with
    config := engine.config.withSeparator (some separator)
    library := engine.library.mapText (Text.squeezed separator)
    cache := engine.cache.mapValues (·.squeezed separator) }

/-- An answer of an engine, with its literal text squeezed. -/
def squeezedAnswer (separator : Char) (r : Template × Engine) : Template × Engine :=
  (r.1.squeezed separator, r.2.squeezed separator)

variable {engine : Engine} {separator : Char} (files : Files)

/-- A squeezed engine has the same in its cache, squeezed. -/
theorem cached?_squeezed (key : String) :
    (engine.squeezed separator).cached? files key =
      (engine.cached? files key).map (·.squeezed separator) := by
  have hget : (engine.squeezed separator).cache.get? key =
      (engine.cache.get? key).map (·.squeezed separator) := Assoc.get?_mapValues ..
  unfold cached?
  rw [hget]
  cases engine.cache.get? key with
  | none => rfl
  | some t =>
    -- whether a template is modified does not depend on its text
    change (if engine.config.settings.devMode && t.isModified files then none else _) =
      Option.map _ (if engine.config.settings.devMode && t.isModified files then none else _)
    split <;> rfl

/-- To evict a key and to squeeze commute. -/
theorem evict_squeezed (key : String) :
    (engine.squeezed separator).evict key = (engine.evict key).squeezed separator := by
  have herase : (engine.squeezed separator).cache.erase key =
      (engine.cache.erase key).mapValues (·.squeezed separator) := Assoc.erase_mapValues ..
  unfold evict
  rw [herase]
  rfl

section Compiling

variable (hplain : engine.config.settings.separator = none)

include hplain

/-- A squeezed engine compiles the same, squeezed. -/
theorem compile_squeezed (source : Source) :
    (engine.squeezed separator).compile files source =
      (engine.compile files source).map (squeezedAnswer separator) := by
  have hcompile := @Library.compile_squeezed (engine.context files) separator hplain engine.library
    source
  unfold compile
  change (engine.library.mapText (Text.squeezed separator)).compile
    ((engine.context files).squeezing separator) source >>= _ = _
  rw [hcompile]
  cases engine.library.compile (engine.context files) source with
  | error e => rfl
  | ok r => rfl

/-- Likewise with the cache: what goes into it is squeezed. -/
theorem compileInto_squeezed (key : String) (source : Source) :
    (engine.squeezed separator).compileInto files key source =
      (engine.compileInto files key source).map (squeezedAnswer separator) := by
  unfold compileInto
  rw [compile_squeezed files hplain]
  cases engine.compile files source with
  | error e => rfl
  -- the new entry is squeezed like those that were there
  | ok r =>
    have hinsert : (r.2.squeezed separator).cache.insert key (r.1.squeezed separator) =
        (r.2.cache.insert key r.1).mapValues (·.squeezed separator) := Assoc.insert_mapValues ..
    refine congrArg Except.ok (Prod.ext rfl ?_)
    change ({ r.2.squeezed separator with
      cache := (r.2.squeezed separator).cache.insert key (r.1.squeezed separator) } : Engine) = _
    rw [hinsert]
    rfl

/-- A request for a source has the same answer, squeezed. -/
theorem getBySource_squeezed (source : Source) :
    (engine.squeezed separator).getBySource files source =
      (engine.getBySource files source).map (squeezedAnswer separator) := by
  unfold getBySource
  cases source.cacheKey? with
  | none => exact compile_squeezed files hplain source
  | some key =>
    dsimp only
    rw [cached?_squeezed]
    cases engine.cached? files key with
    -- a template of the cache is squeezed as it stands there
    | some t => rfl
    | none => exact compileInto_squeezed files hplain key source

/-- So has a request for a file. -/
theorem getTemplate_squeezed (name : String) :
    (engine.squeezed separator).getTemplate files name =
      (engine.getTemplate files name).map (squeezedAnswer separator) := by
  unfold getTemplate
  rw [cached?_squeezed]
  cases engine.cached? files name with
  -- the cache answers alike
  | some t => rfl
  | none =>
    -- otherwise the same file is opened, and compiled into both caches
    change engine.openSource files name >>= _ = Except.map _ (engine.openSource files name >>= _)
    cases engine.openSource files name with
    | error e => rfl
    | ok source => exact compileInto_squeezed files hplain name source

/-- A squeezed engine shares the same functions, squeezed. -/
theorem share_squeezed (source : Source) :
    (engine.squeezed separator).share files source =
      (engine.share files source).map (·.squeezed separator) := by
  have hshare := @Library.share_squeezed (engine.context files) separator hplain engine.library
    source
  unfold share
  change (engine.library.mapText (Text.squeezed separator)).share
    ((engine.context files).squeezing separator) source >>= _ = _
  rw [hshare]
  cases engine.library.share (engine.context files) source with
  | error e => rfl
  | ok library => rfl

/-- So it does by the name of a file. -/
theorem shareFile_squeezed (name : String) :
    (engine.squeezed separator).shareFile files name =
      (engine.shareFile files name).map (·.squeezed separator) := by
  unfold shareFile
  change engine.openSource files name >>= _ = Except.map _ (engine.openSource files name >>= _)
  cases engine.openSource files name with
  | error e => rfl
  | ok source => exact share_squeezed files hplain source

end Compiling

/-! ### Renders -/

/-- A render executes no custom directive but the one that escapes its body. -/
def EscapesOnly (engine : Engine) (files : Files) (fuel : Nat) (t : Template) (data : Assoc Value)
    (heap : Heap) (output : Output) : Prop :=
  (t.unit.recorded engine.config fuel).EscapesOnly
    ⟨⟨heap, .ofData data, {}⟩, output, engine.library, files⟩

/-- A render of a squeezed template goes as the render of the template itself goes, and what it
writes has the same words. -/
theorem render_squeezed (hplain : engine.config.settings.separator = none)
    (hsep : Text.isBlank separator) {fuel : Nat} {t : Template} {data : Assoc Value} {heap : Heap}
    {output : Output} (hsteady : output.Steady) (hdisk : ¬ output.OnDisk)
    (hescapes : engine.EscapesOnly files fuel t data heap output) :
    let plain := engine.render files fuel t data heap output
    let squeezed := (engine.squeezed separator).render files fuel (t.squeezed separator) data heap
      output
    squeezed.result = plain.result ∧ squeezed.heap = plain.heap ∧ squeezed.files = plain.files ∧
      squeezed.engine = plain.engine.squeezed separator ∧
      plain.output.Respaced squeezed.output := by
  intro plain squeezed
  -- The renders begin with the same memory and the same output.
  have hbegin : InPace separator ⟨⟨heap, .ofData data, {}⟩, output, engine.library, files⟩
      ⟨⟨heap, .ofData data, {}⟩, output, engine.library.mapText (Text.squeezed separator), files⟩ :=
    ⟨rfl, rfl, rfl, .refl hsteady hdisk⟩
  obtain ⟨hresult, hafter⟩ := Compiled.shadows hplain hsep fuel t.unit _ _ hbegin hescapes
  -- What is said of the record of a render goes over to the render itself.
  rw [(t.unit.recorded_faithful engine.config fuel).outcome] at hresult hafter
  have hengine : squeezed.engine = plain.engine.squeezed separator :=
    congrArg (fun library => { engine.squeezed separator with library }) hafter.library
  exact ⟨hresult.eq.symm, congrArg Memory.heap hafter.memory, hafter.files, hengine, hafter.output⟩

end Engine

/-! ### Sessions -/

/-- An event that is no render, or a render to a sink that refuses nothing. -/
def Event.RefusesNothing : Event → Prop
  | .render _ _ _ _ output => output.Steady ∧ ¬ output.OnDisk
  | .renderToFile .. => False
  | _ => True

namespace Session

/-- A session of an engine that squeezes literal text. -/
def squeezed (separator : Char) (s : Session) : Session where
  engine := s.engine.squeezed separator
  files := s.files
  handed := s.handed.map (·.squeezed separator)

/-- An event refuses nothing in a session, and if it is a render, it executes no custom directive
but the one that escapes its body. -/
def CalmAt (s : Session) (e : Event) : Prop :=
  e.RefusesNothing ∧ match e with
    | .render template fuel data heap output =>
      ∀ t ∈ s.handed[template]?, s.engine.EscapesOnly s.files fuel t data heap output
    | _ => True

/-- So it is for all events of a session, one after the other. -/
def Calm (s : Session) : List Event → Prop
  | [] => True
  | e :: rest => s.CalmAt e ∧ (s.step e).Calm rest

variable {s : Session} {separator : Char}

/-- The squeezed start is the start with a separator. -/
theorem start_squeezed (name : String) (config : Config) (files : Files) :
    (start name config files).squeezed separator =
      start name (config.withSeparator (some separator)) files := by
  have hlibrary : ({} : Library).mapText (Text.squeezed separator) = {} :=
    congrArg (Library.mk {}) Array.map_empty
  exact congrArg (fun library => Session.mk
    { name, config := config.withSeparator (some separator), library } files []) hlibrary

/-- A session takes squeezed answers to squeezed templates. -/
theorem take_squeezed (r : Except Error (Template × Engine)) :
    (s.squeezed separator).take (r.map (Engine.squeezedAnswer separator)) =
      (s.take r).squeezed separator := by
  cases r with
  | error e => rfl
  | ok r =>
    have hhanded : (s.handed ++ [r.1]).map (·.squeezed separator) =
        s.handed.map (·.squeezed separator) ++ [r.1.squeezed separator] := List.map_append
    exact congrArg (Session.mk (r.2.squeezed separator) s.files) hhanded.symm

/-- Likewise for a request to share functions. -/
theorem adopt_squeezed (r : Except Error Engine) :
    (s.squeezed separator).adopt (r.map (·.squeezed separator)) =
      (s.adopt r).squeezed separator := by
  cases r <;> rfl

/-- What a calm event makes of a session does not depend on whether literal text is squeezed, but
for the text itself. -/
theorem step_squeezed (hplain : s.engine.config.settings.separator = none)
    (hsep : Text.isBlank separator) {e : Event} (he : s.CalmAt e) :
    (s.squeezed separator).step e = (s.step e).squeezed separator := by
  cases e with
  -- The files know nothing of engines.
  | store name content => rfl
  | remove name => rfl
  | write path content => rfl
  | delete path => rfl
  | get name =>
    change (s.squeezed separator).take ((s.engine.squeezed separator).getTemplate s.files name) = _
    rw [Engine.getTemplate_squeezed s.files hplain]
    exact take_squeezed _
  | getText content cached =>
    change (s.squeezed separator).take ((s.engine.squeezed separator).getBySource s.files _) = _
    rw [Engine.getBySource_squeezed s.files hplain]
    exact take_squeezed _
  | evict key => exact congrArg (Session.mk · s.files _) (Engine.evict_squeezed key)
  | clear => rfl
  | shareFile name =>
    change (s.squeezed separator).adopt ((s.engine.squeezed separator).shareFile s.files name) = _
    rw [Engine.shareFile_squeezed s.files hplain]
    exact adopt_squeezed _
  | shareText content =>
    change (s.squeezed separator).adopt ((s.engine.squeezed separator).share s.files _) = _
    rw [Engine.share_squeezed s.files hplain]
    exact adopt_squeezed _
  | render template fuel data heap output =>
    obtain ⟨⟨hsteady, hdisk⟩, hescapes⟩ := he
    have hget : (s.squeezed separator).handed[template]? =
        s.handed[template]?.map (·.squeezed separator) := List.getElem?_map
    change (s.squeezed separator).rendered template _ = (s.rendered template _).squeezed separator
    unfold rendered
    rw [hget]
    cases ht : s.handed[template]? with
    | none => rfl
    | some t =>
      -- A render leaves the same files, and an engine whose library is squeezed.
      obtain ⟨-, -, hfiles, hengine, -⟩ :=
        Engine.render_squeezed s.files hplain hsep hsteady hdisk (hescapes t ht)
      dsimp only [Option.map_some]
      rw [show (s.squeezed separator).engine = s.engine.squeezed separator from rfl,
        show (s.squeezed separator).files = s.files from rfl, hfiles, hengine]
      rfl
  | renderToFile template fuel data heap path => exact he.1.elim

/-- **Engines that squeeze keep pace.** What calm events make of a session does not depend on
whether literal text is squeezed, but for the text itself. -/
theorem run_squeezed {config : Config} (hmade : s.Made config)
    (hplain : config.settings.separator = none) (hsep : Text.isBlank separator)
    {events : List Event} (h : s.Calm events) :
    (s.squeezed separator).run events = (s.run events).squeezed separator := by
  induction events generalizing s with
  | nil => rfl
  | cons e rest ih =>
    obtain ⟨he, hrest⟩ := h
    change ((s.squeezed separator).step e).run rest = ((s.step e).run rest).squeezed separator
    rw [step_squeezed (hmade.settled ▸ hplain) hsep he]
    exact ih (hmade.step e) hrest

/-! ### Engines that know no other directive -/

section Known

variable {config : Config} (hknows : ∀ directive, config.Knows directive → directive = .escape)

include hknows

/-- In a session of a configuration that knows no custom directive but the one that escapes its
body, no other is executed. -/
theorem Made.escapesOnly (hmade : s.Made config) {t : Template} (ht : t ∈ s.handed)
    (files : Files) (fuel : Nat) (data : Assoc Value) (heap : Heap) (output : Output) :
    s.engine.EscapesOnly files fuel t data heap output := by
  intro moment hmoment statement hstatement
  cases statement with
  | custom directive args body location =>
    refine hknows directive ?_
    rw [hmade.settled] at hmoment
    exact (hmade.handed ht).executes_known fuel hmade.library moment hmoment directive args body
      location hstatement
  | _ => exact ⟨⟩

/-- In such a session all events are calm but renders to files and to sinks that refuse some
piece. -/
theorem Made.calm (hmade : s.Made config) {events : List Event}
    (h : ∀ e ∈ events, e.RefusesNothing) : s.Calm events := by
  induction events generalizing s with
  | nil => exact ⟨⟩
  | cons e rest ih =>
    obtain ⟨he, hrest⟩ := List.forall_mem_cons.mp h
    -- the events before keep what was made for the configuration
    refine ⟨⟨he, ?_⟩, ih (hmade.step e) hrest⟩
    cases e with
    | render template fuel data heap output =>
      intro t ht
      exact hmade.escapesOnly hknows (List.mem_of_getElem? ht) s.files fuel data heap output
    | _ => exact ⟨⟩

end Known

/-! ### Words -/

/-- **Squeezing keeps the words.** Take two engines with the same configuration, but that one of
them squeezes literal text with a blank as its separator and the other one does not squeeze it, and
let the same happen to both: any requests, changes of the files and calm renders.

* What one of them does not compile, the other one does not compile either, with the same error.
* Take a template that one of them has handed out and the one that the other engine has handed out
  in its place. Renders of the two with equal data, which execute no custom directive but the one
  that escapes its body, have the same result and leave the same heap. If they go well, the outputs
  have the same words in the same order. -/
theorem squeezing_keeps_words {name : String} {config : Config} {files : Files} {separator : Char}
    (hsep : Text.isBlank separator) {events : List Event}
    (hcalm : (start name (config.withSeparator none) files).Calm events) {s s' : Session}
    (hs : s = (start name (config.withSeparator none) files).run events)
    (hs' : s' = (start name (config.withSeparator (some separator)) files).run events) :
    (∀ file error, s'.engine.getTemplate s'.files file = .error error ↔
      s.engine.getTemplate s.files file = .error error) ∧
    (∀ source error, s'.engine.getBySource s'.files source = .error error ↔
      s.engine.getBySource s.files source = .error error) ∧
    s'.handed.length = s.handed.length ∧
    ∀ (i : Nat) (t t' : Template), s.handed[i]? = some t → s'.handed[i]? = some t' →
      ∀ (fuel : Nat) (data : Assoc Value) (heap : Heap) (output : Output), output.Steady →
        ¬ output.OnDisk → s.engine.EscapesOnly s.files fuel t data heap output →
          let plain := s.engine.render s.files fuel t data heap output
          let squeezed := s'.engine.render s'.files fuel t' data heap output
          squeezed.result = plain.result ∧ squeezed.heap = plain.heap ∧
            (plain.result = .ok () →
              Text.words squeezed.output.received.toList =
                Text.words plain.output.received.toList) := by
  have hmade := made_run name (config.withSeparator none) files events
  -- The second session is the first one with all its literal text squeezed.
  have hpace : s' = s.squeezed separator := by
    rw [hs, hs', ← run_squeezed (.start name _ files) rfl hsep hcalm, start_squeezed]
    rfl
  rw [← hs] at hmade
  have hplain : s.engine.config.settings.separator = none := hmade.settled ▸ rfl
  subst hpace
  have hfails (r : Except Error (Template × Engine)) (error : Error) :
      r.map (Engine.squeezedAnswer separator) = .error error ↔ r = .error error := by
    cases r with
    | error e => exact Iff.rfl
    | ok r => exact ⟨nofun, nofun⟩
  refine ⟨fun file error => ?_, fun source error => ?_, List.length_map .., ?_⟩
  · change (s.engine.squeezed separator).getTemplate s.files file = _ ↔ _
    rw [Engine.getTemplate_squeezed s.files hplain]
    exact hfails _ error
  · change (s.engine.squeezed separator).getBySource s.files source = _ ↔ _
    rw [Engine.getBySource_squeezed s.files hplain]
    exact hfails _ error
  · intro i t t' ht ht' fuel data heap output hsteady hdisk hescapes plain squeezed
    obtain rfl : t.squeezed separator = t' := by
      have hget : (s.handed.map (·.squeezed separator))[i]? = some (t.squeezed separator) := by
        rw [List.getElem?_map, ht]
        rfl
      exact Option.some.inj (hget.symm.trans ht')
    obtain ⟨hresult, hheap, -, -, hoffset⟩ :=
      Engine.render_squeezed s.files hplain hsep hsteady hdisk hescapes
    refine ⟨hresult, hheap, fun hok => ?_⟩
    -- A render that ends well holds nothing back.
    have hwords := hoffset.text.words_eq
    rw [Engine.render_held hok, Engine.render_held (hresult.trans hok), String.append_empty,
      String.append_empty] at hwords
    exact hwords.symm

/-- Text in several lines beside a value with blanks of its own, and a body that is escaped. -/
theorem squeezing_keeps_words_escaped :
    let events := [.getText "one \n\n\ttwo#(x)three\n#escape() <four \n  five>#end|" false,
      .render 0 20 .empty {} .unlimited]
    let s := (start "" (({} : Config).withSeparator none) {}).run events
    let s' := (start "" (({} : Config).withSeparator (some ' ')) {}).run events
    let data := Assoc.empty.insert "x" (.str " 1\n2")
    ∃ t ∈ s.handed[0]?, ∃ t' ∈ s'.handed[0]?,
      let plain := s.engine.render s.files 20 t data {} .unlimited
      let squeezed := s'.engine.render s'.files 20 t' data {} .unlimited
      plain.output.received = "one \n\n\ttwo 1\n2three\n &lt;four \n  five&gt;|" ∧
        squeezed.output.received = "one two 1\n2three  &lt;four five&gt;|" ∧
        Text.words squeezed.output.received.toList = Text.words plain.output.received.toList := by
  intro events s s' data
  have hplain : ∃ t ∈ s.handed[0]?,
      let plain := s.engine.render s.files 20 t data {} .unlimited
      plain.result.isOk ∧
        plain.output.received = "one \n\n\ttwo 1\n2three\n &lt;four \n  five&gt;|" := by
    decide +kernel
  have hsqueezed : ∃ t' ∈ s'.handed[0]?,
      (s'.engine.render s'.files 20 t' data {} .unlimited).output.received =
        "one two 1\n2three  &lt;four five&gt;|" := by
    decide +kernel
  obtain ⟨t, ht, hok, hreceived⟩ := hplain
  obtain ⟨t', ht', hreceived'⟩ := hsqueezed
  have hsteady : Output.unlimited.Steady ∧ ¬ Output.unlimited.OnDisk := ⟨⟨rfl, fun _ => rfl⟩, id⟩
  have hrefuse : ∀ e ∈ events, e.RefusesNothing :=
    List.forall_mem_cons.mpr ⟨⟨⟩, List.forall_mem_singleton.mpr hsteady⟩
  have hknows : ∀ directive, (({} : Config).withSeparator none).Knows directive →
      directive = .escape := fun _ => Config.eq_escape_of_knows
  have hmade : s.Made (({} : Config).withSeparator none) := made_run _ _ _ events
  have hblank : Text.isBlank ' ' := by decide +kernel
  obtain ⟨-, -, -, hrenders⟩ :=
    squeezing_keeps_words hblank ((Made.start "" _ {}).calm hknows hrefuse) rfl rfl
  obtain ⟨-, -, hwords⟩ := hrenders 0 t t' ht ht' 20 data {} .unlimited hsteady.1 hsteady.2
    (hmade.escapesOnly hknows (List.mem_of_getElem? ht) s.files 20 data {} .unlimited)
  refine ⟨t, ht, t', ht', hreceived, hreceived', hwords ?_⟩
  cases hresult : (s.engine.render s.files 20 t data {} .unlimited).result with
  | ok => rfl
  | error stop =>
    rw [hresult] at hok
    cases hok
end Session

end Stencil
