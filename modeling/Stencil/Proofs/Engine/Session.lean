import Stencil.Engine
import Stencil.Proofs.Render.Warm

/-!
# Sessions

A session is an engine with its files and with the templates that it has handed out. What can happen
to it is an `Event`: the files change, the engine is asked for a template or for shared functions, a
template drops out of the cache, or a template that was handed out at any earlier time is rendered,
to any output. A failing request leaves the engine as it was.

What an engine remembers is compiled with its own configuration, in every session
(`Session.made_run`), so it holds directives of this configuration only (`Session.draws_run`). A
session that does nothing but render leaves its library warm (`Session.warm_run`).

Main definitions: `Session`, `Event`, `Session.run`.
-/

namespace Stencil

/-- What can happen to an engine and its files. -/
inductive Event where
  /-- Stores a text in memory, under a new name or in place of another text. -/
  | store (name content : String)
  /-- Removes a name from memory. -/
  | remove (name : String)
  /-- Writes a file on disk. -/
  | write (path content : String)
  /-- Removes a file from disk. -/
  | delete (path : String)
  /-- Asks for the template of a file. -/
  | get (name : String)
  /-- Asks for the template of a string. -/
  | getText (content : String) (cached : Bool)
  /-- Drops a template from the cache. -/
  | evict (key : String)
  /-- Empties the cache. -/
  | clear
  /-- Shares the functions of a file. -/
  | shareFile (name : String)
  /-- Shares the functions of a string. -/
  | shareText (content : String)
  /-- Renders the template that was handed out under a number. -/
  | render (template fuel : Nat) (data : Assoc Value) (heap : Heap) (output : Output)
  /-- Renders the template that was handed out under a number into a file. -/
  | renderToFile (template fuel : Nat) (data : Assoc Value) (heap : Heap) (path : String)

/-- An event that renders to a sink. -/
def Event.RendersToSink : Event → Prop
  | .render _ _ _ _ output => ¬ output.OnDisk
  | _ => False

/-- An engine with its files and the templates it has handed out, the first one first. -/
structure Session where
  engine : Engine
  files : Files
  handed : List Template

namespace Session

/-- A session that has just begun. -/
def start (name : String) (config : Config) (files : Files) : Session :=
  ⟨{ name, config }, files, []⟩

variable (s : Session)

/-- Takes a template and the engine behind it, or neither. -/
def take : Except Error (Template × Engine) → Session
  | .ok (t, engine) => { s with engine, handed := s.handed ++ [t] }
  | .error _ => s

/-- Takes an engine that shares more functions, if there is one. -/
def adopt : Except Error Engine → Session
  | .ok engine => { s with engine }
  | .error _ => s

/-- What a render of a template leaves of a session. -/
def rendered (template : Nat) (render : Template → Rendered) : Session :=
  match s.handed[template]? with
  | some t => { s with engine := (render t).engine, files := (render t).files }
  | none => s

/-- What an event makes of a session. -/
def step : Event → Session
  | .store name content =>
    { s with files := { s.files with memory := s.files.memory.insert name content } }
  | .remove name => { s with files := { s.files with memory := s.files.memory.remove name } }
  | .write path content =>
    { s with files :=
      { s.files with disk := (s.files.disk.write path content).getD s.files.disk } }
  | .delete path =>
    { s with files := { s.files with disk := (s.files.disk.remove path).getD s.files.disk } }
  | .get name => s.take (s.engine.getTemplate s.files name)
  | .getText content cached => s.take (s.engine.getByString s.files content cached)
  | .evict key => { s with engine := s.engine.evict key }
  | .clear => { s with engine := s.engine.clearCache }
  | .shareFile name => s.adopt (s.engine.shareFile s.files name)
  | .shareText content => s.adopt (s.engine.shareString s.files content)
  | .render template fuel data heap output =>
    s.rendered template fun t => s.engine.render s.files fuel t data heap output
  | .renderToFile template fuel data heap path =>
    s.rendered template fun t => s.engine.renderToFile s.files fuel t data heap path

/-- What events make of a session, one after the other. -/
def run (events : List Event) : Session := events.foldl step s

variable {s}

/-- What every event keeps holds at the end of a session, if it holds at the beginning. -/
theorem run_induct {I : Session → Prop} {P : Event → Prop}
    (hstep : ∀ {s e}, P e → I s → I (s.step e)) (hs : I s) {events : List Event}
    (hevents : ∀ e ∈ events, P e) : I (s.run events) := by
  induction events generalizing s with
  | nil => exact hs
  | cons e rest ih =>
    have he : P e := hevents e (List.mem_cons_self ..)
    exact ih (hstep he hs) fun e' he' => hevents e' (List.mem_cons_of_mem _ he')

/-! ### Directives -/

/-- Everything that an engine has compiled holds directives of its configuration only. -/
structure Draws (config : Config) (s : Session) : Prop where
  settled : s.engine.config = config
  library : s.engine.library.Draws config
  cache : ∀ {key t}, s.engine.cache.get? key = some t → t.unit.Draws config
  handed : ∀ {t}, t ∈ s.handed → t.unit.Draws config

/-- Everything that an engine has compiled is compiled with its configuration. -/
structure Made (config : Config) (s : Session) : Prop where
  settled : s.engine.config = config
  library : s.engine.library.Made config
  cache : ∀ {key t}, s.engine.cache.get? key = some t → t.unit.Made config
  handed : ∀ {t}, t ∈ s.handed → t.unit.Made config

/-- What was made for a configuration draws its numbers in order. -/
theorem Made.draws {config : Config} (h : s.Made config) : s.Draws config :=
  ⟨h.settled, h.library.draws, fun hget => (h.cache hget).draws, fun ht => (h.handed ht).draws⟩

end Session

/-! ### Engines and their libraries -/

/-- The library behind a render is one that the statements of the template have made. -/
theorem Engine.render_maintains {engine : Engine} {files : Files}
    (L : LibraryInvariant engine.config) (O : OutputInvariant L.files) (fuel : Nat) (t : Template)
    (data : Assoc Value) (heap : Heap) {output : Output} (hfiles : L.files files)
    (hlibrary : L.holds engine.library) (houtput : O.holds output) :
    L.files (engine.render files fuel t data heap output).files ∧
      L.holds (engine.render files fuel t data heap output).engine.library ∧
      O.holds (engine.render files fuel t data heap output).output := by
  have hheld := t.unit.render_maintains L fuel O ⟨⟨heap, .ofData data, {}⟩, output,
    engine.library, files⟩ ⟨hfiles, hlibrary, houtput⟩
  exact ⟨hheld.files, hheld.library, hheld.output⟩

/-- What a compilation changes of an engine. -/
theorem Engine.compile_eq_ok {engine : Engine} {files : Files} {source : Source}
    {r : Template × Engine} (h : engine.compile files source = .ok r) :
    ∃ unit library, engine.library.compile (engine.context files) source = .ok (unit, library) ∧
      r = (⟨engine.nextTemplate, source.fileName?, unit⟩,
        { engine with library, nextTemplate := engine.nextTemplate + 1 }) := by
  obtain ⟨⟨unit, library⟩, hunit, hr⟩ := bind_eq_ok_iff.mp h
  exact ⟨unit, library, hunit, (Except.ok.inj hr).symm⟩

/-- What is compiled into the cache is compiled, and stands in the cache under its key. -/
theorem Engine.compileInto_eq_ok {engine : Engine} {files : Files} {key : String} {source : Source}
    {r : Template × Engine} (h : engine.compileInto files key source = .ok r) :
    ∃ engine', engine.compile files source = .ok (r.1, engine') ∧
      r.2 = { engine' with cache := engine'.cache.insert key r.1 } := by
  obtain ⟨⟨t, engine'⟩, hcompile, hr⟩ := bind_eq_ok_iff.mp h
  obtain rfl := Except.ok.inj hr
  exact ⟨engine', hcompile, rfl⟩

/-- What the cache answers is in it, and not modified in development mode. -/
theorem Engine.cached?_eq_some {engine : Engine} {files : Files} {key : String} {t : Template}
    (h : engine.cached? files key = some t) : engine.cache.get? key = some t ∧
      (engine.config.settings.devMode && t.isModified files) = false := by
  unfold Engine.cached? at h
  split at h
  · rename_i kept hkept
    split at h
    · cases h
    · rename_i hmod
      obtain rfl := Option.some.inj h
      exact ⟨hkept, Bool.eq_false_iff.mpr hmod⟩
  · cases h

/-- What a request for a file changes of an engine: nothing, or what its compilation changes. -/
theorem Engine.getTemplate_eq_ok {engine : Engine} {files : Files} {name : String}
    {r : Template × Engine} (h : engine.getTemplate files name = .ok r) :
    (engine.cached? files name = some r.1 ∧ r.2 = engine) ∨
    (engine.cached? files name = none ∧ ∃ source, engine.openSource files name = .ok source ∧
      engine.compileInto files name source = .ok r) := by
  unfold Engine.getTemplate at h
  split at h
  · rename_i t ht
    obtain rfl := (Except.ok.inj h).symm
    exact .inl ⟨ht, rfl⟩
  · rename_i hnone
    exact .inr ⟨hnone, bind_eq_ok_iff.mp h⟩

/-- What a request for a source changes of an engine. -/
theorem Engine.getBySource_eq_ok {engine : Engine} {files : Files} {source : Source}
    {r : Template × Engine} (h : engine.getBySource files source = .ok r) :
    engine.compile files source = .ok r ∨
    (∃ key, engine.cached? files key = some r.1 ∧ r.2 = engine) ∨
    ∃ key, engine.compileInto files key source = .ok r := by
  unfold Engine.getBySource at h
  split at h
  · exact .inl h
  · rename_i key _
    split at h
    · rename_i t ht
      obtain rfl := (Except.ok.inj h).symm
      exact .inr (.inl ⟨key, ht, rfl⟩)
    · exact .inr (.inr ⟨key, h⟩)

namespace Session

variable {config : Config} {s : Session}

/-- A new session was made for its configuration. -/
theorem Made.start (name : String) (config : Config) (files : Files) :
    Made config (.start name config files) where
  settled := rfl
  library := .empty config
  cache h := nomatch h
  handed h := nomatch h

/-- What is handed out is compiled like everything else. -/
theorem Made.take (h : s.Made config) {r : Except Error (Template × Engine)}
    (hr : ∀ {t engine}, r = .ok (t, engine) → t.unit.Made config ∧ engine.config = config ∧
      engine.library.Made config ∧
      ∀ {key t'}, engine.cache.get? key = some t' → t'.unit.Made config) :
    (s.take r).Made config := by
  cases r with
  | error e => exact h
  | ok q =>
    obtain ⟨ht, hconfig, hlibrary, hcache⟩ := hr rfl
    refine ⟨hconfig, hlibrary, hcache, fun {t} hmem => ?_⟩
    rcases List.mem_append.mp hmem with hold | hnew
    · exact h.handed hold
    · rw [List.mem_singleton.mp hnew]
      exact ht

/-- What is compiled was made for the configuration, and the cache does not change. -/
theorem Made.compile (h : s.Made config) {source : Source} {r : Template × Engine}
    (hr : s.engine.compile s.files source = .ok r) : r.1.unit.Made config ∧
      r.2.config = config ∧ r.2.library.Made config ∧ r.2.cache = s.engine.cache := by
  obtain ⟨unit, library, hunit, rfl⟩ := Engine.compile_eq_ok hr
  have hctx : (s.engine.context s.files).config = config := h.settled
  have hlibrary := h.library
  rw [← hctx] at hlibrary
  obtain ⟨hu, hl⟩ := hlibrary.compile hunit
  rw [hctx] at hu hl
  exact ⟨hu, h.settled, hl, rfl⟩

/-- Likewise for what is compiled into the cache. -/
theorem Made.compileInto (h : s.Made config) {key : String} {source : Source}
    {r : Template × Engine} (hr : s.engine.compileInto s.files key source = .ok r) :
    r.1.unit.Made config ∧ r.2.config = config ∧ r.2.library.Made config ∧
      ∀ {key' t}, r.2.cache.get? key' = some t → t.unit.Made config := by
  obtain ⟨engine', hcompile, hengine⟩ := Engine.compileInto_eq_ok hr
  obtain ⟨hu, hconfig, hlibrary, hcache⟩ := h.compile hcompile
  rw [hengine]
  refine ⟨hu, hconfig, hlibrary, fun {key' t} hget => ?_⟩
  dsimp only at hget hcache
  rw [Assoc.get?_insert] at hget
  split at hget
  -- the new entry is what has been compiled
  · rwa [← Option.some.inj hget]
  -- any other entry was there before
  · rw [hcache] at hget
    exact h.cache hget

/-- A render keeps what was made for a configuration. -/
theorem Made.render (h : s.Made config) {template : Nat} {render : Template → Rendered}
    (hengine : ∀ t, (render t).engine.config = config ∧ (render t).engine.library.Made config ∧
      (render t).engine.cache = s.engine.cache) : (s.rendered template render).Made config := by
  unfold Session.rendered
  split
  · rename_i t _
    obtain ⟨hconfig, hlibrary, hcache⟩ := hengine t
    refine ⟨hconfig, hlibrary, fun {key t'} hget => ?_, h.handed⟩
    rw [hcache] at hget
    exact h.cache hget
  · exact h

/-- A request to share functions keeps what was made for a configuration. -/
theorem Made.adopt (h : s.Made config) {source : Source} :
    (s.adopt (s.engine.share s.files source)).Made config := by
  cases hs : s.engine.share s.files source with
  -- a request that fails changes nothing
  | error e => exact h
  | ok engine' =>
    unfold Engine.share at hs
    cases hl : s.engine.library.share (s.engine.context s.files) source with
    | error e => rw [hl] at hs; cases hs
    | ok library =>
      rw [hl] at hs
      obtain rfl := (Except.ok.inj hs).symm
      have hctx : (s.engine.context s.files).config = config := h.settled
      have hlibrary := h.library
      rw [← hctx] at hlibrary
      have hshare := hlibrary.share hl
      rw [hctx] at hshare
      exact ⟨h.settled, hshare, h.cache, h.handed⟩

/-- What a render of any kind leaves of an engine. -/
theorem Made.engine_render (h : s.Made config) (files : Files) (fuel : Nat) (t : Template)
    (data : Assoc Value) (heap : Heap) (output : Output) :
    (s.engine.render files fuel t data heap output).engine.config = config ∧
      (s.engine.render files fuel t data heap output).engine.library.Made config ∧
      (s.engine.render files fuel t data heap output).engine.cache = s.engine.cache := by
  have hlibrary := h.library
  rw [← h.settled] at hlibrary
  have hmade : (s.engine.render files fuel t data heap output).engine.library.Made
      s.engine.config :=
    (Engine.render_maintains (Library.madeInvariant s.engine.config) (.any fun _ _ _ => id)
      fuel t data heap ⟨⟩ hlibrary ⟨⟩).2.1
  rw [h.settled] at hmade
  exact ⟨h.settled, hmade, rfl⟩

/-- Every event keeps an engine to its configuration. -/
theorem Made.step (h : s.Made config) (e : Event) : (s.step e).Made config := by
  cases e with
  -- events that only change files leave the engine alone
  | store name content => exact ⟨h.settled, h.library, h.cache, h.handed⟩
  | remove name => exact ⟨h.settled, h.library, h.cache, h.handed⟩
  | write path content => exact ⟨h.settled, h.library, h.cache, h.handed⟩
  | delete path => exact ⟨h.settled, h.library, h.cache, h.handed⟩
  | get name =>
    refine h.take fun {t engine} hr => ?_
    -- the answer comes from the cache, or was compiled into it
    rcases Engine.getTemplate_eq_ok hr with ⟨hcached, rfl⟩ | ⟨_, source, _, hcompile⟩
    · exact ⟨h.cache (Engine.cached?_eq_some hcached).1, h.settled, h.library, h.cache⟩
    · exact h.compileInto hcompile
  | getText content cached =>
    refine h.take fun {t engine} hr => ?_
    rcases Engine.getBySource_eq_ok hr with hcompile | ⟨key, hcached, rfl⟩ | ⟨key, hcompile⟩
    · obtain ⟨hu, hconfig, hlibrary, hcache⟩ := h.compile hcompile
      exact ⟨hu, hconfig, hlibrary, fun hget => h.cache (hcache ▸ hget)⟩
    · exact ⟨h.cache (Engine.cached?_eq_some hcached).1, h.settled, h.library, h.cache⟩
    · exact h.compileInto hcompile
  | evict key =>
    refine ⟨h.settled, h.library, fun {key' t} hget => ?_, h.handed⟩
    change (s.engine.cache.erase key).get? key' = some t at hget
    rw [Assoc.get?_erase] at hget
    -- what is left in the cache has been in it before
    split at hget
    · cases hget
    · exact h.cache hget
  | clear => exact ⟨h.settled, h.library, (fun hget => nomatch hget), h.handed⟩
  | shareFile name =>
    change (s.adopt (do s.engine.share s.files (← s.engine.openSource s.files name))).Made config
    cases s.engine.openSource s.files name with
    | error e => exact h
    | ok source => exact h.adopt
  | shareText content => exact h.adopt
  | render template fuel data heap output =>
    exact h.render fun t => h.engine_render s.files fuel t data heap output
  | renderToFile template fuel data heap path =>
    refine h.render fun t => ?_
    unfold Engine.renderToFile
    split
    -- if the file cannot be created, nothing is rendered
    · exact ⟨h.settled, h.library, rfl⟩
    · exact h.engine_render _ fuel t data heap _

/-- **Engines stay with their configuration.** Whatever happens in a session, everything that its
engine has compiled is compiled with this configuration. -/
theorem made_run (name : String) (config : Config) (files : Files) (events : List Event) :
    ((start name config files).run events).Made config :=
  run_induct (P := fun _ => True) (fun {_ e} _ h => h.step e) (.start name config files)
    fun _ _ => ⟨⟩

/-- Whatever happens in a session, everything that its engine has compiled holds directives of its
configuration only. -/
theorem draws_run (name : String) (config : Config) (files : Files) (events : List Event) :
    ((start name config files).run events).Draws config := (made_run name config files events).draws

/-! ### Rendering only -/

/-- A session that has done nothing but render to sinks since another one. -/
structure WarmedUp (s after : Session) : Prop where
  settings : after.engine.config = s.engine.config
  files : after.files = s.files
  handed : after.handed = s.handed
  library : Library.Warm (s.engine.context s.files) s.engine.library after.engine.library

/-- A render to a sink keeps a session warmed up: the library may grow, and all else stays. -/
theorem WarmedUp.step {after : Session} {e : Event} (he : e.RendersToSink)
    (h : s.WarmedUp after) : s.WarmedUp (after.step e) := by
  cases e with
  | render template fuel data heap output =>
    change s.WarmedUp (after.rendered template _)
    unfold rendered
    split
    -- only the library of the engine has changed so far, so a render is one of the first engine
    · rename_i t _
      obtain ⟨⟨name, settings, library, cache, nextTemplate⟩, files, handed⟩ := after
      obtain ⟨hsettings, hfiles, hhanded, hlibrary⟩ := h
      dsimp only at hsettings hfiles hhanded hlibrary
      subst hsettings hfiles
      let engine : Engine := ⟨name, s.engine.config, library, cache, nextTemplate⟩
      obtain ⟨hfiles, hwarm, _⟩ := @Engine.render_maintains engine s.files
        (Library.warmInvariant (s.engine.context s.files) s.engine.library) (.offDisk _) fuel t
        data heap output rfl hlibrary he
      exact ⟨rfl, hfiles, hhanded, hwarm⟩
    · exact h
  | _ => exact he.elim

/-- **Renders warm an engine up.** A session that does nothing but render to sinks leaves the files
and the handed out templates alone, and its library is a warm one. -/
theorem warm_run {events : List Event} (hevents : ∀ e ∈ events, e.RendersToSink) :
    s.WarmedUp (s.run events) :=
  run_induct WarmedUp.step ⟨rfl, rfl, rfl, .refl _⟩ hevents

end Session

end Stencil
