import Mathlib
import Stencil.Proofs.Engine.Tracking

/-!
# Caches that are as good as none

In dev mode an engine uses a template from its cache, or from one of its sites, only if no source
has been modified since. Over files in memory the question is whether it then answers as an engine
does that has cached nothing.

* If everything that may be used is current, it does: a template has the same answers and the same
  errors, at once and in the templates that it renders (`Session.getTemplate_fresh`).
* What may be used is current exactly if a new engine compiles the file, and from the same texts
  (`CompiledFor.current_iff`).
* A source that is not current, in something that may be used, is one whose name has been removed: a
  source does not notice that its name leads to its entry no longer (`Source.Tracks.current`). So the
  template of a file that was removed is used on, and it is used on even after another text has been
  stored under the name.

Main definitions: `Session.UpToDate`, `RendersAlike`.
Main statement: `Session.dev_mode_fresh`.
-/

namespace Stencil

open Render

/-! ### Current templates -/

/-- A template all of whose sources are current. -/
def Compiled.Current (files : Files) (unit : Compiled) : Prop :=
  ∀ source ∈ unit.sources, source.Current files.memory

/-- The texts that a template was compiled from, with the names of their files. -/
def Compiled.texts (files : Files) (unit : Compiled) : List (Option String × Except Error String) :=
  unit.sources.map fun source => (source.fileName?, source.content files)

section Compile

variable {config : Config} {before now : Files}

/-- What was compiled for a file among earlier files is compiled alike now, if it is current. -/
theorem compileFile_local (hbefore : before.storage = .memory) (hnow : now.storage = .memory)
    {sites : Nat → Nat → Prop} {read : Source → Source → Prop}
    (htwin : ∀ {s s'}, s.Twin s' → read s s') {file : String} {first first' : Nat}
    (hsites : ∀ k, sites (first + k) (first' + k)) {unit : Compiled}
    (h : Context.compileFile ⟨config, before⟩ file first = .ok unit) (hcurrent : unit.Current now) :
    ∃ unit', Context.compileFile ⟨config, now⟩ file first' = .ok unit' ∧
      Compiled.Alike (config.likeness sites read) unit unit' := by
  obtain ⟨source, next, hopen, hcompile⟩ := compileFile_eq_ok_iff.mp h
  have hself : source ∈ unit.sources := by
    obtain ⟨q, hq, hr⟩ := bind_eq_ok_iff.mp hcompile
    obtain ⟨rfl, _⟩ := Prod.mk.inj (Except.ok.inj hr)
    exact parseFile_sources hq (List.mem_append_right _ (List.mem_singleton_self _))
  obtain ⟨source', hopen', hsource⟩ :=
    openSource_again hbefore hnow hopen (hcurrent source hself)
  obtain ⟨r, hr, halike⟩ := compile_local hbefore hnow (config.likeness_allows sites read) htwin
    hsource hsites hcompile hcurrent
  exact ⟨r.1, compileFile_eq_ok_iff.mpr ⟨source', r.2, hopen', hr⟩, halike⟩

/-- What is compiled for a file in memory is current. -/
theorem compileFile_current (hnow : now.storage = .memory) {file : String} {first : Nat}
    {unit : Compiled} (h : Context.compileFile ⟨config, now⟩ file first = .ok unit) :
    unit.Current now := by
  obtain ⟨source, next, hopen, hcompile⟩ := compileFile_eq_ok_iff.mp h
  have hopened : ∀ name s, now.openSource config.settings.basePath name = .ok s →
      s.Current now.memory := by
    intro name s hs
    obtain ⟨i, entry, hentry, rfl⟩ := (openSource_eq_ok_iff hnow).mp hs
    exact ⟨i, entry.version, hentry⟩
  exact compile_reads hopened (hopened _ _ hopen) hcompile

end Compile

/-- Twins have the same texts. -/
theorem texts_eq_of_twins {unit unit' : Compiled}
    (h : List.Forall₂ Source.Twin unit.sources unit'.sources) (files : Files) :
    unit'.texts files = unit.texts files := by
  unfold Compiled.texts
  generalize unit.sources = sources, unit'.sources = sources' at h
  induction h with
  | nil => rfl
  | cons hd _ ih => rw [List.map_cons, List.map_cons, ih, hd.fileName?_eq, hd.content_eq files files]

/-- **What being current means.** A template that was compiled for a file is current exactly if the
file can be compiled now, from the same texts. -/
theorem CompiledFor.current_iff {config : Config} {removed : String → Prop} {files : Files}
    (hfiles : files.storage = .memory) {file : String} {unit : Compiled}
    (h : CompiledFor config (·.Tracks removed files.memory) file unit) (first' : Nat) :
    unit.Current files ↔ ∃ fresh, Context.compileFile ⟨config, files⟩ file first' = .ok fresh ∧
      fresh.texts files = unit.texts files := by
  constructor
  · intro hcurrent
    obtain ⟨before, first, hbefore, hcompiled⟩ := h.compiled
    have hagain : ∃ fresh, Context.compileFile ⟨config, files⟩ file first' = .ok fresh ∧
        Compiled.Alike (config.likeness (fun _ _ => True) Source.Twin) unit fresh :=
      compileFile_local hbefore hfiles id (fun _ => ⟨⟩) hcompiled hcurrent
    obtain ⟨fresh, hfresh, halike⟩ := hagain
    exact ⟨fresh, hfresh, texts_eq_of_twins halike.sources files⟩
  · rintro ⟨fresh, hfresh, htexts⟩ source hsource
    have hmem : (source.fileName?, source.content files) ∈ fresh.texts files := by
      rw [htexts]
      exact List.mem_map_of_mem hsource
    obtain ⟨source', hsource', heq⟩ := List.mem_map.mp hmem
    have hcurrent : source'.Current files.memory := compileFile_current hfiles hfresh source' hsource'
    have htracks : source.Tracks removed files.memory := h.sources source hsource
    -- Both are sources in memory, with the same name and the same text.
    cases source with
    | memory name i content version =>
      cases source' with
      | memory name' i' content' version' =>
        obtain ⟨hname, hcontent⟩ := Prod.mk.inj heq
        obtain rfl := Option.some.inj hname
        obtain rfl := Except.ok.inj hcontent
        exact hcurrent
      | disk _ _ _ => exact hcurrent.elim
      | string _ _ => exact hcurrent.elim
    | disk _ _ _ => exact htracks.elim
    | string _ _ => exact htracks.elim

/-! ### Libraries that are as good as new -/

/-- All templates may stand for one another that differ in their sites only. -/
def Config.anySites (config : Config) : Likeness := config.likeness (fun _ _ => True) anySource

/-- What a file is compiled to does not depend on the numbers of sites. -/
theorem compileFile_anySites (ctx : Context) (file : String) (first first' : Nat) :
    Agree (Compiled.Alike ctx.config.anySites) (ctx.compileFile file first)
      (ctx.compileFile file first') := compileFile_alike fun _ => ⟨⟩

/-- A template that is alike to what compiling a file now gives. -/
def LikeNow (ctx : Context) (file : String) (unit : Compiled) : Prop :=
  ∀ first, Agree (Compiled.Alike ctx.config.anySites) (.ok unit) (ctx.compileFile file first)

/-- A library without shared functions, whose sites may only use what some property holds of. -/
structure Library.Offers (ctx : Context) (P : String → Compiled → Prop) (lib : Library) : Prop where
  unshared : lib.shared = {}
  sites : ∀ {site file unit}, lib.usable? ctx site file = some unit → P file unit

/-- What a site compiles is what compiling the file now gives. -/
theorem Library.Offers.siteTemplate {ctx : Context} {P : String → Compiled → Prop} {lib : Library}
    (h : lib.Offers ctx P)
    (hnow : ∀ {file first unit}, ctx.compileFile file first = .ok unit → P file unit) (site : Nat)
    (file : String) : (lib.siteTemplate ctx site file).2.Offers ctx P where
  unshared := (shared_siteTemplate site file).trans h.unshared
  sites := by
    intro i name unit hunit
    rcases compiledAt?_siteTemplate (compiledAt?_of_usable hunit) with hold | ⟨_, rfl, _, hcompiled⟩
    · rw [usable?_eq_of_compiledAt?_eq
        ((compiledAt?_of_usable hunit).trans hold.symm)] at hunit
      exact h.sites hunit
    · exact hnow hcompiled

/-- More sites do not change what a library offers. -/
theorem Library.Offers.withSites {ctx : Context} {P : String → Compiled → Prop} {lib : Library}
    (h : lib.Offers ctx P) (count : Nat) : (lib.withSites count).Offers ctx P where
  unshared := h.unshared
  sites hunit := by
    rw [usable?_eq_of_compiledAt?_eq (compiledAt?_withSites lib count _ _)] at hunit
    exact h.sites hunit

/-- A library with current templates and one with new templates belong together. -/
def Library.freshPair (ctx : Context) : LibraryPair ctx.config where
  likeness := ctx.config.anySites
  files f := f = ctx.files
  joined l₁ l₂ := l₁.Offers ctx (LikeNow ctx) ∧
    l₂.Offers ctx fun file unit => IsNow ctx 0 file (.ok unit)
  sharedFunction := by
    rintro _ l₁ l₂ name rfl ⟨h₁, h₂⟩
    rw [sharedFunction_unshared h₁.unshared, sharedFunction_unshared h₂.unshared]
    exact ⟨.ok .none, h₁, h₂⟩
  siteTemplate := by
    rintro _ l₁ l₂ site site' file rfl ⟨h₁, h₂⟩ _
    refine ⟨?_, h₁.siteTemplate (fun hunit first => ?_) site file,
      h₂.siteTemplate (fun hunit => ⟨_, Nat.zero_le _, hunit.symm⟩) site' file⟩
    · -- The second library answers with what compiling the file now gives, and so does the first
      -- one, from what it has or by compiling.
      have hisNow : IsNow ctx 0 file (l₂.siteTemplate ctx site' file).1 :=
        siteTemplate_isNow (Nat.zero_le _) fun _ => h₂.sites
      obtain ⟨first, _, hnow⟩ := hisNow
      rw [hnow]
      cases hu : l₁.usable? ctx site file with
      | some unit =>
        rw [siteTemplate_of_usable hu]
        exact h₁.sites hu first
      | none =>
        rcases siteTemplate_of_unusable hu with ⟨error, herror, heq⟩ | ⟨unit, _, hunit, heq⟩
        · rw [heq, ← herror]
          exact compileFile_anySites ctx file _ _
        · rw [heq, ← hunit]
          exact compileFile_anySites ctx file _ _
    · rw [← hunit]
      exact compileFile_anySites ctx _ _ _

/-! ### Renders by two engines -/

/-- Equal outputs that are no files belong together. -/
def OutputPair.same (files : Files → Prop) : OutputPair files where
  joined o₁ o₂ := o₁ = o₂ ∧ ¬ o₁.OnDisk
  lost _ _ := False
  write {o₁ o₂} piece := by
    rintro ⟨rfl, hdisk⟩
    exact .joined _ ⟨rfl, (OutputInvariant.offDisk files).write piece hdisk⟩
  flush {o₁ o₂} := by
    rintro ⟨rfl, hdisk⟩
    exact .joined _ ⟨rfl, (OutputInvariant.offDisk files).flush hdisk⟩
  lostWrite _ h := h
  lostFlush h := h
  saved := by
    rintro _ _ _ _ f ⟨rfl, _⟩ ⟨rfl, hdisk⟩ hf
    rw [saved_of_not_onDisk hdisk]
    exact ⟨rfl, hf⟩

/-- Two templates, each with its engine, render alike among some files: with any data and to any
sink, they come to the same result, heap and output. -/
def RendersAlike (files : Files) (p p' : Template × Engine) : Prop :=
  ∀ (fuel : Nat) (data : Assoc Value) (heap : Heap) (output : Output), ¬ output.OnDisk →
    let r := p.2.render files fuel p.1 data heap output
    let r' := p'.2.render files fuel p'.1 data heap output
    r.result = r'.result ∧ r.heap = r'.heap ∧ r.output = r'.output

/-- Alike templates render alike, if their libraries belong together. -/
theorem rendersAlike (ctx : Context) {p p' : Template × Engine} (hp : p.2.config = ctx.config)
    (hp' : p'.2.config = ctx.config)
    (hlibrary : p.2.library.Offers ctx (LikeNow ctx))
    (hlibrary' : p'.2.library.Offers ctx fun file unit => IsNow ctx 0 file (.ok unit))
    (hunit : Compiled.Alike ctx.config.anySites p.1.unit p'.1.unit) :
    RendersAlike ctx.files p p' := by
  intro fuel data heap output hdisk
  let P := Library.freshPair ctx
  let O := OutputPair.same P.files
  -- the templates are alike, and what is read on the way is the same in both libraries
  have hcoupled : Coupled P O Eq (p.1.unit.render ctx.config fuel) (p'.1.unit.render ctx.config fuel) :=
    Compiled.render_coupled P fuel hunit O (.inl fun _ _ h => h)
  let before (lib : Library) : RenderState := ⟨⟨heap, .ofData data, {}⟩, output, lib, ctx.files⟩
  have hbefore : InStep P O (before p.2.library) (before p'.2.library) :=
    ⟨rfl, rfl, rfl, ⟨hlibrary, hlibrary'⟩, rfl, hdisk⟩
  have hend : ∀ {run run' : Except Stop Unit × RenderState}, Outcome P O Eq run run' →
      run.1 = run'.1 ∧ run.2.memory.heap = run'.2.memory.heap ∧ run.2.output = run'.2.output := by
    -- nothing is lost between outputs that are the same, so both go well or fail alike
    rintro _ _ (⟨hresult, hafter⟩ | ⟨_, _, hlost⟩)
    · refine ⟨?_, congrArg Memory.heap hafter.memory, hafter.output.1⟩
      cases hresult with
      | ok h => exact congrArg Except.ok h
      | error stop => rfl
    · exact hlost.elim
  unfold Engine.render
  rw [hp, hp']
  exact hend (hcoupled.outcome hbefore)

/-- A request that finds nothing to use in the cache compiles the file. -/
theorem Engine.getTemplate_of_uncached {engine : Engine} {files : Files} {name : String}
    (h : engine.cached? files name = none) :
    (∃ error, (engine.context files).compileFile name engine.library.sites.size = .error error ∧
      engine.getTemplate files name = .error error) ∨
    ∃ t engine' count,
      (engine.context files).compileFile name engine.library.sites.size = .ok t.unit ∧
      engine.getTemplate files name = .ok (t, engine') ∧ engine'.config = engine.config ∧
      engine'.library = engine.library.withSites count := by
  unfold getTemplate Context.compileFile
  rw [h]
  dsimp only
  cases hopen : engine.openSource files name with
  | error error =>
    refine .inl ⟨error, ?_, rfl⟩
    change (engine.openSource files name >>= _) = _
    rw [hopen]
    rfl
  | ok source =>
    -- The request and a compilation of the file both compile this source.
    have hfile : ∀ {x}, (Stencil.compile engine.config files source engine.library.sites.size >>=
        fun r => Except.ok r.1) = x →
        (engine.openSource files name >>= fun source =>
          Stencil.compile engine.config files source engine.library.sites.size >>= fun r =>
            Except.ok r.1) = x := by
      intro x hx
      rw [hopen]
      exact hx
    cases hc : Stencil.compile engine.config files source engine.library.sites.size with
    | error error =>
      refine .inl ⟨error, hfile ?_, ?_⟩
      · rw [hc]
        rfl
      · change engine.compileInto files name source = _
        unfold compileInto compile Library.compile context
        rw [hc]
        rfl
    | ok r =>
      let t : Template := ⟨engine.nextTemplate, source.fileName?, r.1⟩
      let engine' : Engine :=
        { engine with
          library := engine.library.withSites r.2
          cache := engine.cache.insert name t
          nextTemplate := engine.nextTemplate + 1 }
      refine .inr ⟨t, engine', r.2, hfile ?_, ?_, rfl, rfl⟩
      · rw [hc]
        rfl
      · change engine.compileInto files name source = _
        unfold compileInto compile Library.compile context
        rw [hc]
        rfl

/-! ### Sessions in dev mode -/

/-- What was compiled for a file and is current is alike to what compiling the file now gives. -/
theorem CompiledFor.likeNow {ctx : Context} (hfiles : ctx.files.storage = .memory)
    {P : Source → Prop} {file : String} {unit : Compiled} (h : CompiledFor ctx.config P file unit)
    (hcurrent : unit.Current ctx.files) : LikeNow ctx file unit := by
  intro first'
  obtain ⟨before, first, hbefore, hcompiled⟩ := h.compiled
  have hagain : ∃ fresh, ctx.compileFile file first' = .ok fresh ∧
      Compiled.Alike ctx.config.anySites unit fresh :=
    compileFile_local hbefore hfiles (fun _ => ⟨⟩) (fun _ => ⟨⟩) hcompiled hcurrent
  obtain ⟨fresh, hfresh, halike⟩ := hagain
  rw [hfresh]
  exact .ok halike

namespace Session

/-- Everything is current that an engine may use when it is asked for a file and the answer is
rendered. -/
structure UpToDate (s : Session) (file : String) : Prop where
  cache : ∀ {t}, s.engine.cached? s.files file = some t → t.unit.Current s.files
  sites : ∀ {site file unit},
    s.engine.library.usable? (s.engine.context s.files) site file = some unit →
    unit.Current s.files

variable {config : Config} {removed : String → Prop} {s : Session}

/-- The library of a session that is up to date offers what compiling now gives. -/
theorem Remembers.offers (h : s.Remembers config removed) {file : String} (hs : s.UpToDate file) :
    s.engine.library.Offers (s.engine.context s.files) (LikeNow (s.engine.context s.files)) where
  unshared := h.library.unshared
  sites hunit := by
    obtain rfl := h.settled
    have hfor := h.library.sites (Library.compiledAt?_of_usable hunit)
    exact @CompiledFor.likeNow (s.engine.context s.files) h.storage _ _ _ hfor (hs.sites hunit)

/-- A request that goes well answers with what compiling the file now gives; one that fails, fails
as that does. -/
theorem Remembers.getTemplate_likeNow (h : s.Remembers config removed) {file : String}
    (hs : s.UpToDate file) (first : Nat) :
    (∃ error, (s.engine.context s.files).compileFile file first = .error error ∧
      s.engine.getTemplate s.files file = .error error) ∨
    ∃ t engine', s.engine.getTemplate s.files file = .ok (t, engine') ∧
      engine'.config = s.engine.config ∧
      engine'.library.Offers (s.engine.context s.files) (LikeNow (s.engine.context s.files)) ∧
      LikeNow (s.engine.context s.files) file t.unit := by
  have hoffers := h.offers hs
  obtain rfl := h.settled
  cases hcached : s.engine.cached? s.files file with
  | some t =>
    -- What is in the cache is current, so compiling the file now would give the like of it.
    have hfor := h.cache (Engine.cached?_eq_some hcached).1
    exact .inr ⟨t, s.engine, Engine.getTemplate_of_cached? hcached, rfl, hoffers,
      @CompiledFor.likeNow (s.engine.context s.files) h.storage _ _ _ hfor (hs.cache hcached)⟩
  | none =>
    -- The request compiles the file, with sites of its own.
    have hagree := compileFile_anySites (s.engine.context s.files) file
    rcases Engine.getTemplate_of_uncached hcached with ⟨error, herror, hanswer⟩ |
        ⟨t, engine', count, hunit, hanswer, hsettled, hlibrary⟩
    · have hnow := hagree s.engine.library.sites.size first
      rw [herror] at hnow
      cases hfirst : (s.engine.context s.files).compileFile file first with
      | ok unit => rw [hfirst] at hnow; cases hnow
      | error error' =>
        rw [hfirst] at hnow
        cases hnow
        exact .inl ⟨error, rfl, hanswer⟩
    · refine .inr ⟨t, engine', hanswer, hsettled, ?_, fun first => ?_⟩
      · rw [hlibrary]
        exact hoffers.withSites count
      · rw [← hunit]
        exact hagree _ _

/-- **A cache is as good as none while it is up to date.** A request answers as that of an engine
that has cached nothing, and the answers render alike. -/
theorem Remembers.getTemplate_fresh (h : s.Remembers config removed) {file : String}
    (hs : s.UpToDate file) (name : String) :
    Agree (RendersAlike s.files) (s.engine.getTemplate s.files file)
      (({ name, config } : Engine).getTemplate s.files file) := by
  have hsettled := h.settled
  let fresh : Engine := { name, config }
  have hcontext : fresh.context s.files = s.engine.context s.files := by
    unfold Engine.context
    rw [hsettled]
  have hnone : fresh.cached? s.files file = none := rfl
  have hoffers : fresh.library.Offers (s.engine.context s.files)
      fun file unit => IsNow (s.engine.context s.files) 0 file (.ok unit) :=
    ⟨rfl, fun hunit => by simp [fresh, Library.usable?, Library.compiledAt?] at hunit⟩
  have hanswer := Engine.getTemplate_of_uncached hnone
  rw [hcontext] at hanswer
  -- The new engine compiles the file, and the engine of the session answers as if it did. Both
  -- compilations agree, so the engines have the same error or alike templates.
  rcases hanswer with ⟨error', herror', hanswer'⟩ |
      ⟨t', engine', count', hunit', hanswer', hsettled', hlibrary'⟩
  · rw [hanswer']
    rcases h.getTemplate_likeNow hs 0 with ⟨error, herror, hanswer⟩ |
        ⟨t, engine, _, _, _, hlike⟩
    · rw [hanswer, ← Except.error.inj (herror.symm.trans herror')]
      exact .error error
    · have hnow := hlike 0
      rw [show (s.engine.context s.files).compileFile file 0 = .error error' from herror'] at hnow
      cases hnow
  · rw [hanswer']
    rcases h.getTemplate_likeNow hs 0 with ⟨error, herror, _⟩ |
        ⟨t, engine, hanswer, hengine, hlibrary, hlike⟩
    · cases herror.symm.trans hunit'
    · have hnow := hlike 0
      rw [show (s.engine.context s.files).compileFile file 0 = .ok t'.unit from hunit'] at hnow
      rw [hanswer]
      have hunit : Compiled.Alike s.engine.config.anySites t.unit t'.unit := by
        cases hnow with
        | ok halike => exact halike
      have hfresh : engine'.library.Offers (s.engine.context s.files)
          fun file unit => IsNow (s.engine.context s.files) 0 file (.ok unit) := by
        rw [hlibrary']
        exact hoffers.withSites count'
      exact .ok (rendersAlike (s.engine.context s.files) hengine
        (hsettled'.trans hsettled.symm) hlibrary hfresh hunit)

/-- What an engine may answer with for a file, from its cache or at a site, without compiling. -/
inductive MayUse (s : Session) (file : String) : Compiled → Prop where
  | cache {t : Template} : s.engine.cached? s.files file = some t → s.MayUse file t.unit
  | site {site : Nat} {unit : Compiled} :
      s.engine.library.usable? (s.engine.context s.files) site file = some unit →
      s.MayUse file unit

/-- A template that may be used was compiled for its file, from files that have been tracked. -/
theorem Remembers.compiledFor (h : s.Remembers config removed) {file : String} {unit : Compiled}
    (hunit : s.MayUse file unit) :
    CompiledFor config (·.Tracks removed s.files.memory) file unit := by
  cases hunit with
  | cache hcached => exact h.cache (Engine.cached?_eq_some hcached).1
  | site husable => exact h.library.sites (Library.compiledAt?_of_usable husable)

/-- In dev mode, what may be used has not been modified. -/
theorem MayUse.unmodified (hdev : s.engine.config.settings.devMode = true) {file : String}
    {unit : Compiled} (h : s.MayUse file unit) : unit.isModified s.files = false := by
  cases h with
  -- the cache and the library both ask whether a template has been modified before they offer it
  | @cache t hcached =>
    have hmod := (Engine.cached?_eq_some hcached).2
    rw [hdev, Bool.true_and] at hmod
    exact hmod
  | site husable =>
    unfold Library.usable? at husable
    split at husable
    · split at husable
      · cases husable
      · rename_i hmod
        rw [← Option.some.inj husable]
        have hdev' : (s.engine.context s.files).config.settings.devMode = true := hdev
        rw [hdev', Bool.true_and] at hmod
        exact Bool.eq_false_iff.mpr hmod
    · cases husable

/-- In dev mode, a source of what may be used is current, unless its name has been removed. -/
theorem Remembers.current (h : s.Remembers config removed) (hdev : config.settings.devMode = true)
    {file : String} {unit : Compiled} (hunit : s.MayUse file unit) {source : Source}
    (hsource : source ∈ unit.sources)
    (hkept : ∀ name, source.fileName? = some name → ¬ removed name) :
    source.Current s.files.memory := by
  obtain rfl := h.settled
  have hunmodified := hunit.unmodified hdev
  unfold Compiled.isModified at hunmodified
  rw [List.any_eq_false] at hunmodified
  have htracks := (h.compiledFor hunit).sources source hsource
  exact htracks.current (Bool.eq_false_iff.mpr (hunmodified source hsource)) hkept

/-- **Dev mode is fresh where nothing that was removed is in use.** Take any session over files in
memory, with an engine in dev mode that shares no functions and caches no strings.

* While everything that may be used is current, a request for a file answers as that of a new
  engine with the same configuration: with the same error, or with a template that renders alike
  with any data.
* What may be used for a file is current exactly if the new engine answers with a template of the
  same texts. If it is not, the new engine has an error, or it has read other texts.
* If a source of what may be used is not current, its name has been removed in the session. -/
theorem dev_mode_fresh {name : String} {config : Config} (hdev : config.settings.devMode = true)
    {files : Files} (hfiles : files.storage = .memory) {events : List Event}
    (hevents : ∀ e ∈ events, e.Plain) {s : Session}
    (hs : s = (start name config files).run events) :
    (∀ file, s.UpToDate file → Agree (RendersAlike s.files) (s.engine.getTemplate s.files file)
      (({ name, config } : Engine).getTemplate s.files file)) ∧
    (∀ file unit, s.MayUse file unit → (unit.Current s.files ↔
      ∃ t engine, ({ name, config } : Engine).getTemplate s.files file = .ok (t, engine) ∧
        t.unit.texts s.files = unit.texts s.files)) ∧
    (∀ file unit, s.MayUse file unit → ∀ source ∈ unit.sources, ¬ source.Current s.files.memory →
      ∃ removed, source.fileName? = some removed ∧ .remove removed ∈ events) := by
  have h : s.Remembers config fun removed => .remove removed ∈ events :=
    hs ▸ remembers_run name config hfiles hevents
  refine ⟨fun file hup => h.getTemplate_fresh hup name, fun file unit hunit => ?_,
    fun file unit hunit source hsource hstale => ?_⟩
  · -- A new engine answers with a template exactly if the file can be compiled, and with what it is
    -- compiled to.
    rw [(h.compiledFor hunit).current_iff h.storage 0]
    let fresh : Engine := { name, config }
    have hnone : fresh.cached? s.files file = none := rfl
    constructor
    · rintro ⟨unit', hunit', htexts⟩
      rcases Engine.getTemplate_of_uncached hnone with ⟨error, herror, _⟩ |
          ⟨t, engine, _, ht, hanswer, _⟩
      · cases herror.symm.trans hunit'
      · have hsame : unit' = t.unit := Except.ok.inj (hunit'.symm.trans ht)
        exact ⟨t, engine, hanswer, hsame ▸ htexts⟩
    · rintro ⟨t, engine, hanswer, htexts⟩
      rcases Engine.getTemplate_of_uncached hnone with ⟨error, _, herror⟩ |
          ⟨t', engine', _, ht, hanswer', _⟩
      · cases herror.symm.trans hanswer
      · have hsame : t' = t := (Prod.mk.inj (Except.ok.inj (hanswer'.symm.trans hanswer))).1
        exact ⟨t'.unit, ht, hsame ▸ htexts⟩
  · -- If the name of the source had not been removed, the source would be current.
    by_contra hnone
    exact hstale (h.current hdev hunit hsource fun removed hname hremove =>
      hnone ⟨removed, hname, hremove⟩)

/-- A file that is replaced after it has been asked for. -/
theorem dev_mode_fresh_replaced :
    let config : Config := { settings := { devMode := true } }
    let s := (start "" config { storage := .memory }).run
      [.store "a" "A", .get "a", .store "a" "B"]
    Agree (RendersAlike s.files) (s.engine.getTemplate s.files "a")
      (({ name := "", config } : Engine).getTemplate s.files "a") := by
  intro config s
  have hplain : ∀ e ∈ [Event.store "a" "A", .get "a", .store "a" "B"], e.Plain := by
    simp [Event.Plain]
  obtain ⟨hfresh, _, hremoved⟩ := dev_mode_fresh (s := s) rfl rfl hplain rfl
  -- nothing is ever removed, so nothing that may be used is out of date
  have hcurrent : ∀ file unit, s.MayUse file unit → unit.Current s.files := by
    intro file unit hunit source hsource
    by_contra hstale
    obtain ⟨removed, _, hmem⟩ := hremoved file unit hunit source hsource hstale
    simp at hmem
  exact hfresh "a" ⟨fun hcached => hcurrent _ _ (.cache hcached),
    fun husable => hcurrent _ _ (.site husable)⟩

/-- The template of a file that has been removed is used on, where a new engine has an error. -/
theorem not_dev_mode_fresh :
    ¬ ∀ (name : String) (config : Config) (files : Files) (events : List Event),
      config.settings.devMode = true → files.storage = .memory → (∀ e ∈ events, e.Plain) →
      ∀ file, Agree (RendersAlike ((start name config files).run events).files)
        (((start name config files).run events).engine.getTemplate
          ((start name config files).run events).files file)
        (({ name, config } : Engine).getTemplate
          ((start name config files).run events).files file) := by
  intro hall
  have hplain : ∀ e ∈ [Event.store "a" "A", .get "a", .remove "a"], e.Plain := by
    simp [Event.Plain]
  have hagree := hall "" { settings := { devMode := true } } { storage := .memory } _ rfl rfl
    hplain "a"
  -- the new engine misses the file, and the old one does not notice that it is gone
  have hold : (((start "" { settings := { devMode := true } } { storage := .memory }).run
      [.store "a" "A", .get "a", .remove "a"]).engine.getTemplate
      ((start "" { settings := { devMode := true } } { storage := .memory }).run
        [.store "a" "A", .get "a", .remove "a"]).files "a").isOk = true := by
    cbv
  have hnew : (({ name := "", config := { settings := { devMode := true } } } : Engine).getTemplate
      ((start "" { settings := { devMode := true } } { storage := .memory }).run
        [.store "a" "A", .get "a", .remove "a"]).files "a").isOk = false := by
    cbv
  generalize Engine.getTemplate _ _ _ = x at hagree hold
  generalize Engine.getTemplate _ _ _ = y at hagree hnew
  cases hagree with
  | ok _ => cases hnew
  | error _ => cases hold

end Session

end Stencil
