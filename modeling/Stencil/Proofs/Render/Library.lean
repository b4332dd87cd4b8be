import Mathlib.Data.List.Find
import Stencil.Proofs.Render.Invariant
import Stencil.Proofs.Template.Likeness

/-!
# What libraries hold

What an engine has compiled is compiled with its configuration (`Library.Made`), so the custom
directives in it are those of the configuration (`Library.Draws`). What a site has compiled may be
old, but if it may be used at all, an engine has reason to take it for what compiling the file now
would give:

* `Context.compileFile` is what a site without a usable template does, apart from remembering the
  result. Two compilations of a file agree up to likeness (`compileFile_alike`).
* `IsNow` says of a result that it is that of a compilation now. A site whose usable templates are
  of this kind answers with a result of this kind (`siteTemplate_isNow`).
* A lookup at one site changes at most what this site finds for this file, and a template that may
  be used is never replaced (`usable?_siteTemplate`, `usable?_siteTemplate_of_usable`).

Reading the shared functions again comes to sharing their sources once more, though it checks the
names one at a time (`reload_eq`).

Main definitions: `Config.likeness`, `Library.Made`, `Library.Draws`, `Context.compileFile`,
`IsNow`.
-/

namespace Stencil

/-! ### Directives of a configuration -/

/-- A directive that a configuration knows. -/
def Config.Knows (config : Config) (directive : Directive) : Prop :=
  ∃ name, config.directives.get? name = some directive

/-- By default, the directive that escapes its body is the only one. -/
theorem Config.eq_escape_of_knows {directive : Directive} (h : ({} : Config).Knows directive) :
    directive = .escape := by
  obtain ⟨name, hget⟩ := h
  change (Assoc.empty.insert "escape" Directive.escape).get? name = some directive at hget
  rw [Assoc.get?_insert] at hget
  split at hget
  · exact (Option.some.inj hget).symm
  · cases hget

/-- The likeness of templates that are compiled with a configuration. -/
def Config.likeness (config : Config) (sites : Nat → Nat → Prop)
    (source : Source → Source → Prop) : Likeness := ⟨sites, config.Knows, source⟩

/-- The directives of a configuration are those it knows. -/
theorem Config.likeness_allows (config : Config) (sites : Nat → Nat → Prop)
    (source : Source → Source → Prop) : (config.likeness sites source).Allows config :=
  fun name _ hget => ⟨name, hget⟩

/-- Sources that are opened are like themselves. -/
theorem Config.likeness_covers {config : Config} {files : Files} (sites : Nat → Nat → Prop)
    {source : Source → Source → Prop}
    (h : ∀ name s, files.openSource config.settings.basePath name = .ok s → source s s) :
    (config.likeness sites source).Covers config files := ⟨config.likeness_allows sites source, h⟩

/-- Any source may be read for any other. -/
def anySource (_ _ : Source) : Prop := True

/-- If any source goes for any other, nothing is asked of files. -/
theorem Config.likeness_covers_any (config : Config) (files : Files) (sites : Nat → Nat → Prop) :
    (config.likeness sites anySource).Covers config files :=
  config.likeness_covers sites fun _ _ _ => ⟨⟩

/-- A template that holds no directives but those of a configuration: it is like itself for
whatever relation of sites that relates every site to itself. -/
def Compiled.Draws (config : Config) (unit : Compiled) : Prop :=
  ∀ sites : Nat → Nat → Prop, (∀ i, sites i i) →
    Compiled.Alike (config.likeness sites anySource) unit unit

/-- Functions that hold no directives but those of a configuration. -/
def SharedFunctions.Draws (config : Config) (s : SharedFunctions) : Prop :=
  ∀ sites : Nat → Nat → Prop, (∀ i, sites i i) →
    Assoc.Alike (TemplateFunction.Alike (config.likeness sites anySource)) s.functions s.functions

/-- A library that holds no directives but those of a configuration. -/
structure Library.Draws (config : Config) (lib : Library) : Prop where
  shared : lib.shared.Draws config
  sites : ∀ {site file unit}, lib.compiledAt? site file = some unit → unit.Draws config

/-- What agrees with itself has a result that is related to itself. -/
theorem Agree.self {ε α : Type} {r : α → α → Prop} {x : Except ε α} {a : α} (h : Agree r x x)
    (hx : x = .ok a) : r a a := by
  subst hx
  cases h with
  | ok ha => exact ha

/-- What is compiled holds directives of its configuration only. -/
theorem compile_draws {config : Config} {files : Files} {source : Source} {first : Nat}
    {r : Compiled × Nat} (h : compile config files source first = .ok r) : r.1.Draws config := by
  intro sites hsites
  have hsource : (config.likeness sites anySource).source source source := ⟨⟩
  exact (compile_alike (config.likeness_covers_any files sites) hsource fun _ => hsites _).self h

/-! ### What is made with a configuration -/

/-- A template that was compiled with a configuration, from whatever files. -/
def Compiled.Made (config : Config) (unit : Compiled) : Prop :=
  ∃ files source first next, compile config files source first = .ok (unit, next)

/-- A function of a template that was compiled with a configuration. -/
def TemplateFunction.Made (config : Config) (f : TemplateFunction) : Prop :=
  ∃ unit : Compiled, unit.Made config ∧ ∃ name, (name, f) ∈ unit.functions.entries

/-- A library in which everything was compiled with a configuration. -/
structure Library.Made (config : Config) (lib : Library) : Prop where
  shared : ∀ {e}, e ∈ lib.shared.functions.entries → e.2.Made config
  sites : ∀ {site file unit}, lib.compiledAt? site file = some unit → unit.Made config

/-- So does what was made with it. -/
theorem Compiled.Made.draws {config : Config} {unit : Compiled} (h : unit.Made config) :
    unit.Draws config := by
  obtain ⟨files, source, first, next, hcompile⟩ := h
  exact compile_draws hcompile

/-- A function that was made with a configuration is like itself. -/
theorem TemplateFunction.Made.alike {config : Config} {f : TemplateFunction} (h : f.Made config)
    {sites : Nat → Nat → Prop} (hsites : ∀ i, sites i i) :
    TemplateFunction.Alike (config.likeness sites anySource) f f := by
  obtain ⟨unit, hunit, name, hmem⟩ := h
  exact (List.forall₂_same.mp (hunit.draws sites hsites).functions _ hmem).2

/-- What is made with a configuration holds its directives only. -/
theorem Library.Made.draws {config : Config} {lib : Library} (h : lib.Made config) :
    lib.Draws config where
  shared _ hsites := List.forall₂_same.mpr fun _ he => ⟨rfl, (h.shared he).alike hsites⟩
  sites hget := (h.sites hget).draws

/-- What is read for a template is the source it is compiled from, and files that are opened. -/
theorem compile_reads {config : Config} {files : Files} {P : Source → Prop}
    (hopened : ∀ name s, files.openSource config.settings.basePath name = .ok s → P s)
    {source : Source} (hsource : P source) {first : Nat} {r : Compiled × Nat}
    (h : compile config files source first = .ok r) : ∀ s ∈ r.1.sources, P s := by
  let R := config.likeness (fun _ _ => True) fun s _ => P s
  have hcovers : R.Covers config files := config.likeness_covers _ hopened
  have hself : Compiled.Alike R r.1 r.1 := (compile_alike hcovers hsource fun _ => ⟨⟩).self h
  exact fun s hs => List.forall₂_same.mp hself.sources s hs

namespace Library

variable {ctx : Context} {lib : Library}

/-- An empty library was made with every configuration. -/
theorem Made.empty (config : Config) : ({} : Library).Made config :=
  ⟨fun he => absurd he List.not_mem_nil, fun h => by simp [compiledAt?] at h⟩

/-- What a compilation changes of a library. -/
theorem compile_eq_ok {source : Source} {r : Compiled × Library} (h : lib.compile ctx source = .ok r) :
    ∃ count, Stencil.compile ctx.config ctx.files source lib.sites.size = .ok (r.1, count) ∧
      r.2 = lib.withSites count := by
  obtain ⟨⟨unit, count⟩, hunit, hr⟩ := bind_eq_ok_iff.mp h
  cases hr
  exact ⟨count, hunit, rfl⟩

/-- More sites change nothing about what a library was made with. -/
theorem Made.withSites (h : lib.Made ctx.config) (count : Nat) :
    (lib.withSites count).Made ctx.config :=
  ⟨h.shared, fun hget => h.sites (by rwa [compiledAt?_withSites] at hget)⟩

/-- Nor does a template that is kept, if it was made with the configuration. -/
theorem Made.keepAt (h : lib.Made ctx.config) {unit : Compiled} (hunit : unit.Made ctx.config)
    (site : Nat) (file : String) : (lib.keepAt site file unit).Made ctx.config := by
  refine ⟨h.shared, fun {i name kept} hget => ?_⟩
  rw [compiledAt?_keepAt] at hget
  split at hget
  · rwa [← Option.some.inj hget]
  · exact h.sites hget

/-- What a library compiles is made with the configuration. -/
theorem Made.compile (h : lib.Made ctx.config) {source : Source} {r : Compiled × Library}
    (hc : lib.compile ctx source = .ok r) : r.1.Made ctx.config ∧ r.2.Made ctx.config := by
  obtain ⟨count, hunit, hlib⟩ := compile_eq_ok hc
  rw [hlib]
  exact ⟨⟨_, _, _, _, hunit⟩, h.withSites count⟩

/-! ### Shared functions -/

/-- A file that is added brings its functions, its name and its sources. -/
theorem add_eq_ok {s s' : SharedFunctions} {root : Source} {unit : Compiled}
    (h : s.add root unit = .ok s') :
    s' = { functions := s.functions.insertAll unit.functions.entries
           files := s.files ++ [⟨root, unit.sources⟩] } := by
  unfold SharedFunctions.add at h
  split at h
  · cases h
  · exact (Except.ok.inj h).symm

/-- What sharing a source changes of a library. -/
theorem share_eq_ok {source : Source} {lib' : Library} (h : lib.share ctx source = .ok lib') :
    ∃ unit count, Stencil.compile ctx.config ctx.files source lib.sites.size = .ok (unit, count) ∧
      lib' = { lib.withSites count with
        shared := { functions := lib.shared.functions.insertAll unit.functions.entries
                    files := lib.shared.files ++ [⟨source, unit.sources⟩] } } := by
  obtain ⟨⟨unit, next⟩, hcompile, hshared⟩ := bind_eq_ok_iff.mp h
  obtain ⟨shared, hadd, hlib'⟩ := bind_eq_ok_iff.mp hshared
  obtain ⟨count, hunit, hnext⟩ := compile_eq_ok hcompile
  obtain rfl := Except.ok.inj hlib'
  obtain rfl : next = lib.withSites count := hnext
  refine ⟨unit, count, hunit, ?_⟩
  rw [add_eq_ok hadd]
  rfl

/-- What a library shares is made with the configuration. -/
theorem Made.share (h : lib.Made ctx.config) {source : Source} {lib' : Library}
    (hs : lib.share ctx source = .ok lib') : lib'.Made ctx.config := by
  obtain ⟨unit, count, hunit, rfl⟩ := share_eq_ok hs
  refine ⟨fun {e} he => ?_, (h.withSites count).sites⟩
  rcases Assoc.mem_entries_insertAll he with hold | hnew
  · exact h.shared hold
  · exact ⟨unit, ⟨_, _, _, _, hunit⟩, e.1, hnew⟩

/-- Functions with names of their own are added one by one if none of the names is taken. -/
theorem insertNew_eq (functions : Assoc TemplateFunction) {l : List (String × TemplateFunction)}
    (h : (l.map Prod.fst).Nodup) :
    SharedFunctions.insertNew functions l =
      match (l.map Prod.fst).find? functions.contains with
      | some name => .error (.config (.sharedFunctionExists name))
      | none => .ok (functions.insertAll l) := by
  induction l generalizing functions with
  | nil => rfl
  | cons e rest ih =>
    obtain ⟨name, function⟩ := e
    rw [List.map_cons, List.nodup_cons] at h
    rw [SharedFunctions.insertNew, List.map_cons, List.find?_cons]
    cases hname : functions.contains name with
    | true => rfl
    | false =>
      -- The name that was just added is none of those that follow.
      have hfind : (rest.map Prod.fst).find? (functions.insert name function).contains =
          (rest.map Prod.fst).find? functions.contains := by
        refine List.find?_congr fun other hother => ?_
        have hne : other ≠ name := fun heq => h.1 (heq ▸ hother)
        rw [Bool.eq_iff_iff, Assoc.contains_insert]
        exact or_iff_right hne
      rw [if_neg Bool.false_ne_true, ih _ h.2, hfind]
      rfl

/-- What is read again is shared once more. -/
theorem readAgain_eq (ctx : Context) (fresh : Library) (file : SharedFile) :
    fresh.readAgain ctx file = (do fresh.share ctx (← reopen ctx file.root)) := by
  unfold readAgain share
  refine bind_congr fun source => bind_congr fun r => ?_
  obtain ⟨unit, fresh⟩ := r
  dsimp only
  rw [insertNew_eq fresh.shared.functions unit.functions.nodup]
  unfold SharedFunctions.add Assoc.keys
  cases (unit.functions.entries.map Prod.fst).find? fresh.shared.functions.contains with
  | some name => rfl
  | none => rfl

/-- Reading all shared functions again is sharing their sources once more, without those that are
shared. -/
theorem reload_eq (ctx : Context) (lib : Library) :
    lib.reload ctx =
      lib.shared.files.foldlM (fun fresh file => do fresh.share ctx (← reopen ctx file.root))
        { lib with shared := {} } := by
  unfold reload
  have hstep : readAgain ctx =
      (fun fresh file => do fresh.share ctx (← reopen ctx file.root)) :=
    funext fun fresh => funext fun file => readAgain_eq ctx fresh file
  rw [hstep]

/-- What sharing a source that was opened again keeps, reading all of them again keeps. -/
theorem reload_induct {I : Library → Prop}
    (hshare : ∀ {l root source next}, reopen ctx root = .ok source →
      l.share ctx source = .ok next → I l → I next)
    (hbare : I { lib with shared := {} }) {lib' : Library} (h : lib.reload ctx = .ok lib') :
    I lib' := by
  rw [reload_eq] at h
  generalize { lib with shared := {} } = l at hbare h
  generalize lib.shared.files = files at h
  -- By induction on the sources that are still to be read.
  induction files generalizing l with
  | nil =>
    obtain rfl : l = lib' := Except.ok.inj h
    exact hbare
  | cons file rest ih =>
    rw [List.foldlM_cons] at h
    obtain ⟨next, hread, hrest⟩ := bind_eq_ok_iff.mp h
    obtain ⟨source, hopen, hnext⟩ := bind_eq_ok_iff.mp hread
    exact ih next (hshare hopen hnext hbare) hrest

/-- So is what it reads again. -/
theorem Made.reload (h : lib.Made ctx.config) {lib' : Library}
    (hr : lib.reload ctx = .ok lib') : lib'.Made ctx.config :=
  reload_induct (fun _ hshare hl => hl.share hshare)
    ⟨fun he => absurd he List.not_mem_nil, h.sites⟩ hr

/-- A shared function that is found is in the library that the lookup leaves. -/
theorem Made.sharedFunction (h : lib.Made ctx.config) (name : String) :
    (lib.sharedFunction ctx name).2.Made ctx.config ∧
      ∀ f, (lib.sharedFunction ctx name).1 = .ok (some f) → f.Made ctx.config := by
  unfold Library.sharedFunction
  cases hlib : lib.refreshed ctx with
  | error error => exact ⟨h, nofun⟩
  | ok lib' =>
    -- the functions were made as they are, or have been made anew just now
    have hmade : lib'.Made ctx.config := by
      unfold refreshed at hlib
      split at hlib
      · exact h.reload hlib
      · exact Except.ok.inj hlib ▸ h
    exact ⟨hmade, fun f hf => hmade.shared (Assoc.mem_entries_of_get? (Except.ok.inj hf))⟩

end Library

/-! ### Compiling a file now -/

/-- What compiling a file now gives, with its first site numbered as given. -/
def Context.compileFile (ctx : Context) (file : String) (first : Nat) : Except Error Compiled := do
  let source ← ctx.files.openSource ctx.config.settings.basePath file
  let (unit, _) ← compile ctx.config ctx.files source first
  return unit

/-- A result that compiling a file now gives, with sites from some number on. -/
def IsNow (ctx : Context) (from' : Nat) (file : String) (result : Except Error Compiled) : Prop :=
  ∃ first, from' ≤ first ∧ result = ctx.compileFile file first

/-- Two compilations of one file agree up to their sites. -/
theorem compileFile_alike {ctx : Context} {sites : Nat → Nat → Prop} {file : String}
    {first first' : Nat} (hsites : ∀ k, sites (first + k) (first' + k)) :
    Agree (Compiled.Alike (ctx.config.likeness sites anySource)) (ctx.compileFile file first)
      (ctx.compileFile file first') := by
  refine Agree.after fun source => ?_
  exact (compile_alike (ctx.config.likeness_covers_any ctx.files sites) ⟨⟩ hsites).bind
    fun _ _ hunit => .ok hunit

/-- Two results of compiling one file now agree, if all sites from a number on may stand for one
another. -/
theorem IsNow.agree {ctx : Context} {sites : Nat → Nat → Prop} {from' : Nat} {file : String}
    {result result' : Except Error Compiled} (h : IsNow ctx from' file result)
    (h' : IsNow ctx from' file result') (hsites : ∀ i j, from' ≤ i → from' ≤ j → sites i j) :
    Agree (Compiled.Alike (ctx.config.likeness sites anySource)) result result' := by
  obtain ⟨first, hfirst, rfl⟩ := h
  obtain ⟨first', hfirst', rfl⟩ := h'
  exact compileFile_alike fun k =>
    hsites _ _ (Nat.le_add_right_of_le hfirst) (Nat.le_add_right_of_le hfirst')

/-! ### Sites -/

namespace Library

variable {ctx : Context} {lib : Library}

/-- What a site may use it has compiled. -/
theorem compiledAt?_of_usable {site : Nat} {file : String} {unit : Compiled}
    (h : lib.usable? ctx site file = some unit) : lib.compiledAt? site file = some unit := by
  unfold usable? at h
  split at h
  · rename_i kept hkept
    split at h
    · cases h
    · rwa [← Option.some.inj h]
  · cases h

/-- Whether a site is usable depends on what is compiled there. -/
theorem usable?_eq_of_compiledAt?_eq {lib' : Library} {site : Nat} {file : String}
    (h : lib'.compiledAt? site file = lib.compiledAt? site file) :
    lib'.usable? ctx site file = lib.usable? ctx site file := by
  unfold usable?
  rw [h]

/-- A site without a usable template compiles the file. -/
theorem siteTemplate_of_unusable {site : Nat} {file : String}
    (h : lib.usable? ctx site file = none) :
    (∃ error, ctx.compileFile file lib.sites.size = .error error ∧
      lib.siteTemplate ctx site file = (.error error, lib)) ∨
    ∃ unit count, ctx.compileFile file lib.sites.size = .ok unit ∧
      lib.siteTemplate ctx site file =
        (.ok unit, (lib.withSites count).keepAt site file unit) := by
  unfold siteTemplate Context.compileFile
  rw [h]
  dsimp only
  -- the file may be missing, it may not compile, or there is a template to be kept
  cases hopen : ctx.files.openSource ctx.config.settings.basePath file with
  | error error => exact .inl ⟨error, rfl, rfl⟩
  | ok source =>
    have hbind : (Except.ok source).bind (lib.compile ctx) =
        (Stencil.compile ctx.config ctx.files source lib.sites.size).bind fun r =>
          .ok (r.1, lib.withSites r.2) := rfl
    rw [hbind]
    cases hc : Stencil.compile ctx.config ctx.files source lib.sites.size with
    | error error =>
      refine .inl ⟨error, ?_, rfl⟩
      change (Stencil.compile _ _ _ _ >>= _) = _
      rw [hc]
      rfl
    | ok r =>
      refine .inr ⟨r.1, r.2, ?_, rfl⟩
      change (Stencil.compile _ _ _ _ >>= _) = _
      rw [hc]
      rfl

/-- A usable template is the answer, and nothing is kept. -/
theorem siteTemplate_of_usable {site : Nat} {file : String} {unit : Compiled}
    (h : lib.usable? ctx site file = some unit) :
    lib.siteTemplate ctx site file = (.ok unit, lib) := by
  unfold siteTemplate
  rw [h]

/-- What compiling a file now gives is made with the configuration. -/
theorem made_of_compileFile {file : String} {first : Nat} {unit : Compiled}
    (h : ctx.compileFile file first = .ok unit) : unit.Made ctx.config := by
  obtain ⟨source, _, h⟩ := bind_eq_ok_iff.mp h
  obtain ⟨⟨unit', next⟩, hunit, h⟩ := bind_eq_ok_iff.mp h
  obtain rfl := Except.ok.inj h
  exact ⟨_, _, _, _, hunit⟩

/-- A template that a site answers with is made with the configuration, like what it keeps. -/
theorem Made.siteTemplate (h : lib.Made ctx.config) (site : Nat) (file : String) :
    (lib.siteTemplate ctx site file).2.Made ctx.config ∧
      ∀ unit, (lib.siteTemplate ctx site file).1 = .ok unit → unit.Made ctx.config := by
  -- a template from before was made with the configuration, and a new one is compiled with it now
  cases hu : lib.usable? ctx site file with
  | some unit =>
    rw [siteTemplate_of_usable hu]
    refine ⟨h, fun unit' hunit => ?_⟩
    rw [← Except.ok.inj hunit]
    exact h.sites (compiledAt?_of_usable hu)
  | none =>
    rcases siteTemplate_of_unusable hu with ⟨error, _, heq⟩ | ⟨unit, count, hnow, heq⟩
    · rw [heq]
      exact ⟨h, nofun⟩
    · rw [heq]
      have hmade := made_of_compileFile hnow
      exact ⟨(h.withSites count).keepAt hmade site file, fun _ hunit => Except.ok.inj hunit ▸ hmade⟩

/-- A site answers with what compiling the file now gives, if what it has to use is that. -/
theorem siteTemplate_isNow {site : Nat} {file : String} {from' : Nat}
    (hsize : from' ≤ lib.sites.size)
    (h : ∀ unit, lib.usable? ctx site file = some unit → IsNow ctx from' file (.ok unit)) :
    IsNow ctx from' file (lib.siteTemplate ctx site file).1 := by
  cases hu : lib.usable? ctx site file with
  -- what may be used is what the site has
  | some unit =>
    rw [siteTemplate_of_usable hu]
    exact h unit hu
  -- otherwise the file is compiled, or it fails as it does now
  | none =>
    rcases siteTemplate_of_unusable hu with ⟨error, hnow, heq⟩ | ⟨unit, count, hnow, heq⟩
    · rw [heq]
      exact ⟨_, hsize, hnow.symm⟩
    · rw [heq]
      exact ⟨_, hsize, hnow.symm⟩

/-- What a lookup leaves at a site was there before, or it is at the site that was looked up, for
the file it was looked up for, and compiled for it. -/
theorem compiledAt?_siteTemplate {site i : Nat} {file name : String} {kept : Compiled}
    (h : (lib.siteTemplate ctx site file).2.compiledAt? i name = some kept) :
    lib.compiledAt? i name = some kept ∨
      (i = site ∧ name = file ∧ lib.usable? ctx site file = none ∧
        ctx.compileFile file lib.sites.size = .ok kept) := by
  -- a site with a usable template is left as it is, and otherwise at most this site changes
  cases hu : lib.usable? ctx site file with
  | some unit =>
    rw [siteTemplate_of_usable hu] at h
    exact .inl h
  | none =>
    rcases siteTemplate_of_unusable hu with ⟨error, _, heq⟩ | ⟨unit, count, hnow, heq⟩
    · rw [heq] at h
      exact .inl h
    · rw [heq] at h
      dsimp only at h
      rw [compiledAt?_keepAt] at h
      -- at the site itself stands the new template, and at all others what stood there
      split at h
      · rename_i hsite
        rw [← Option.some.inj h]
        exact .inr ⟨hsite.1, hsite.2.1, rfl, hnow⟩
      · rw [compiledAt?_withSites] at h
        exact .inl h

/-- A template that may be used is never replaced. -/
theorem usable?_siteTemplate_of_usable {site i : Nat} {file name : String} {unit : Compiled}
    (h : lib.usable? ctx i name = some unit) :
    (lib.siteTemplate ctx site file).2.usable? ctx i name = some unit := by
  cases hu : lib.usable? ctx site file with
  | some kept =>
    rw [siteTemplate_of_usable hu]
    exact h
  | none =>
    rcases siteTemplate_of_unusable hu with ⟨error, _, heq⟩ | ⟨kept, count, _, heq⟩
    · rw [heq]
      exact h
    · rw [heq]
      refine (usable?_eq_of_compiledAt?_eq ?_).trans h
      rw [compiledAt?_keepAt, if_neg, compiledAt?_withSites]
      -- The site that was looked up had nothing to use.
      rintro ⟨rfl, rfl, _⟩
      rw [hu] at h
      cases h

/-- Sites are never taken away. -/
theorem size_withSites_le (count : Nat) : lib.sites.size ≤ (lib.withSites count).sites.size := by
  unfold withSites
  rw [Array.size_append]
  exact Nat.le_add_right _ _

/-- A lookup makes place for sites and takes none away. -/
theorem size_siteTemplate_le (site : Nat) (file : String) :
    lib.sites.size ≤ (lib.siteTemplate ctx site file).2.sites.size := by
  cases hu : lib.usable? ctx site file with
  | some unit =>
    have heq := siteTemplate_of_usable hu
    exact Nat.le_of_eq (congrArg (·.2.sites.size) heq.symm)
  -- only a file that has been compiled needs a place
  | none =>
    rcases siteTemplate_of_unusable hu with ⟨error, _, heq⟩ | ⟨unit, count, _, heq⟩
    · exact Nat.le_of_eq (congrArg (·.2.sites.size) heq.symm)
    · rw [heq]
      dsimp only [keepAt]
      rw [Array.size_modify]
      exact size_withSites_le count

/-- To use a site does not change what is shared. -/
theorem shared_siteTemplate (site : Nat) (file : String) :
    (lib.siteTemplate ctx site file).2.shared = lib.shared := by
  cases hu : lib.usable? ctx site file with
  | some unit => rw [siteTemplate_of_usable hu]
  | none =>
    rcases siteTemplate_of_unusable hu with ⟨error, _, heq⟩ | ⟨unit, count, _, heq⟩
    · rw [heq]
    · rw [heq]
      rfl

/-- A run of any statement keeps a library to what is made with the configuration. -/
def madeInvariant (config : Config) : LibraryInvariant config where
  files _ := True
  holds lib := lib.Made config
  sharedFunction := fun {f lib} name _ h => (@Made.sharedFunction ⟨config, f⟩ lib h name).1
  siteTemplate := fun {f lib} site file _ h => (@Made.siteTemplate ⟨config, f⟩ lib h site file).1

end Library

/-- What keeps the library keeps it to what is made with the configuration. -/
theorem Maintains.made {config : Config} {α : Type} {act : Render α}
    (h : Maintains (Library.madeInvariant config) act) {st : RenderState}
    (hmade : st.library.Made config) : (act.runOn st).2.library.Made config :=
  (h (.any fun _ _ _ => id) st ⟨⟨⟩, hmade, ⟨⟩⟩).library

/-! ### What runs find -/

namespace Library

variable {config : Config} {st : RenderState}

/-- A function that is found is one of those at hand, or it is made with the configuration. -/
theorem Made.of_findFunction (h : st.library.Made config) {functions : Assoc TemplateFunction}
    {name : String} {f : TemplateFunction}
    (hfound : ((config.findFunction functions name).runOn st).1 = .ok (some f)) :
    (∃ e ∈ functions.entries, e.2 = f) ∨ f.Made config := by
  unfold Config.findFunction at hfound
  cases hget : functions.get? name with
  -- the template goes in front of the library
  | some f' =>
    rw [hget] at hfound
    cases hfound
    exact .inl ⟨_, Assoc.mem_entries_of_get? hget, rfl⟩
  | none =>
    rw [hget] at hfound
    obtain ⟨-, hmade⟩ := @Made.sharedFunction ⟨config, st.files⟩ st.library h name
    exact .inr (hmade f (mapError_eq_ok_iff.mp hfound))

/-- A file that is rendered is made with the configuration. -/
theorem Made.of_rendered (h : st.library.Made config) {site : Nat} {file : String}
    {location : Location} {unit : Compiled}
    (hunit : ((config.rendered site file location).runOn st).1 = .ok unit) : unit.Made config := by
  obtain ⟨-, hmade⟩ := @Made.siteTemplate ⟨config, st.files⟩ st.library h site file
  exact hmade unit (mapError_eq_ok_iff.mp (mapError_eq_ok_iff.mp hunit))

end Library

end Stencil
