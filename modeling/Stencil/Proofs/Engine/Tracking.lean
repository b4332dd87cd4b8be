import Stencil.Proofs.Engine.Session
import Stencil.Proofs.Template.Locality

/-!
# What an engine knows of files in memory

A source that was opened from memory keeps the number of its entry, with the version and the text
that the entry had. Entries are never taken away, and their versions only grow, so as long as the
version is the same, so is the text. What a source does not know is whether its name still leads to
its entry: this is so until the name is removed (`Source.Tracks`).

In a session without shared functions and without cached strings, everything that the engine has
cached was compiled for the file that it is cached for, among the files of some earlier moment, from
sources that track the files as they are now (`Session.Remembers`).

Main definitions: `Source.Tracks`, `CompiledFor`, `Session.Remembers`.
Main statement: `Session.remembers_run`.
-/

namespace Stencil

open Render

/-! ### Sources in memory -/

/-- A source in memory that may be told from what has become of its entry: the entry has another
version now, or the text that was read. Unless its name is one of those that have been removed, it
leads to the entry. -/
def Source.Tracks (removed : String → Prop) (m : MemoryFiles) : Source → Prop
  | .memory name i content version =>
    (∃ entry, m.entries[i]? = some entry ∧ version ≤ entry.version ∧
      (version = entry.version → content = entry.content)) ∧
    (¬ removed name → m.names.get? name = some i)
  | .disk .. | .string .. => False

namespace Source.Tracks

variable {removed : String → Prop} {m : MemoryFiles} {source : Source}

/-- What has just been opened tracks the files. -/
theorem of_open {files : Files} (hfiles : files.storage = .memory) {basePath : Option String}
    {name : String} (h : files.openSource basePath name = .ok source) :
    source.Tracks removed files.memory := by
  obtain ⟨i, entry, hentry, rfl⟩ := (openSource_eq_ok_iff hfiles).mp h
  obtain ⟨hname, hget⟩ := MemoryFiles.entryOf?_eq_some_iff.mp hentry
  exact ⟨⟨entry, hget, Nat.le_refl _, fun _ => rfl⟩, fun _ => hname⟩

/-- Storing a text counts the version of an entry up, or makes an entry of its own. -/
theorem insert (h : source.Tracks removed m) (name content : String) :
    source.Tracks removed (m.insert name content) := by
  cases source with
  | memory n i c version =>
    obtain ⟨⟨entry, hentry, hle, hsame⟩, hname⟩ := h
    unfold MemoryFiles.insert
    cases hi : m.names.get? name with
    | some j =>
      refine ⟨?_, hname⟩
      dsimp only
      by_cases hij : j = i
      · -- The version has moved on, so nothing is claimed of the text any more.
        subst hij
        refine ⟨⟨content, entry.version + 1⟩, ?_, Nat.le_succ_of_le hle, fun heq => ?_⟩
        · rw [Array.getElem?_modify, if_pos rfl, hentry]
          rfl
        · dsimp only at heq
          omega
      · refine ⟨entry, ?_, hle, hsame⟩
        rw [Array.getElem?_modify, if_neg hij]
        exact hentry
    | none =>
      -- A new name gets an entry behind all others.
      refine ⟨⟨entry, ?_, hle, hsame⟩, fun hn => ?_⟩
      · dsimp only
        have hlt : i < m.entries.size := (Array.getElem?_eq_some_iff.mp hentry).1
        rw [Array.getElem?_push_lt hlt]
        exact congrArg some (Array.getElem?_eq_some_iff.mp hentry).2
      · dsimp only
        rw [Assoc.get?_insert, if_neg]
        · exact hname hn
        · -- The name of the source has an entry, and the stored one has none.
          rintro rfl
          rw [hname hn] at hi
          cases hi
  | disk _ _ _ => exact h
  | string _ _ => exact h

/-- Removing a name leaves all entries to their sources. -/
theorem remove (h : source.Tracks removed m) {name : String} (hremoved : removed name) :
    source.Tracks removed (m.remove name) := by
  cases source with
  | memory n i c version =>
    refine ⟨h.1, fun hn => ?_⟩
    -- the name that is removed is the one of the source, or another one
    change (m.names.erase name).get? n = some i
    rw [Assoc.get?_erase, if_neg]
    · exact h.2 hn
    · rintro rfl
      exact hn hremoved
  -- other sources do not depend on the files in memory
  | disk _ _ _ => exact h
  | string _ _ => exact h

/-- A source that has not been modified is current, unless its name has been removed. -/
theorem current {files : Files} (h : source.Tracks removed files.memory)
    (hunmodified : source.isModified files = false)
    (hkept : ∀ name, source.fileName? = some name → ¬ removed name) :
    source.Current files.memory := by
  -- only a file in memory can be current: its entry has the version it was opened with, so it has
  -- the content too
  cases source with
  | memory name i content version =>
    obtain ⟨⟨entry, hentry, _, hsame⟩, hname⟩ := h
    have hversion : entry.version = version := by
      unfold Source.isModified at hunmodified
      dsimp only at hunmodified
      rw [hentry] at hunmodified
      simpa using hunmodified
    have hcontent : content = entry.content := hsame hversion.symm
    subst hcontent
    exact ⟨i, entry.version,
      MemoryFiles.entryOf?_eq_some_iff.mpr ⟨hname (hkept name rfl), hentry⟩⟩
  | disk _ _ _ => exact h.elim
  | string _ _ => exact h.elim

end Source.Tracks

/-! ### Templates of files -/

/-- A template that was compiled for a file, among files in memory of some moment, from sources of
some kind. -/
structure CompiledFor (config : Config) (P : Source → Prop) (file : String) (unit : Compiled) :
    Prop where
  compiled : ∃ files first, files.storage = .memory ∧
    Context.compileFile ⟨config, files⟩ file first = .ok unit
  sources : ∀ source ∈ unit.sources, P source

/-- What was compiled for a file from one kind of source was from any wider kind. -/
theorem CompiledFor.mono {config : Config} {P Q : Source → Prop} {file : String} {unit : Compiled}
    (h : CompiledFor config P file unit) (hPQ : ∀ {source}, P source → Q source) :
    CompiledFor config Q file unit :=
  ⟨h.compiled, fun source hs => hPQ (h.sources source hs)⟩

/-- What compiling a file now gives, taken apart. -/
theorem compileFile_eq_ok_iff {ctx : Context} {file : String} {first : Nat} {unit : Compiled} :
    ctx.compileFile file first = .ok unit ↔
      ∃ source next, ctx.files.openSource ctx.config.settings.basePath file = .ok source ∧
        compile ctx.config ctx.files source first = .ok (unit, next) := by
  unfold Context.compileFile
  rw [bind_eq_ok_iff]
  constructor
  · rintro ⟨source, hopen, h⟩
    -- the file is opened first, and then its text is compiled
    obtain ⟨⟨unit', next⟩, hcompile, hunit⟩ := bind_eq_ok_iff.mp h
    obtain rfl := Except.ok.inj hunit
    exact ⟨source, next, hopen, hcompile⟩
  · rintro ⟨source, next, hopen, hcompile⟩
    exact ⟨source, hopen, bind_eq_ok_iff.mpr ⟨(unit, next), hcompile, rfl⟩⟩

/-- What is compiled for a file now tracks the files. -/
theorem CompiledFor.of_compileFile {ctx : Context} (hfiles : ctx.files.storage = .memory)
    {removed : String → Prop} {file : String} {first : Nat} {unit : Compiled}
    (h : ctx.compileFile file first = .ok unit) :
    CompiledFor ctx.config (·.Tracks removed ctx.files.memory) file unit where
  compiled := ⟨ctx.files, first, hfiles, h⟩
  sources := by
    obtain ⟨source, next, hopen, hcompile⟩ := compileFile_eq_ok_iff.mp h
    exact compile_reads (fun _ _ => Source.Tracks.of_open hfiles) (.of_open hfiles hopen) hcompile

/-! ### Libraries without shared functions -/

namespace Library

/-- A library without shared functions, whose sites have compiled what they have compiled for its
file. -/
structure Remembers (config : Config) (P : Source → Prop) (lib : Library) : Prop where
  unshared : lib.shared = {}
  sites : ∀ {site file unit}, lib.compiledAt? site file = some unit →
    CompiledFor config P file unit

variable {ctx : Context} {lib : Library}

/-- Without shared functions a lookup finds none. -/
theorem sharedFunction_unshared (h : lib.shared = {}) (name : String) :
    lib.sharedFunction ctx name = (.ok none, lib) := by
  have hrefreshed : lib.refreshed ctx = .ok lib := by
    unfold refreshed SharedFunctions.isModified
    rw [h, List.any_nil, Bool.and_false]
    rfl
  unfold sharedFunction
  rw [hrefreshed]
  dsimp only
  rw [h]
  rfl

namespace Remembers

variable {P : Source → Prop}

/-- What a library remembers does not depend on its sites. -/
theorem withSites {config : Config} (h : lib.Remembers config P) (count : Nat) :
    (lib.withSites count).Remembers config P :=
  ⟨h.unshared, fun hget => h.sites (by rwa [compiledAt?_withSites] at hget)⟩

/-- To use a site keeps what a library remembers: what was compiled for it was opened just now. -/
theorem siteTemplate (hfiles : ctx.files.storage = .memory) {removed : String → Prop}
    (h : lib.Remembers ctx.config (·.Tracks removed ctx.files.memory)) (site : Nat)
    (file : String) :
    (lib.siteTemplate ctx site file).2.Remembers ctx.config
      (·.Tracks removed ctx.files.memory) where
  unshared := (shared_siteTemplate site file).trans h.unshared
  sites := by
    intro i name unit hget
    rcases compiledAt?_siteTemplate hget with hold | ⟨_, rfl, _, hnow⟩
    · exact h.sites hold
    · exact .of_compileFile hfiles hnow

end Remembers

/-- Renders keep it so, whatever they write to disk. -/
def remembersInvariant (config : Config) (removed : String → Prop) (m : MemoryFiles) :
    LibraryInvariant config where
  files f := f.storage = .memory ∧ f.memory = m
  holds lib := lib.Remembers config (·.Tracks removed m)
  sharedFunction := by
    rintro f lib name ⟨_, rfl⟩ h
    rw [sharedFunction_unshared h.unshared]
    exact h
  siteTemplate := by
    rintro f lib site file ⟨hfiles, rfl⟩ h
    exact @Remembers.siteTemplate ⟨config, f⟩ lib hfiles removed h site file

end Library

/-- What is written to disk does not change the files in memory. -/
theorem saved_memory (before after : Output) (f : Files) :
    (saved before after f).storage = f.storage ∧ (saved before after f).memory = f.memory := by
  unfold saved
  split
  · split <;> exact ⟨rfl, rfl⟩
  · exact ⟨rfl, rfl⟩
  · exact ⟨rfl, rfl⟩

/-! ### Sessions -/

/-- An event that shares no functions and caches no string. -/
def Event.Plain : Event → Prop
  | .shareFile _ | .shareText _ => False
  | .getText _ cached => cached = false
  | _ => True

namespace Session

/-- Everything that an engine has cached was compiled for its file, and tracks the files as they
are. -/
structure Remembers (config : Config) (removed : String → Prop) (s : Session) : Prop where
  storage : s.files.storage = .memory
  settled : s.engine.config = config
  library : s.engine.library.Remembers config (·.Tracks removed s.files.memory)
  cache : ∀ {key t}, s.engine.cache.get? key = some t →
    CompiledFor config (·.Tracks removed s.files.memory) key t.unit

variable {config : Config} {removed : String → Prop} {s : Session}

/-- A new session remembers nothing. -/
theorem Remembers.start (name : String) (config : Config) {files : Files}
    (hfiles : files.storage = .memory) (removed : String → Prop) :
    (start name config files).Remembers config removed where
  storage := hfiles
  settled := rfl
  library := ⟨rfl, fun hget => by simp [Session.start, Library.compiledAt?] at hget⟩
  cache h := nomatch h

namespace Remembers

/-- What happens to the files in memory alone, if sources track it. -/
theorem withMemory (h : s.Remembers config removed) {m : MemoryFiles}
    (hm : ∀ {source : Source}, source.Tracks removed s.files.memory → source.Tracks removed m) :
    ({ s with files := { s.files with memory := m } } : Session).Remembers config removed where
  storage := h.storage
  settled := h.settled
  library := ⟨h.library.unshared, fun hget => (h.library.sites hget).mono hm⟩
  cache hget := (h.cache hget).mono hm

/-- What is compiled remembers sources that are current now, and the cache does not change. -/
theorem compile (h : s.Remembers config removed) {source : Source} {r : Template × Engine}
    (hr : s.engine.compile s.files source = .ok r) :
    r.2.library.Remembers config (·.Tracks removed s.files.memory) ∧ r.2.config = config ∧
      r.2.cache = s.engine.cache := by
  obtain ⟨unit, library, hunit, rfl⟩ := Engine.compile_eq_ok hr
  obtain ⟨count, _, hlib⟩ := Library.compile_eq_ok hunit
  dsimp only at hlib
  rw [hlib]
  exact ⟨h.library.withSites count, h.settled, rfl⟩

/-- A request for a file keeps what a session remembers. -/
theorem getTemplate (h : s.Remembers config removed) (name : String) :
    (s.take (s.engine.getTemplate s.files name)).Remembers config removed := by
  cases hr : s.engine.getTemplate s.files name with
  | error e => exact h
  | ok r =>
    obtain ⟨t, engine⟩ := r
    -- the cache has answered and nothing changed, or the file was opened now and compiled into the
    -- cache
    rcases Engine.getTemplate_eq_ok hr with ⟨_, hengine⟩ | ⟨_, source, hopen, hinto⟩
    · obtain rfl : engine = s.engine := hengine
      exact ⟨h.storage, h.settled, h.library, h.cache⟩
    · obtain ⟨engine', hcompile, hengine⟩ := Engine.compileInto_eq_ok hinto
      obtain ⟨hlibrary, hsettled, hcache⟩ := h.compile hcompile
      dsimp only at hengine hlibrary hsettled hcache
      obtain rfl := hengine
      refine ⟨h.storage, hsettled, hlibrary, fun {key t'} hget => ?_⟩
      change (engine'.cache.insert name t).get? key = some t' at hget
      rw [Assoc.get?_insert] at hget
      split at hget
      · -- What was just compiled for the file is the only new template in the cache.
        rename_i hkey
        obtain rfl := hkey
        rw [← Option.some.inj hget]
        obtain ⟨unit, library, hunit, heq⟩ := Engine.compile_eq_ok hcompile
        obtain ⟨count, hcount, _⟩ := Library.compile_eq_ok hunit
        have hnow : (s.engine.context s.files).compileFile key s.engine.library.sites.size =
            .ok unit := compileFile_eq_ok_iff.mpr ⟨source, count, hopen, hcount⟩
        rw [show t.unit = unit from congrArg (·.1.unit) heq]
        obtain rfl := h.settled
        exact @CompiledFor.of_compileFile (s.engine.context s.files) h.storage removed _ _ _ hnow
      · rw [hcache] at hget
        exact h.cache hget

/-- A render keeps what is cached and whatever sites have compiled. -/
theorem render (h : s.Remembers config removed) (files : Files)
    (hfiles : files.storage = .memory ∧ files.memory = s.files.memory) (fuel : Nat) (t : Template)
    (data : Assoc Value) (heap : Heap) (output : Output) :
    ({ s with engine := (s.engine.render files fuel t data heap output).engine
              files := (s.engine.render files fuel t data heap output).files } :
      Session).Remembers config removed := by
  obtain rfl := h.settled
  obtain ⟨⟨hstorage, hmemory⟩, hlibrary, _⟩ := Engine.render_maintains
    (Library.remembersInvariant s.engine.config removed s.files.memory)
    (.any fun before after f hf =>
      ⟨(saved_memory before after f).1.trans hf.1, (saved_memory before after f).2.trans hf.2⟩)
    fuel t data heap hfiles h.library ⟨⟩
  refine ⟨hstorage, rfl, ?_, fun hget => ?_⟩
  -- neither the files in memory nor the cache are changed by the render
  · dsimp only
    rw [hmemory]
    exact hlibrary
  · dsimp only
    rw [hmemory]
    exact h.cache hget

/-- Every plain event keeps it so, if what it removes is among the removed names. -/
theorem step (h : s.Remembers config removed) {e : Event} (he : e.Plain)
    (hremoved : ∀ name, e = .remove name → removed name) :
    (s.step e).Remembers config removed := by
  cases e with
  | store name content => exact h.withMemory fun hs => hs.insert name content
  | remove name => exact h.withMemory fun hs => hs.remove (hremoved name rfl)
  | write path content => exact ⟨h.storage, h.settled, h.library, h.cache⟩
  | delete path => exact ⟨h.storage, h.settled, h.library, h.cache⟩
  | get name => exact h.getTemplate name
  | getText content cached =>
    -- A string that is not cached is compiled and handed out, and leaves no template behind.
    obtain rfl : cached = false := he
    change (s.take (s.engine.compile s.files (.string content false))).Remembers config removed
    cases hr : s.engine.compile s.files (.string content false) with
    | error e => exact h
    | ok r =>
      obtain ⟨hlibrary, hsettled, hcache⟩ := h.compile hr
      refine ⟨h.storage, hsettled, hlibrary, fun hget => ?_⟩
      change r.2.cache.get? _ = some _ at hget
      rw [hcache] at hget
      exact h.cache hget
  | evict key =>
    refine ⟨h.storage, h.settled, h.library, fun {key' t} hget => ?_⟩
    change (s.engine.cache.erase key).get? key' = some t at hget
    rw [Assoc.get?_erase] at hget
    split at hget
    · cases hget
    · exact h.cache hget
  | clear => exact ⟨h.storage, h.settled, h.library, fun hget => nomatch hget⟩
  | shareFile name => exact he.elim
  | shareText content => exact he.elim
  | render template fuel data heap output =>
    change (s.rendered template _).Remembers config removed
    unfold rendered
    split
    · exact h.render s.files ⟨h.storage, rfl⟩ fuel _ data heap output
    · exact h
  | renderToFile template fuel data heap path =>
    -- The render runs beside a disk with the emptied file, and the files in memory are the same.
    change (s.rendered template _).Remembers config removed
    unfold rendered
    split
    · unfold Engine.renderToFile
      split
      · exact h
      · rename_i disk _
        exact h.render { s.files with disk } ⟨h.storage, rfl⟩ fuel _ data heap _
    · exact h

end Remembers

/-- **What is cached is known.** In a session over files in memory that shares no functions and
caches no strings, everything that is cached was compiled for its file, and its sources track the
files, apart from names that were removed. -/
theorem remembers_run (name : String) (config : Config) {files : Files}
    (hfiles : files.storage = .memory) {events : List Event} (hevents : ∀ e ∈ events, e.Plain) :
    ((start name config files).run events).Remembers config
      fun removed => .remove removed ∈ events :=
  run_induct (P := fun e => e.Plain ∧ ∀ removed, e = .remove removed → .remove removed ∈ events)
    (fun he h => h.step he.1 he.2) (.start name config hfiles _)
    fun e he => ⟨hevents e he, fun _ hremove => hremove ▸ he⟩

end Session

end Stencil
