import Mathlib.Data.List.DropRight
import Mathlib.Data.List.Nodup
import Stencil.Engine
import Stencil.Proofs.Render.Warm
import Stencil.Proofs.Template.Failures
import Stencil.Proofs.Template.Locality

/-!
# Sharing functions

The shared functions of an engine come from files, strings and sources that were shared on request,
one after the other. In dev mode they are all read again, at the first lookup after any text that
they were read from has changed, by a procedure of its own. However requests, lookups and whatever
else an engine does follow one another, and however the files change in between:

* The table of functions is the concatenation of the tables of compiled templates, one for each file
  that is listed, and no two of these define one name (`SharedFunctions.Assembled`). There is one
  file for each request that was granted, in their order (`Engine.granted`, `ShareRequest.Lists`).
* A request adds everything that its source defines, or it fails and adds nothing: the source is
  missing, it cannot be compiled, or one of its names is taken (`Registration`).
* Reading all of them again goes back to the requests, one after the other from an empty table. A
  request for a file or a string is made once more; a source is not taken again, but replaced by
  what the engine's own files have under its name. If one of them fails, the engine stays as it was
  (`Engine.use_lookUp`).

So reading again is registering the same sources with their texts as they are now if and only if
every source that was shared leads back to itself (`ShareRequest.LeadsBack`). Files and strings
always do, and so does a source that the engine's own files have opened
(`ShareRequest.leadsBack_of_openSource`). A source from elsewhere may not: another file takes its
place if one goes by its name (`Engine.not_sharing_atomic`).

All this speaks of the engine without its shared functions, which keeps the sites that it has
numbered. For a new engine the numbers of the sites are others, and nothing else is
(`Engine.shareAll_shifted`).

Main definitions: `ShareRequest`, `Engine.use`, `Engine.granted`, `Registration`,
`SharedFunctions.Assembled`, `ShareRequest.LeadsBack`.
Main statements: `Library.share_registration`, `Engine.use_lookUp`, `Engine.sharing_atomic`.
-/

namespace Stencil

/-! ### Requests -/

/-- A request to share functions. -/
inductive ShareRequest where
  | file (name : String)
  | text (content : String)
  | source (root : Source)
deriving DecidableEq, Repr

/-- A source with the text that it has by now: what is in memory under its name, or on disk at its
path. -/
def Source.renew (files : Files) : Source → Except Error Source
  | .memory name .. => files.openMemory name
  | .disk name path _ =>
    match files.disk.file? path with
    | some file => .ok (.disk name path file.stamp)
    | none => .error (.missingTemplate path)
  | .string content cached => .ok (.string content cached)

/-- The source that a request is about. -/
def ShareRequest.open (config : Config) (files : Files) : ShareRequest → Except Error Source
  | .file name => files.openSource config.settings.basePath name
  | .text content => .ok (.string content false)
  | .source root => .ok root

namespace ShareRequest

variable (config : Config) (files : Files)

/-- The source that a request is about, as it is now. -/
def renew : ShareRequest → Except Error Source
  | .source root => root.renew files
  | request => request.open config files

/-- The source that is read when a request is gone back to: what has a name is opened by it. -/
def reopen : ShareRequest → Except Error Source
  | .source root => Library.reopen ⟨config, files⟩ root
  | request => request.open config files

/-- Going back to a request comes to the source that it is about, or to none. -/
def LeadsBack (request : ShareRequest) : Prop :=
  ∀ source, request.reopen config files = .ok source → request.renew config files = .ok source

/-- A file stands for a request: whatever the files are, reading it again is going back to the
request. (Where there is no such file, the errors may show the name in different ways.) -/
def Lists (storage : Storage) (request : ShareRequest) (file : SharedFile) : Prop :=
  ∀ files : Files, files.storage = storage → ∀ source,
    Library.reopen ⟨config, files⟩ file.root = .ok source ↔ request.reopen config files = .ok source

end ShareRequest

/-- What an engine does with its library. -/
inductive Use where
  | share (request : ShareRequest)
  /-- A render looks a shared function up. -/
  | lookUp (name : String)
  /-- A render asks a site for its template. -/
  | site (site : Nat) (file : String)
  /-- A template is compiled. -/
  | compile (source : Source)

namespace Engine

variable (engine : Engine) (files : Files)

/-- Shares functions on request. -/
def request : ShareRequest → Except Error Engine
  | .file name => engine.shareFile files name
  | .text content => engine.shareString files content
  | .source root => engine.share files root

/-- Shares one source after the other, up to the first one that is missing or cannot be shared. -/
def shareAll (sources : List (Except Error Source)) : Except Error Engine :=
  sources.foldlM (fun engine source => do engine.share files (← source)) engine

/-- How an attempt ends, and the engine that it leaves. -/
def settle : Except Error Engine → Except Error Unit × Engine
  | .ok engine => (.ok (), engine)
  | .error e => (.error e, engine)

/-- The engine without its shared functions. -/
def unshared : Engine := { engine with library := { engine.library with shared := {} } }

/-- How a use of the library ends, and the engine that it leaves. -/
def use : Use → Except Error Unit × Engine
  | .share request => engine.settle (engine.request files request)
  | .lookUp name =>
    let (found, library) := engine.library.sharedFunction (engine.context files) name
    (found.map fun _ => (), { engine with library })
  | .site site file =>
    let (unit, library) := engine.library.siteTemplate (engine.context files) site file
    (unit.map fun _ => (), { engine with library })
  | .compile source => engine.settle ((engine.compile files source).map (·.2))

/-- The engine behind some uses, each with the files as they are then. -/
def after (uses : List (Files × Use)) : Engine :=
  uses.foldl (fun engine use => (engine.use use.1 use.2).2) engine

/-- The request of a use, if it makes one and it is granted. -/
def grants (use : Use) : List ShareRequest :=
  match use, (engine.use files use).1 with
  | .share request, .ok () => [request]
  | _, _ => []

/-- The requests that are granted in the course of some uses, as they were made. -/
def granted (engine : Engine) : List (Files × Use) → List ShareRequest
  | [] => []
  | (files, use) :: rest =>
    engine.grants files use ++ (engine.use files use).2.granted rest

end Engine

/-! ### What a request does -/

/-- What becomes of a request for a source, and of the functions that are shared: all of them stay
as they are, or all functions of the source are added. -/
inductive Registration (config : Config) (files : Files) (first : Nat) (s : SharedFunctions) :
    Except Error Source → Except Error Unit → SharedFunctions → Prop
  | missing (e : Error) : Registration config files first s (.error e) (.error e) s
  | broken {source : Source} {e : Error} : compile config files source first = .error e →
      Registration config files first s (.ok source) (.error e) s
  | taken {source : Source} {unit : Compiled} {next : Nat} {name : String} :
      compile config files source first = .ok (unit, next) →
      name ∈ unit.functions.keys → name ∈ s.functions.keys →
      Registration config files first s (.ok source)
        (.error (.config (.sharedFunctionExists name))) s
  | added {source : Source} {unit : Compiled} {next : Nat} {s' : SharedFunctions} :
      compile config files source first = .ok (unit, next) →
      s.functions.keys.Disjoint unit.functions.keys →
      s'.functions.entries = s.functions.entries ++ unit.functions.entries →
      s'.files = s.files ++ [⟨source, unit.sources⟩] →
      Registration config files first s (.ok source) (.ok ()) s'

namespace Library

variable {ctx : Context} {lib : Library}

/-- Sharing a source is a registration. -/
theorem share_registration (source : Source) :
    Ends (fun next => Registration ctx.config ctx.files lib.sites.size lib.shared (.ok source)
        (.ok ()) next.shared)
      (fun e => Registration ctx.config ctx.files lib.sites.size lib.shared (.ok source) (.error e)
        lib.shared)
      (lib.share ctx source) := by
  unfold share compile
  cases hcompile : Stencil.compile ctx.config ctx.files source lib.sites.size with
  | error e => exact Registration.broken hcompile
  | ok r =>
    obtain ⟨unit, count⟩ := r
    change Ends _ _ (lib.shared.add source unit >>= _)
    unfold SharedFunctions.add
    -- All names are looked up before any function is added.
    cases hfind : unit.functions.keys.find? lib.shared.functions.contains with
    | some name =>
      have hmem : name ∈ lib.shared.functions.keys :=
        (Assoc.contains_iff_mem_keys _ _).mp (List.find?_some hfind)
      exact Registration.taken hcompile (List.mem_of_find?_eq_some hfind) hmem
    | none =>
      have hapart : lib.shared.functions.keys.Disjoint unit.functions.keys := by
        intro name hold hnew
        exact List.find?_eq_none.mp hfind name hnew ((Assoc.contains_iff_mem_keys _ _).mpr hold)
      have hnodup : ((lib.shared.functions.entries ++ unit.functions.entries).map
          Prod.fst).Nodup := by
        rw [List.map_append]
        exact List.Nodup.append lib.shared.functions.nodup unit.functions.nodup hapart
      exact Registration.added hcompile hapart (Assoc.entries_insertAll hnodup) rfl

end Library

namespace Engine

variable (engine : Engine) (files : Files)

/-- A request is granted by opening its source, which is then shared. -/
theorem request_eq (request : ShareRequest) :
    engine.request files request = request.open engine.config files >>= engine.share files := by
  cases request <;> rfl

/-- A request is a registration of its source. -/
theorem use_share_registration (request : ShareRequest) :
    Registration engine.config files engine.library.sites.size engine.library.shared
      (request.open engine.config files) (engine.use files (.share request)).1
      (engine.use files (.share request)).2.library.shared := by
  have huse : engine.use files (.share request) =
      engine.settle (request.open engine.config files >>= engine.share files) := by
    rw [← request_eq]
    rfl
  rw [huse]
  -- the source is missing, or the library answers for the source
  cases request.open engine.config files with
  | error e => exact .missing e
  | ok source =>
    have hshare := @Library.share_registration (engine.context files) engine.library source
    change Registration _ _ _ _ _
      (engine.settle (engine.library.share (engine.context files) source >>= _)).1
      (engine.settle (engine.library.share (engine.context files) source >>= _)).2.library.shared
    cases hlib : engine.library.share (engine.context files) source with
    | error e => exact hshare.of_error hlib
    | ok library => exact hshare.of_ok hlib

end Engine

/-! ### Reading by name -/

/-- What is opened from files on disk. -/
theorem openSource_disk_eq_ok_iff {files : Files} (hfiles : files.storage = .disk)
    {basePath : Option String} {name : String} {source : Source} :
    files.openSource basePath name = .ok source ↔
      ∃ file, files.disk.file? (Files.diskPath basePath name) = some file ∧
        source = .disk name (Files.diskPath basePath name) file.stamp := by
  unfold Files.openSource Files.openDisk
  rw [hfiles]
  dsimp only
  -- a path that no file has opens nothing
  cases files.disk.file? (Files.diskPath basePath name) with
  | none => exact ⟨nofun, nofun⟩
  | some file =>
    constructor
    · intro h
      exact ⟨file, rfl, (Except.ok.inj h).symm⟩
    · rintro ⟨_, hfile, rfl⟩
      obtain rfl := Option.some.inj hfile
      rfl

/-- A source that was opened has a name, and the name leads where it was opened from. -/
theorem openSource_fileName {files : Files} {basePath : Option String} {name : String}
    {source : Source} (h : files.openSource basePath name = .ok source) :
    ∃ own, source.fileName? = some own ∧
      ∀ now : Files, now.storage = files.storage → ∀ next,
        now.openSource basePath own = .ok next ↔ now.openSource basePath name = .ok next := by
  cases hstorage : files.storage with
  | memory =>
    obtain ⟨i, entry, _, rfl⟩ := (openSource_eq_ok_iff hstorage).mp h
    refine ⟨withoutSlashes name, rfl, fun now hnow next => ?_⟩
    -- Slashes that are gone cannot be taken away once more.
    have hkey : withoutSlashes (withoutSlashes name) = withoutSlashes name := by
      unfold withoutSlashes
      rw [String.toList_ofList, List.dropWhile_idempotent]
    rw [openSource_eq_ok_iff hnow, openSource_eq_ok_iff hnow, hkey]
  | disk =>
    obtain ⟨file, _, rfl⟩ := (openSource_disk_eq_ok_iff hstorage).mp h
    exact ⟨name, rfl, fun _ _ _ => Iff.rfl⟩

namespace ShareRequest

variable {config : Config} {files : Files} {request : ShareRequest} {source : Source}

/-- A source that was opened under a name is reopened under the same name, so it stands for every
request that goes back to this name. -/
theorem lists_of_openSource {name : String} {watched : List Source}
    (h : files.openSource config.settings.basePath name = .ok source) (hname : ∀ now : Files,
      request.reopen config now = now.openSource config.settings.basePath name) :
    request.Lists config files.storage ⟨source, watched⟩ := by
  obtain ⟨own, hown, hagain⟩ := openSource_fileName h
  intro now hnow next
  rw [hname, ← hagain now hnow, Library.reopen, hown]

/-- What was read again for a request is read again for it the next time. -/
theorem lists_of_reopen {watched : List Source} (h : request.reopen config files = .ok source) :
    request.Lists config files.storage ⟨source, watched⟩ := by
  cases request with
  | file name => exact lists_of_openSource h fun _ => rfl
  | text content =>
    -- a text is never read from anywhere, and stays as it is
    obtain rfl := Except.ok.inj h
    exact fun _ _ _ => Iff.rfl
  | source root =>
    -- a source with a name is looked for under this name, and one without a name is kept
    cases hname : root.fileName? with
    | some name =>
      have hreopen (now : Files) : (ShareRequest.source root).reopen config now =
          now.openSource config.settings.basePath name := by
        simp only [reopen, Library.reopen, hname]
      exact lists_of_openSource ((hreopen files).symm.trans h) hreopen
    | none =>
      simp only [reopen, Library.reopen, hname, Except.ok.injEq] at h
      rw [h]
      exact fun _ _ _ => Iff.rfl

/-- So is what was read for it first. -/
theorem lists_of_open {watched : List Source} (h : request.open config files = .ok source) :
    request.Lists config files.storage ⟨source, watched⟩ := by
  cases request with
  | file name => exact lists_of_reopen h
  | text content => exact lists_of_reopen h
  | source root =>
    obtain rfl := Except.ok.inj h
    exact fun _ _ _ => Iff.rfl

/-- A source that files of the engine have opened leads back, to the file as it is now. -/
theorem leadsBack_of_openSource {before : Files} (hstorage : before.storage = files.storage)
    {name : String} (h : before.openSource config.settings.basePath name = .ok source) :
    (ShareRequest.source source).LeadsBack config files := by
  intro next hnext
  cases hkind : files.storage with
  | memory =>
    obtain ⟨i, entry, _, rfl⟩ := (openSource_eq_ok_iff (hstorage.trans hkind)).mp h
    simp only [reopen, Library.reopen, Source.fileName?, Files.openSource, hkind] at hnext
    exact hnext
  | disk =>
    obtain ⟨_, _, rfl⟩ := (openSource_disk_eq_ok_iff (hstorage.trans hkind)).mp h
    -- It is opened by the same name at the same path.
    obtain ⟨file, hfile, rfl⟩ := (openSource_disk_eq_ok_iff hkind).mp hnext
    simp only [renew, Source.renew, hfile]

end ShareRequest

/-! ### Tables that are put together -/

/-- A file of shared functions has been compiled to a template, at some time. -/
def SharedFile.CompiledTo (config : Config) (file : SharedFile) (unit : Compiled) : Prop :=
  file.watched = unit.sources ∧
    ∃ files first next, compile config files file.root first = .ok (unit, next)

/-- The shared functions are those of compiled templates, one for each file. -/
structure SharedFunctions.Assembled (config : Config) (s : SharedFunctions)
    (units : List Compiled) : Prop where
  files : List.Forall₂ (SharedFile.CompiledTo config) s.files units
  functions : s.functions.entries = units.flatMap (·.functions.entries)

namespace SharedFunctions.Assembled

variable {config : Config} {s s' : SharedFunctions} {units : List Compiled}

theorem empty : Assembled config {} [] := ⟨.nil, rfl⟩

/-- The union is a disjoint one, since the table has every name once. -/
theorem apart (h : s.Assembled config units) :
    units.Pairwise fun unit other => unit.functions.keys.Disjoint other.functions.keys := by
  have hnodup := s.functions.nodup
  rw [h.functions, List.map_flatMap] at hnodup
  exact (List.nodup_flatMap.mp hnodup).2

/-- **What a registration keeps.** The new functions are those of one more template. -/
theorem register (h : s.Assembled config units) {files : Files} {first : Nat} {source : Source}
    (hr : Registration config files first s (.ok source) (.ok ()) s') :
    ∃ unit, s'.Assembled config (units ++ [unit]) := by
  cases hr with
  | @added _ unit next _ hcompile _ hfunctions hfiles =>
    refine ⟨unit, ?_, ?_⟩
    · rw [hfiles]
      exact List.rel_append h.files (.cons ⟨rfl, files, first, next, hcompile⟩ .nil)
    · rw [hfunctions, h.functions, List.flatMap_append, List.flatMap_singleton]

end SharedFunctions.Assembled

/-! ### What uses keep -/

namespace Library

variable {ctx : Context} {lib : Library}

/-- By induction on the sources that are read again. -/
theorem assembled_reload {lib' : Library} (h : lib.reload ctx = .ok lib') :
    ∃ units, lib'.shared.Assembled ctx.config units := by
  refine reload_induct (I := fun l => ∃ units, l.shared.Assembled ctx.config units) ?_
    ⟨[], .empty⟩ h
  rintro l root source next _ hshare ⟨units, hl⟩
  obtain ⟨unit, hnext⟩ := hl.register ((share_registration source).of_ok hshare)
  exact ⟨_, hnext⟩

/-- To look up a shared function keeps the functions put together, read again or not. -/
theorem assembled_sharedFunction (h : ∃ units, lib.shared.Assembled ctx.config units)
    (name : String) :
    ∃ units, (lib.sharedFunction ctx name).2.shared.Assembled ctx.config units := by
  unfold sharedFunction
  cases hlib : lib.refreshed ctx with
  | error e => exact h
  | ok lib' =>
    unfold refreshed at hlib
    split at hlib
    · exact assembled_reload hlib
    · obtain rfl := Except.ok.inj hlib
      exact h

end Library

namespace Engine

/-- An engine whose shared functions are put together from templates of its configuration. -/
structure Assembled (config : Config) (engine : Engine) : Prop where
  settled : engine.config = config
  shared : ∃ units, engine.library.shared.Assembled config units

variable {config : Config} {engine : Engine} {files : Files}

/-- What comes of a step that may fail is put together if what it ends in is. -/
theorem Assembled.settle (h : engine.Assembled config) {x : Except Error Engine}
    (hx : ∀ next, x = .ok next → next.Assembled config) :
    (engine.settle x).2.Assembled config := by
  cases x with
  | ok next => exact hx next rfl
  | error e => exact h

/-- To share a source keeps the functions put together, with this source behind the others. -/
theorem Assembled.share (h : engine.Assembled config) {source : Source} {next : Engine}
    (hs : engine.share files source = .ok next) : next.Assembled config := by
  obtain ⟨library, hlib, hnext⟩ := bind_eq_ok_iff.mp hs
  obtain rfl := Except.ok.inj hnext
  obtain ⟨rfl, units, hunits⟩ := h
  obtain ⟨unit, hunit⟩ := hunits.register ((Library.share_registration source).of_ok hlib)
  exact ⟨rfl, _, hunit⟩

/-- The template of a site is none of the shared functions. -/
theorem shared_use_site (site : Nat) (file : String) :
    (engine.use files (.site site file)).2.library.shared = engine.library.shared :=
  Library.shared_siteTemplate site file

/-- A compilation makes place for sites, and shares nothing. -/
theorem use_compile (engine : Engine) (files : Files) (source : Source) :
    (engine.use files (.compile source)).2.config = engine.config ∧
      (engine.use files (.compile source)).2.library.shared = engine.library.shared := by
  have huse : engine.use files (.compile source) =
      engine.settle ((engine.compile files source).map (·.2)) := rfl
  rw [huse]
  cases hcompile : engine.compile files source with
  | error e => exact ⟨rfl, rfl⟩
  | ok r =>
    obtain ⟨⟨unit, library⟩, hlib, hr⟩ := bind_eq_ok_iff.mp hcompile
    obtain ⟨count, _, hplace⟩ := Library.compile_eq_ok hlib
    obtain rfl := Except.ok.inj hr
    obtain rfl : library = engine.library.withSites count := hplace
    exact ⟨rfl, rfl⟩

/-- **Every use keeps the shared functions put together.** -/
theorem Assembled.use (h : engine.Assembled config) (use : Use) :
    (engine.use files use).2.Assembled config := by
  cases use with
  | share request =>
    -- only a request that is granted changes what is shared
    refine h.settle fun next hnext => ?_
    rw [request_eq] at hnext
    obtain ⟨source, _, hshare⟩ := bind_eq_ok_iff.mp hnext
    exact h.share hshare
  | lookUp name =>
    obtain ⟨rfl, hshared⟩ := h
    exact ⟨rfl, @Library.assembled_sharedFunction (engine.context files) _ hshared name⟩
  -- sites and compiled templates have libraries of their own
  | site site file => exact ⟨h.settled, (shared_use_site site file).symm ▸ h.shared⟩
  | compile source =>
    obtain ⟨hconfig, hshared⟩ := use_compile engine files source
    exact ⟨hconfig.trans h.settled, hshared.symm ▸ h.shared⟩

/-- So does any number of uses. -/
theorem Assembled.after (h : engine.Assembled config) (uses : List (Files × Use)) :
    (engine.after uses).Assembled config := by
  induction uses generalizing engine with
  | nil => exact h
  | cons first rest ih => exact ih (h.use first.2)

/-- A new engine shares nothing, so its functions are put together. -/
theorem assembled_new (name : String) (config : Config) :
    Assembled config ({ name, config } : Engine) := ⟨rfl, [], .empty⟩

/-! ### Sharing one after the other -/

/-- How an attempt went well. -/
theorem settle_eq_ok_iff {x : Except Error Engine} {left : Engine} :
    engine.settle x = (.ok (), left) ↔ x = .ok left := by
  cases x with
  | ok next => simp [Engine.settle]
  | error e => simp [Engine.settle]

/-- An attempt that fails changes nothing. -/
theorem settle_of_error {x : Except Error Engine} {e : Error} (h : (engine.settle x).1 = .error e) :
    (engine.settle x).2 = engine := by
  cases x with
  | ok next => cases h
  | error e => rfl

/-- An engine shares sources as its library does. -/
theorem shareAll_eq (engine : Engine) (files : Files) (sources : List (Except Error Source)) :
    engine.shareAll files sources =
      (sources.foldlM (fun (library : Library) source => do
        library.share (engine.context files) (← source)) engine.library).map
        fun library => { engine with library } := by
  unfold shareAll
  -- by induction on the sources: each one is shared with what those before it left
  induction sources generalizing engine with
  | nil => rfl
  | cons source rest ih =>
    rw [List.foldlM_cons, List.foldlM_cons]
    cases source with
    | error e => rfl
    | ok source =>
      change (engine.library.share (engine.context files) source >>= _) >>= _ =
        Except.map _ (engine.library.share (engine.context files) source >>= _)
      cases engine.library.share (engine.context files) source with
      | error e => rfl
      | ok library => exact ih { engine with library }

/-- A source that is shared is listed last. -/
theorem roots_share {source : Source} {next : Engine} (h : engine.share files source = .ok next) :
    next.library.shared.files.map (·.root) =
      engine.library.shared.files.map (·.root) ++ [source] := by
  obtain ⟨library, hlib, hnext⟩ := bind_eq_ok_iff.mp h
  obtain ⟨unit, count, _, rfl⟩ := Library.share_eq_ok hlib
  obtain rfl := Except.ok.inj hnext
  exact List.map_append

/-- So are all sources that are shared one after the other, and none of them was missing. -/
theorem exists_roots_shareAll {sources : List (Except Error Source)} {left : Engine}
    (h : engine.shareAll files sources = .ok left) :
    ∃ roots, sources = roots.map .ok ∧ left.library.shared.files.map (·.root) =
      engine.library.shared.files.map (·.root) ++ roots := by
  unfold shareAll at h
  -- the first source was found, and those behind it by the induction
  induction sources generalizing engine with
  | nil =>
    obtain rfl := Except.ok.inj h
    exact ⟨[], rfl, (List.append_nil _).symm⟩
  | cons source rest ih =>
    rw [List.foldlM_cons] at h
    obtain ⟨next, hnext, hrest⟩ := bind_eq_ok_iff.mp h
    obtain ⟨root, rfl, hshare⟩ := bind_eq_ok_iff.mp hnext
    obtain ⟨roots, rfl, hroots⟩ := ih hrest
    refine ⟨root :: roots, rfl, ?_⟩
    rw [hroots, roots_share hshare, List.append_assoc, List.singleton_append]

/-- If nothing was shared before, the sources are those of the files that are listed then. -/
theorem sources_eq_of_shareAll {sources : List (Except Error Source)} {left : Engine}
    (h : engine.unshared.shareAll files sources = .ok left) :
    sources = left.library.shared.files.map fun file => .ok file.root := by
  obtain ⟨roots, rfl, hroots⟩ := exists_roots_shareAll h
  have hroots : left.library.shared.files.map (·.root) = roots := hroots
  rw [← hroots, List.map_map]
  rfl

/-! ### Reading again -/

/-- Two folds of related lists go well alike if their steps do. -/
theorem foldlM_eq_ok_iff {ε σ α β : Type} {r : α → β → Prop} {f : σ → α → Except ε σ}
    {g : σ → β → Except ε σ}
    (hstep : ∀ {a b}, r a b → ∀ s next, f s a = .ok next ↔ g s b = .ok next) {l : List α}
    {l' : List β} (h : List.Forall₂ r l l') (s next : σ) :
    l.foldlM f s = .ok next ↔ l'.foldlM g s = .ok next := by
  induction h generalizing s with
  | nil => exact Iff.rfl
  | cons hab _ ih =>
    rw [List.foldlM_cons, List.foldlM_cons, bind_eq_ok_iff, bind_eq_ok_iff]
    exact exists_congr fun mid => and_congr (hstep hab s mid) (ih mid)

variable {requests : List ShareRequest}

/-- Reading again what is listed for some requests is going back to the requests. -/
theorem reload_eq_ok_iff (hconfig : engine.config = config)
    (h : List.Forall₂ (ShareRequest.Lists config files.storage) requests
      engine.library.shared.files) {left : Engine} :
    (engine.library.reload (engine.context files)).map (fun library => { engine with library }) =
        .ok left ↔
      engine.unshared.shareAll files (requests.map (·.reopen config files)) = .ok left := by
  subst hconfig
  -- the requests and their files are gone through side by side
  have hfolds (library : Library) := foldlM_eq_ok_iff (r := ShareRequest.Lists _ _)
    (f := fun (l : Library) (request : ShareRequest) => do
      l.share (engine.context files) (← request.reopen engine.config files))
    (g := fun (l : Library) (file : SharedFile) => do
      l.share (engine.context files) (← Library.reopen (engine.context files) file.root))
    (fun hlists l next => by
      rw [bind_eq_ok_iff, bind_eq_ok_iff]
      exact exists_congr fun source => and_congr_left' (hlists files rfl source).symm)
    h { engine.library with shared := {} } library
  rw [shareAll_eq, map_eq_ok_iff, map_eq_ok_iff, Library.reload_eq, List.foldlM_map]
  exact exists_congr fun library => and_congr_left' (hfolds library).symm

/-- A lookup is an attempt to bring the shared functions up to date. -/
theorem use_lookUp_eq (engine : Engine) (files : Files) (name : String) :
    engine.use files (.lookUp name) =
      engine.settle ((engine.library.refreshed (engine.context files)).map
        fun library => { engine with library }) := by
  unfold use Library.sharedFunction
  cases engine.library.refreshed (engine.context files) with
  | ok library => rfl
  | error e => rfl

/-- **A lookup reads everything again, or nothing.** Reading again is going back to the requests
from an empty table. -/
theorem use_lookUp (hconfig : engine.config = config)
    (h : List.Forall₂ (ShareRequest.Lists config files.storage) requests
      engine.library.shared.files) (name : String) :
    if config.settings.devMode && engine.library.shared.isModified files then
      ∀ left, engine.use files (.lookUp name) = (.ok (), left) ↔
        engine.unshared.shareAll files (requests.map (·.reopen config files)) = .ok left
    else engine.use files (.lookUp name) = (.ok (), engine) := by
  have hrefreshed : engine.library.refreshed (engine.context files) =
      if config.settings.devMode && engine.library.shared.isModified files then
        engine.library.reload (engine.context files)
      else .ok engine.library := by rw [← hconfig]; rfl
  rw [use_lookUp_eq, hrefreshed]
  split
  · exact fun left => settle_eq_ok_iff.trans (reload_eq_ok_iff hconfig h)
  · rfl

/-- Sources that lead back are shared again as they are now, and only those. -/
theorem shareAll_renew_iff {left : Engine}
    (h : engine.unshared.shareAll files (requests.map (·.reopen config files)) = .ok left) :
    engine.unshared.shareAll files (requests.map (·.renew config files)) = .ok left ↔
      ∀ request ∈ requests, request.LeadsBack config files := by
  have hreopen := sources_eq_of_shareAll h
  constructor
  · intro hrenew request hmem source hsource
    -- Both ways the same files are listed, so the same sources were shared.
    have hsame := hreopen.trans (sources_eq_of_shareAll hrenew).symm
    rw [← List.map_inj_left.mp hsame request hmem]
    exact hsource
  · intro hback
    have hsame : requests.map (·.renew config files) = requests.map (·.reopen config files) := by
      refine List.map_congr_left fun request hmem => ?_
      have hlisted : request.reopen config files ∈
          left.library.shared.files.map fun file => Except.ok file.root := by
        rw [← hreopen]
        exact List.mem_map_of_mem hmem
      obtain ⟨file, _, hfile⟩ := List.mem_map.mp hlisted
      rw [← hfile]
      exact hback request hmem file.root hfile.symm
    rwa [hsame]

/-! ### What is listed -/

/-- **What a use keeps of the list.** There is one file for each request that was granted. -/
theorem lists_use (hconfig : engine.config = config)
    (h : List.Forall₂ (ShareRequest.Lists config files.storage) requests
      engine.library.shared.files) (use : Use) :
    List.Forall₂ (ShareRequest.Lists config files.storage) (requests ++ engine.grants files use)
      (engine.use files use).2.library.shared.files := by
  subst hconfig
  cases use with
  | share request =>
    have huse : engine.use files (.share request) =
        engine.settle (request.open engine.config files >>= engine.share files) := by
      rw [← request_eq]
      rfl
    unfold grants
    rw [huse]
    cases hshare : request.open engine.config files >>= engine.share files with
    | error e => exact (List.append_nil requests).symm ▸ h
    | ok next =>
      obtain ⟨source, hopen, hnext⟩ := bind_eq_ok_iff.mp hshare
      obtain ⟨library, hlib, hnext⟩ := bind_eq_ok_iff.mp hnext
      obtain ⟨unit, count, _, rfl⟩ := Library.share_eq_ok hlib
      obtain rfl := Except.ok.inj hnext
      exact List.rel_append h (.cons (ShareRequest.lists_of_open hopen) .nil)
  | lookUp name =>
    -- Lookups make no request. What has been read again stands for the same requests.
    rw [show engine.grants files (.lookUp name) = [] from rfl, List.append_nil, use_lookUp_eq]
    cases hrefreshed : engine.library.refreshed (engine.context files) with
    | error e => exact h
    | ok library =>
      unfold Library.refreshed at hrefreshed
      split at hrefreshed
      · have hall := (reload_eq_ok_iff rfl h).mp (congrArg (Except.map _) hrefreshed)
        have hroots := sources_eq_of_shareAll hall
        rw [← List.forall₂_eq_eq_eq, List.forall₂_map_left_iff, List.forall₂_map_right_iff]
          at hroots
        exact hroots.imp fun request file => ShareRequest.lists_of_reopen
      · obtain rfl := Except.ok.inj hrefreshed
        exact h
  | site site file =>
    rw [show engine.grants files (.site site file) = [] from rfl, List.append_nil, shared_use_site]
    exact h
  | compile source =>
    rw [show engine.grants files (.compile source) = [] from rfl, List.append_nil,
      (use_compile engine files source).2]
    exact h

/-- The same for any number of uses, among files that are of one kind. -/
theorem lists_after {storage : Storage} (hengine : engine.Assembled config)
    (h : List.Forall₂ (ShareRequest.Lists config storage) requests engine.library.shared.files)
    {uses : List (Files × Use)} (hstorage : ∀ use ∈ uses, use.1.storage = storage) :
    List.Forall₂ (ShareRequest.Lists config storage) (requests ++ engine.granted uses)
      (engine.after uses).library.shared.files := by
  induction uses generalizing engine requests with
  | nil => exact (List.append_nil requests).symm ▸ h
  | cons first rest ih =>
    obtain ⟨hfirst, hrest⟩ := List.forall_mem_cons.mp hstorage
    subst hfirst
    unfold granted
    rw [← List.append_assoc]
    exact ih (hengine.use first.2) (lists_use hengine.settled h first.2) hrest

end Engine

/-! ### New engines -/

/-- A library whose sites are numbered a number of places further than those of another one, with
the same shared functions apart from that, read from the same sources. -/
structure Library.Shifted (config : Config) (places : Nat) (l l' : Library) : Prop where
  size : l.sites.size = l'.sites.size + places
  files : l.shared.files = l'.shared.files
  functions : Assoc.Alike
    (TemplateFunction.Alike (config.likeness (fun i j => i = j + places) Eq))
    l.shared.functions l'.shared.functions

namespace Library

variable {ctx : Context} {places : Nat} {l l' : Library}

/-- A library has as many sites as it had, or as were asked for. -/
theorem size_withSites (lib : Library) (count : Nat) :
    (lib.withSites count).sites.size = max lib.sites.size count := by
  unfold withSites
  rw [Array.size_append, Array.size_replicate]
  omega

/-- Shifted libraries stay shifted when both get more sites. -/
theorem Shifted.withSites (h : Shifted ctx.config places l l') {count count' : Nat}
    (hcount : count = count' + places) :
    Shifted ctx.config places (l.withSites count) (l'.withSites count') := by
  refine ⟨?_, h.files, h.functions⟩
  rw [size_withSites, size_withSites, h.size, hcount]
  omega

/-- Sharing one more source keeps libraries shifted, or fails for both. -/
theorem Shifted.share (h : Shifted ctx.config places l l') (source : Source) :
    Agree (Shifted ctx.config places) (l.share ctx source) (l'.share ctx source) := by
  let R := ctx.config.likeness (fun i j => i = j + places) Eq
  have hcovers : R.Covers ctx.config ctx.files := ctx.config.likeness_covers _ fun _ _ _ => rfl
  have hunit : Agree (fun r r' => Compiled.Alike R r.1 r'.1 ∧ ∀ k, R.sites (r.2 + k) (r'.2 + k))
      (Stencil.compile ctx.config ctx.files source l.sites.size)
      (Stencil.compile ctx.config ctx.files source l'.sites.size) := by
    -- The next sites are the shift apart, and so are all that follow.
    refine compile_alike_next hcovers rfl fun k => ?_
    change l.sites.size + k = l'.sites.size + k + places
    rw [h.size]
    omega
  have hcompile : Agree
      (fun q q' => Compiled.Alike R q.1 q'.1 ∧ Shifted ctx.config places q.2 q'.2)
      (l.compile ctx source) (l'.compile ctx source) :=
    hunit.bind fun r r' hr => .ok ⟨hr.1, h.withSites (hr.2 0)⟩
  refine hcompile.bind fun q q' hq => ?_
  refine (add_agree hq.2.functions hq.1 source).bind fun t t' ht => .ok ⟨hq.2.size, ?_, ht.1⟩
  -- The same sources have been read.
  have hsources : q.1.sources = q'.1.sources :=
    List.forall₂_eq_eq_eq ▸ hq.1.sources
  change t.files = t'.files
  rw [ht.2.1, ht.2.2, hq.2.files, hsources]

end Library

namespace Engine

/-- **Sharing does not ask for numbers.** Engines of one configuration with shifted libraries share
the same sources, to shifted libraries again, or fail with the same error. -/
theorem shareAll_shifted {config : Config} {places : Nat} {engine new : Engine}
    (hengine : engine.config = config) (hnew : new.config = config)
    (h : engine.library.Shifted config places new.library) (files : Files)
    (sources : List (Except Error Source)) :
    Agree (fun e e' => e.library.Shifted config places e'.library)
      (engine.shareAll files sources) (new.shareAll files sources) := by
  unfold shareAll
  -- by induction on the sources: the first is shared alike, and leaves shifted libraries for the
  -- rest
  induction sources generalizing engine new with
  | nil => exact .ok h
  | cons source rest ih =>
    rw [List.foldlM_cons, List.foldlM_cons]
    let Alike (e e' : Engine) : Prop :=
      e.config = config ∧ e'.config = config ∧ e.library.Shifted config places e'.library
    have hfirst : Agree Alike (source >>= engine.share files) (source >>= new.share files) := by
      refine Agree.after fun source => ?_
      have hcontext : engine.context files = ⟨config, files⟩ := by rw [← hengine]; rfl
      have hcontext' : new.context files = ⟨config, files⟩ := by rw [← hnew]; rfl
      unfold share
      rw [hcontext, hcontext']
      have hshare := @Library.Shifted.share ⟨config, files⟩ places _ _ h source
      exact hshare.bind fun l l' hl => .ok ⟨hengine, hnew, hl⟩
    exact hfirst.bind fun e e' he => ih he.1 he.2.1 he.2.2

/-- **Sharing is atomic and unambiguous.** Whatever an engine has done, and among whatever files of
one kind:

* For each request that was granted one file is listed, and the shared functions are the disjoint
  union of those of compiled templates, one for each file.
* A request adds all functions of its source, or it fails and everything stays as it was.
* A lookup that fails leaves everything as it was, and so does one that finds no text changed. One
  that finds a text changed and succeeds leaves what the requests come to from an empty table, as
  they are gone back to one after the other among the files as they are now. That is what
  registering the same sources as they are now comes to if and only if each of them leads back.
* A new engine shares any sources in the same way: it fails with the same error, or it lists the
  same files, with the same functions up to the numbers of their sites. -/
theorem sharing_atomic (name : String) (config : Config) (uses : List (Files × Use))
    (files : Files) (hstorage : ∀ use ∈ uses, use.1.storage = files.storage) :
    let new : Engine := { name, config }
    let engine := new.after uses
    let shared := engine.library.shared
    let requests := new.granted uses
    (List.Forall₂ (ShareRequest.Lists config files.storage) requests shared.files ∧
      ∃ units, shared.Assembled config units ∧
        units.Pairwise fun unit other => unit.functions.keys.Disjoint other.functions.keys) ∧
    (∀ request,
      Registration config files engine.library.sites.size shared (request.open config files)
        (engine.use files (.share request)).1
        (engine.use files (.share request)).2.library.shared) ∧
    (∀ function,
      (∀ e left, engine.use files (.lookUp function) = (.error e, left) → left = engine) ∧
      if config.settings.devMode && shared.isModified files then
        ∀ left,
          (engine.use files (.lookUp function) = (.ok (), left) ↔
            engine.unshared.shareAll files (requests.map (·.reopen config files)) = .ok left) ∧
          (engine.use files (.lookUp function) = (.ok (), left) →
            (engine.unshared.shareAll files (requests.map (·.renew config files)) = .ok left ↔
              ∀ request ∈ requests, request.LeadsBack config files))
      else engine.use files (.lookUp function) = (.ok (), engine)) ∧
    (∀ sources, Agree (fun e e' => e.library.Shifted config engine.library.sites.size e'.library)
      (engine.unshared.shareAll files sources) (new.shareAll files sources)) := by
  intro new engine shared requests
  have hassembled : engine.Assembled config := (assembled_new name config).after uses
  have hlists : List.Forall₂ (ShareRequest.Lists config files.storage) requests shared.files :=
    lists_after (assembled_new name config) .nil hstorage
  -- all that was shared was put together and listed, whatever the engine has been used for
  obtain ⟨hconfig, units, hunits⟩ := hassembled
  refine ⟨⟨hlists, units, hunits, hunits.apart⟩, fun request => ?_, fun function => ⟨?_, ?_⟩, ?_⟩
  · have hregistration := engine.use_share_registration files request
    rwa [hconfig] at hregistration
  -- a failed look-up leaves the engine as it was
  · intro e left hleft
    rw [use_lookUp_eq] at hleft
    exact (congrArg Prod.snd hleft).symm.trans (settle_of_error (congrArg Prod.fst hleft))
  -- the files are read again exactly if one of them was modified
  · have hlookUp := use_lookUp hconfig hlists function
    split at hlookUp
    · rename_i hmodified
      rw [if_pos hmodified]
      exact fun left => ⟨hlookUp left, fun hleft => shareAll_renew_iff ((hlookUp left).mp hleft)⟩
    · rename_i hmodified
      rw [if_neg hmodified]
      exact hlookUp
  -- an engine that shares nothing is a new engine, but for its count of sites
  · have hshifted : engine.unshared.library.Shifted config engine.library.sites.size
        new.library := ⟨(Nat.zero_add _).symm, rfl, .nil⟩
    have hunshared : engine.unshared.config = config := hconfig
    exact shareAll_shifted hunshared rfl hshifted files

/-- A file that was shared by its name has another function now, and this one is shared then. -/
theorem sharing_atomic_read_again :
    let dev : Config := { settings := { devMode := true } }
    let filesOf (content : String) (version : Nat) : Files :=
      { storage := .memory
        memory := ⟨Assoc.empty.insert "a" 0, #[⟨content, version⟩]⟩ }
    let uses : List (Files × Use) := [(filesOf "#define f()1#end" 0, .share (.file "a"))]
    let now := filesOf "#define g()2#end" 1
    let new : Engine := { name := "", config := dev }
    let engine := new.after uses
    (∀ use ∈ uses, use.1.storage = now.storage) ∧
      ∃ left, engine.use now (.lookUp "g") = (.ok (), left) ∧
        left.library.shared.functions.keys = ["g"] ∧
        engine.unshared.shareAll now ((new.granted uses).map (·.renew dev now)) = .ok left := by
  intro dev filesOf uses now new engine
  have hstorage : ∀ use ∈ uses, use.1.storage = now.storage := by simp [uses, filesOf, now]
  refine ⟨hstorage, (engine.use now (.lookUp "g")).2, ?_⟩
  have hfound : (engine.use now (.lookUp "g")).1 = .ok () := by decide +kernel
  have hkeys : (engine.use now (.lookUp "g")).2.library.shared.functions.keys = ["g"] := by
    decide +kernel
  have hrequests : new.granted uses = [.file "a"] := by decide +kernel
  obtain ⟨_, _, hlookUp, _⟩ := sharing_atomic "" dev uses now hstorage
  have hmodified : dev.settings.devMode && engine.library.shared.isModified now := by
    decide +kernel
  have hread := (hlookUp "g").2
  rw [if_pos hmodified] at hread
  have hleft : engine.use now (.lookUp "g") = (.ok (), (engine.use now (.lookUp "g")).2) := by
    rw [← hfound]
  refine ⟨hleft, hkeys, ((hread _).2 hleft).mpr fun request hmem => ?_⟩
  rw [hrequests] at hmem
  obtain rfl := List.mem_singleton.mp hmem
  exact fun _ hsource => hsource

/-- A source from elsewhere need not lead back. The source at `root/root/fns` is named `root/fns`,
and there is a file of this name. When the source has changed, it is this file that is read. -/
theorem not_sharing_atomic :
    let dev : Config := { settings := { devMode := true } }
    let filesOf (content : String) (stamp : Nat) : Files :=
      { storage := .disk
        disk :=
          { files := (Assoc.empty.insert "root/fns" ⟨"#define g()G#end", 0⟩).insert
              "root/root/fns" ⟨content, stamp⟩
            directories := [["root".toList], ["root".toList, "root".toList]] } }
    let uses : List (Files × Use) :=
      [(filesOf "#define f()A#end" 1, .share (.source (.disk "root/fns" "root/root/fns" 1)))]
    let now := filesOf "#define f()B#end" 2
    let new : Engine := { name := "", config := dev }
    let engine := new.after uses
    let (found, left) := engine.use now (.lookUp "f")
    engine.library.shared.functions.keys = ["f"] ∧ found = .ok () ∧
      left.library.shared.functions.keys = ["g"] ∧
      (new.shareAll now ((new.granted uses).map (·.renew dev now))).map
        (·.library.shared.functions.keys) = .ok ["f"] := by
  decide +kernel

/-- In dev mode a file comes to define a name that another one has: both keep their functions. -/
example :
    let dev : Config := { settings := { devMode := true } }
    let before : MemoryFiles :=
      (MemoryFiles.insert {} "a" "#define f()1#end").insert "b" "#define g()2#end"
    let filesOf (memory : MemoryFiles) : Files := { storage := .memory, memory }
    let engine := ({ name := "", config := dev } : Engine).after
      [(filesOf before, .share (.file "a")), (filesOf before, .share (.file "b"))]
    let (found, left) := engine.use (filesOf (before.insert "b" "#define f()3#end")) (.lookUp "g")
    found = .error (.config (.sharedFunctionExists "f")) ∧
      left.library.shared.functions.keys = ["f", "g"] := by
  decide +kernel

end Engine

end Stencil
