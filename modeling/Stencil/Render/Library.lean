import Stencil.Template.Parse

/-!
# The library of an engine

Beside its templates an engine remembers what renders share: the functions that every template may
call, and for each site of a `#render` the template that was compiled for it.

* A **shared function** comes from a file or a string of definitions. In dev mode a change of any
  text that shared functions were read from makes all of them be read again; if that fails, the
  functions stay as they were.
* The **template of a site** is compiled when the site is first reached. In dev mode it is
  compiled again when a text it was read from has changed. What a site has compiled is kept under
  the name of the file.

No two shared functions have one name: reading one that is taken is an error, and then nothing of
its file is kept. A file that is shared is checked as a whole and added then; files that are read
again are added function by function to a table that takes the place of the old one at the end.

Main definitions: `Library`, `Library.share`, `Library.reload`, `Library.sharedFunction`,
`Library.siteTemplate`.
Main statement: `Library.compiledAt?_keepAt` (a site remembers one template for a file).
-/

namespace Stencil

/-- What engines compile with. -/
structure Context where
  config : Config
  files : Files

/-- A source of shared functions, with every source that was read for it. -/
structure SharedFile where
  root : Source
  watched : List Source
deriving Inhabited

/-- The functions that every template may call. -/
structure SharedFunctions where
  functions : Assoc TemplateFunction := .empty
  files : List SharedFile := []
deriving Inhabited

/-- What the renders of an engine share. -/
structure Library where
  shared : SharedFunctions := {}
  /-- What every site has compiled, by the names of the files. -/
  sites : Array (Assoc Compiled) := #[]
deriving Inhabited

/-! ### Shared functions -/

namespace SharedFunctions

/-- Whether a text that shared functions were read from has changed. -/
def isModified (files : Files) (s : SharedFunctions) : Bool :=
  s.files.any (·.watched.any (·.isModified files))

/-- Adds the functions of a compiled source, all or none of them. -/
def add (s : SharedFunctions) (root : Source) (unit : Compiled) : Except Error SharedFunctions :=
  match unit.functions.keys.find? s.functions.contains with
  | some name => .error (.config (.sharedFunctionExists name))
  | none => .ok
    { functions := s.functions.insertAll unit.functions.entries
      files := s.files ++ [⟨root, unit.sources⟩] }

/-- Adds functions one after the other, up to the first one whose name is taken. -/
def insertNew (functions : Assoc TemplateFunction) :
    List (String × TemplateFunction) → Except Error (Assoc TemplateFunction)
  | [] => .ok functions
  | (name, function) :: rest =>
    if functions.contains name then .error (.config (.sharedFunctionExists name))
    else insertNew (functions.insert name function) rest

end SharedFunctions

namespace Library

variable (ctx : Context)

/-- Makes place for the sites below a number. -/
def withSites (lib : Library) (count : Nat) : Library :=
  { lib with sites := lib.sites ++ Array.replicate (count - lib.sites.size) .empty }

/-- Compiles a source, and numbers its sites. -/
def compile (lib : Library) (source : Source) : Except Error (Compiled × Library) := do
  let (unit, count) ← Stencil.compile ctx.config ctx.files source lib.sites.size
  return (unit, lib.withSites count)

/-- Shares the functions of a source. -/
def share (lib : Library) (source : Source) : Except Error Library := do
  let (unit, lib) ← lib.compile ctx source
  return { lib with shared := ← lib.shared.add source unit }

/-- The source of shared functions as it is now: files are opened again. -/
def reopen (root : Source) : Except Error Source :=
  match root.fileName? with
  | some name => ctx.files.openSource ctx.config.settings.basePath name
  | none => .ok root

/-- Reads a source of shared functions again, behind those that have been read again. -/
def readAgain (fresh : Library) (file : SharedFile) : Except Error Library := do
  let source ← reopen ctx file.root
  let (unit, fresh) ← fresh.compile ctx source
  let functions ← SharedFunctions.insertNew fresh.shared.functions unit.functions.entries
  return { fresh with
    shared := { functions, files := fresh.shared.files ++ [⟨source, unit.sources⟩] } }

/-- Reads all shared functions again. -/
def reload (lib : Library) : Except Error Library :=
  lib.shared.files.foldlM (readAgain ctx) { lib with shared := {} }

/-- The library with shared functions that are up to date, as dev mode asks for. -/
def refreshed (lib : Library) : Except Error Library :=
  if ctx.config.settings.devMode && lib.shared.isModified ctx.files then lib.reload ctx
  else .ok lib

/-- A shared function by its name. -/
def sharedFunction (lib : Library) (name : String) :
    Except Error (Option TemplateFunction) × Library :=
  match lib.refreshed ctx with
  | .ok lib => (.ok (lib.shared.functions.get? name), lib)
  | .error error => (.error error, lib)

/-! ### Sites -/

/-- The template that a site has compiled for a file. -/
def compiledAt? (lib : Library) (site : Nat) (file : String) : Option Compiled :=
  lib.sites[site]?.bind (·.get? file)

/-- Keeps the template that a site has compiled for a file. -/
def keepAt (lib : Library) (site : Nat) (file : String) (unit : Compiled) : Library :=
  { lib with sites := lib.sites.modify site (·.insert file unit) }

/-- The template that a site has compiled for a file, if it may still be used. -/
def usable? (lib : Library) (site : Nat) (file : String) : Option Compiled :=
  match lib.compiledAt? site file with
  | some unit =>
    if ctx.config.settings.devMode && unit.isModified ctx.files then none else some unit
  | none => none

/-- The template of a site that renders a file. -/
def siteTemplate (lib : Library) (site : Nat) (file : String) :
    Except Error Compiled × Library :=
  match lib.usable? ctx site file with
  | some unit => (.ok unit, lib)
  | none =>
    match (ctx.files.openSource ctx.config.settings.basePath file).bind (lib.compile ctx) with
    | .ok (unit, lib) => (.ok unit, lib.keepAt site file unit)
    | .error error => (.error error, lib)

/-! ### Laws -/

/-- Making place for sites changes nothing that a site has compiled. -/
@[simp] theorem compiledAt?_withSites (lib : Library) (count site : Nat) (file : String) :
    (lib.withSites count).compiledAt? site file = lib.compiledAt? site file := by
  unfold withSites compiledAt?
  rw [Array.getElem?_append]
  split
  · rfl
  · rename_i h
    rw [Array.getElem?_eq_none (Nat.le_of_not_lt h)]
    cases hr : (Array.replicate (count - lib.sites.size) (Assoc.empty : Assoc Compiled))[
        site - lib.sites.size]? with
    | none => rfl
    | some m =>
      rw [Array.getElem?_replicate] at hr
      split at hr
      · rw [← Option.some.inj hr]
        rfl
      · simp at hr

/-- What is kept at a site is found there, if there is such a site. -/
theorem compiledAt?_keepAt (lib : Library) (site : Nat) (file : String) (unit : Compiled)
    (i : Nat) (name : String) :
    (lib.keepAt site file unit).compiledAt? i name =
      if i = site ∧ name = file ∧ site < lib.sites.size then some unit
      else lib.compiledAt? i name := by
  unfold keepAt compiledAt?
  rw [Array.getElem?_modify]
  by_cases hi : i = site
  · subst hi
    rw [if_pos rfl]
    by_cases hsize : i < lib.sites.size
    · rw [Array.getElem?_eq_getElem hsize, Option.map_some, Option.bind_some, Option.bind_some,
        Assoc.get?_insert]
      simp [hsize]
    · rw [Array.getElem?_eq_none (Nat.le_of_not_lt hsize)]
      simp [hsize]
  · rw [if_neg fun h => hi h.symm]
    simp [hi]

end Library

end Stencil
