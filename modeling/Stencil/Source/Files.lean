import Stencil.Assoc
import Stencil.Error
import Stencil.Source.Path
import Stencil.Text.Search

/-!
# Where template text comes from

A **source** is a text with what the engine needs to know about it: its name, the key that the
compiled template is cached under, and whether the text behind it has changed since the source
was opened. There are three kinds: files held in memory, files on disk, and strings.

* Files in **memory** have entries with a version. Storing a text under a name that is taken
  changes the entry and counts its version up; removing a name leaves the entry to the sources
  that were opened from it. Leading slashes of a name do not count when a file is opened.
* Files on **disk** carry a stamp that is new with every write. A name is a path below the base
  directory, or below the working directory if there is none.
* **Strings** have no name and never change.

Main definitions: `Files`, `Source`, `Files.openSource`, `Source.isModified`.
Main statement: `MemoryFiles.entryOf?_eq_some_iff` (the entry that a name leads to).
-/

namespace Stencil

/-! ### Files in memory -/

/-- A file in memory. -/
structure MemoryEntry where
  content : String
  version : Nat
deriving DecidableEq, Repr, Inhabited

/-- A file system in memory. -/
structure MemoryFiles where
  /-- The number of the entry of every name. -/
  names : Assoc Nat := .empty
  entries : Array MemoryEntry := #[]

namespace MemoryFiles

variable (m : MemoryFiles)

/-- The entry of a name, with its number. -/
def entryOf? (name : String) : Option (Nat × MemoryEntry) := do
  let i ← m.names.get? name
  let entry ← m.entries[i]?
  return (i, entry)

/-- Stores a text under a name. -/
def insert (name content : String) : MemoryFiles :=
  match m.names.get? name with
  | some i =>
    { m with entries := m.entries.modify i fun e => ⟨content, e.version + 1⟩ }
  | none =>
    { names := m.names.insert name m.entries.size, entries := m.entries.push ⟨content, 0⟩ }

/-- Removes a name. -/
def remove (name : String) : MemoryFiles := { m with names := m.names.erase name }

/-- The entry that a name leads to. -/
theorem entryOf?_eq_some_iff {m : MemoryFiles} {name : String} {i : Nat} {entry : MemoryEntry} :
    m.entryOf? name = some (i, entry) ↔
      m.names.get? name = some i ∧ m.entries[i]? = some entry := by
  unfold entryOf?
  constructor
  · intro h
    obtain ⟨j, hj, h⟩ := Option.bind_eq_some_iff.mp h
    obtain ⟨e, he, h⟩ := Option.bind_eq_some_iff.mp h
    obtain ⟨rfl, rfl⟩ := Prod.mk.inj (Option.some.inj h)
    exact ⟨hj, he⟩
  · rintro ⟨hi, hentry⟩
    exact Option.bind_eq_some_iff.mpr ⟨i, hi, Option.bind_eq_some_iff.mpr ⟨entry, hentry, rfl⟩⟩

end MemoryFiles

/-! ### Files on disk -/

/-- A file on disk. -/
structure DiskFile where
  content : String
  /-- Tells the states of the file apart. -/
  stamp : Nat
deriving DecidableEq, Repr, Inhabited

/-- The files below the working directory. -/
structure Disk where
  /-- The files, by their path from the working directory. -/
  files : Assoc DiskFile := .empty
  /-- The directories, by their path from the working directory. -/
  directories : List (List (List Char)) := []
  /-- The next stamp. -/
  clock : Nat := 0

/-- A path from the working directory, by its components. -/
abbrev DiskPath := List (List Char)

/-- The text of a path. -/
def DiskPath.text (p : DiskPath) : String := String.ofList (['/'].intercalate p)

namespace Disk

variable (d : Disk)

/-- Whether a path is a directory. -/
def isDirectory (p : DiskPath) : Bool := p.isEmpty || d.directories.contains p

/-- Follows components from a directory; `none` if they leave the working directory or pass
through something that is no directory. -/
def follow (base : DiskPath) : List (List Char) → Option DiskPath
  | [] => some base
  | c :: rest =>
    if !d.isDirectory base then none
    else if c = [] ∨ c = ['.'] then follow base rest
    else if c = ['.', '.'] then
      if base.isEmpty then none else follow base.dropLast rest
    else follow (base ++ [c]) rest

/-- The place that the text of a path leads to. -/
def resolve (path : String) : Option DiskPath :=
  match path.toList with
  | [] => none
  | '/' :: _ => none
  | cs => d.follow [] (Text.split ['/'] cs)

/-- The file at a path. -/
def file? (path : String) : Option DiskFile := do
  let p ← d.resolve path
  d.files.get? (DiskPath.text p)

/-- Writes a file into a directory that exists. -/
def write (path content : String) : Option Disk := do
  let p ← d.resolve path
  if p.isEmpty then none
  else if d.isDirectory p.dropLast then
    return { d with
      files := d.files.insert (DiskPath.text p) ⟨content, d.clock⟩
      clock := d.clock + 1 }
  else none

/-- Creates the directories above a path. -/
def createParents (path : String) : Disk :=
  let components := (Text.split ['/'] path.toList).dropLast
  let parents := (List.range components.length).map fun n => components.take (n + 1)
  { d with directories := d.directories ++ parents.filter (!d.directories.contains ·) }

/-- Removes a file. -/
def remove (path : String) : Option Disk := do
  let p ← d.resolve path
  let _ ← d.files.get? (DiskPath.text p)
  return { d with files := d.files.erase (DiskPath.text p) }

end Disk

/-! ### Sources -/

/-- A text with its origin. -/
inductive Source where
  /-- A file in memory: the number of its entry, with the text and version it had. -/
  | memory (name : String) (entry : Nat) (content : String) (version : Nat)
  /-- A file on disk: its path, with the stamp it had. -/
  | disk (name path : String) (stamp : Nat)
  /-- A string; `cached` tells whether equal strings share a compiled template. -/
  | string (content : String) (cached : Bool)
deriving DecidableEq, Repr, Inhabited

/-- Which files the names of templates refer to. -/
inductive Storage where
  | memory
  | disk
deriving DecidableEq, Repr, Inhabited

/-- All files. -/
structure Files where
  storage : Storage := .disk
  memory : MemoryFiles := {}
  disk : Disk := {}

namespace Source

/-- The name that locations show and that relative names are resolved against. -/
def fileName? : Source → Option String
  | memory name .. | disk name .. => some name
  | string .. => none

/-- The key that the compiled template is cached under. -/
def cacheKey? : Source → Option String
  | memory name .. | disk name .. => some name
  | string content cached => if cached then some content else none

/-- The text. -/
def content (files : Files) : Source → Except Error String
  | memory _ _ content _ => .ok content
  | disk _ path _ =>
    match files.disk.file? path with
    | some file => .ok file.content
    | none => .error (.io .notFound)
  | string content _ => .ok content

/-- Whether the text behind a source has changed since it was opened. -/
def isModified (files : Files) : Source → Bool
  | memory _ entry _ version =>
    match files.memory.entries[entry]? with
    | some e => e.version != version
    | none => true
  | disk _ path stamp =>
    match files.disk.file? path with
    | some file => file.stamp != stamp
    | none => true
  | string .. => false

end Source

namespace Files

variable (files : Files)

/-- The path of a template on disk. -/
def diskPath (basePath : Option String) (name : String) : String :=
  match basePath with
  | some directory => joinPath directory (withoutSlashes name)
  | none => name

/-- Opens a file in memory. -/
def openMemory (name : String) : Except Error Source :=
  let key := withoutSlashes name
  match files.memory.entryOf? key with
  | some (i, entry) => .ok (.memory key i entry.content entry.version)
  | none => .error (.missingTemplate name)

/-- Opens a file on disk. -/
def openDisk (basePath : Option String) (name : String) : Except Error Source :=
  let path := diskPath basePath name
  match files.disk.file? path with
  | some file => .ok (.disk name path file.stamp)
  | none => .error (.missingTemplate path)

/-- Opens the file that a name refers to. -/
def openSource (basePath : Option String) (name : String) : Except Error Source :=
  match files.storage with
  | .memory => files.openMemory name
  | .disk => files.openDisk basePath name

/-- A bound on the nesting of includes: in memory no file can be open twice, and one string may
come first; on disk a file may go by several names. -/
def nestingBound : Nat :=
  match files.storage with
  | .memory => files.memory.names.size + 2
  | .disk => 1024 * (files.disk.files.size + 1)

end Files

end Stencil
