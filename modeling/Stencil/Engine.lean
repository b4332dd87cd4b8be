import Stencil.Render.Exec

/-!
# Engines

An engine compiles templates with its configuration and keeps them in a cache. The key of a
template is the name it was asked for, and for a string that may be cached the string itself.

* Without dev mode a template in the cache is used until it is evicted. With dev mode it is used
  as long as no text that it was compiled from has changed.
* What cannot be compiled is not cached, and what was cached before stays.
* Every compilation makes a new template; two templates are the same exactly if their numbers are
  equal.

The files are not part of an engine: they may change between any two of its operations, and a render
to a file changes them while it runs.

Main definitions: `Engine`, `Engine.getTemplate`, `Engine.getBySource`, `Engine.render`.
Main statement: `Engine.getTemplate_of_cached?` (a usable template in the cache is the answer).
-/

namespace Stencil

/-- A compiled template as an engine hands it out. -/
structure Template where
  /-- Tells the templates of an engine apart. -/
  id : Nat
  /-- The name of the file that it was compiled from. -/
  name : Option String
  unit : Compiled
deriving Inhabited

/-- Whether a text that a template was compiled from has changed. -/
def Template.isModified (files : Files) (t : Template) : Bool := t.unit.isModified files

/-- An engine. -/
structure Engine where
  name : String
  config : Config := {}
  library : Library := {}
  cache : Assoc Template := .empty
  /-- The number of the next template. -/
  nextTemplate : Nat := 0

namespace Engine

variable (engine : Engine) (files : Files)

/-- What the engine compiles with. -/
def context : Context := ⟨engine.config, files⟩

/-! ### Compiling -/

/-- Compiles a source, past the cache. -/
def compile (source : Source) : Except Error (Template × Engine) := do
  let (unit, library) ← engine.library.compile (engine.context files) source
  return (⟨engine.nextTemplate, source.fileName?, unit⟩,
    { engine with library, nextTemplate := engine.nextTemplate + 1 })

/-- Compiles a source and caches the template under a key. -/
def compileInto (key : String) (source : Source) : Except Error (Template × Engine) := do
  let (t, engine) ← engine.compile files source
  return (t, { engine with cache := engine.cache.insert key t })

/-- The template in the cache under a key, if it may still be used. -/
def cached? (key : String) : Option Template :=
  match engine.cache.get? key with
  | some t => if engine.config.settings.devMode && t.isModified files then none else some t
  | none => none

/-- Opens the file that a name refers to. -/
def openSource (name : String) : Except Error Source :=
  files.openSource engine.config.settings.basePath name

/-- The template of a file. -/
def getTemplate (name : String) : Except Error (Template × Engine) :=
  match engine.cached? files name with
  | some t => .ok (t, engine)
  | none => do engine.compileInto files name (← engine.openSource files name)

/-- The template of a source. -/
def getBySource (source : Source) : Except Error (Template × Engine) :=
  match source.cacheKey? with
  | none => engine.compile files source
  | some key =>
    match engine.cached? files key with
    | some t => .ok (t, engine)
    | none => engine.compileInto files key source

/-- The template of a string. -/
def getByString (content : String) (cached : Bool) : Except Error (Template × Engine) :=
  engine.getBySource files (.string content cached)

/-- A template that the cache has, and that may be used, is what is asked for. -/
theorem getTemplate_of_cached? {engine : Engine} {files : Files} {name : String} {t : Template}
    (h : engine.cached? files name = some t) : engine.getTemplate files name = .ok (t, engine) := by
  simp [getTemplate, h]

/-! ### The cache -/

/-- Drops a template from the cache. -/
def evict (key : String) : Engine := { engine with cache := engine.cache.erase key }

/-- Empties the cache. -/
def clearCache : Engine := { engine with cache := .empty }

/-! ### Shared functions -/

/-- Shares the functions of a source. -/
def share (source : Source) : Except Error Engine := do
  return { engine with library := ← engine.library.share (engine.context files) source }

/-- Shares the functions of a file. -/
def shareFile (name : String) : Except Error Engine := do
  engine.share files (← engine.openSource files name)

/-- Shares the functions of a string. -/
def shareString (content : String) : Except Error Engine :=
  engine.share files (.string content false)

end Engine

/-! ### Rendering -/

/-- What a render leaves behind. -/
structure Rendered where
  result : Except Stop Unit
  heap : Heap
  output : Output
  engine : Engine
  files : Files

namespace Engine

variable (engine : Engine) (files : Files)

/-- Renders a template with data: the frames of the render start from a copy of the data, while
the lists and maps in it are those of the caller. -/
def render (fuel : Nat) (t : Template) (data : Assoc Value) (heap : Heap) (output : Output) :
    Rendered :=
  let start : RenderState := ⟨⟨heap, .ofData data, {}⟩, output, engine.library, files⟩
  let (result, after) := (t.unit.render engine.config fuel).runOn start
  ⟨result, after.memory.heap, after.output, { engine with library := after.library }, after.files⟩

/-- Renders to a byte sink, behind a buffer of the configured size. -/
def renderToBytes (fuel : Nat) (t : Template) (data : Assoc Value) (heap : Heap)
    (sink : ByteSink) : Rendered :=
  engine.render files fuel t data heap (.bytes (.ofSink sink engine.config.settings.bufferSize))

/-- Renders into a file below the working directory, which is created or emptied first. The file
is behind a buffer of the configured size; what an error leaves in the buffer is lost. -/
def renderToFile (fuel : Nat) (t : Template) (data : Assoc Value) (heap : Heap) (path : String) :
    Rendered :=
  match files.disk.write path "" with
  | none => ⟨.error (.error (.io .notFound)), heap, .unlimited, engine, files⟩
  | some disk =>
    engine.render { files with disk } fuel t data heap
      (.file path (.ofSink {} engine.config.settings.bufferSize))

end Engine

end Stencil
