import Stencil.Render.Memory
import Stencil.Render.Script

/-!
# Configuration

What an engine is configured with: its settings, the custom directives, the tags that keep their
lines, and what the host offers to templates.

Every registration under a name that is taken is refused, and leaves the configuration as it was.
The name of a directive must be a word that a template can spell behind `#`, and none of the words
that templates use for constructs of their own.

Main definitions: `Settings`, `Config`, `Config.addDirective`.
-/

namespace Stencil

/-- The plain data of a configuration. -/
structure Settings where
  /-- Whether templates are compiled again when a file they were read from has changed. -/
  devMode : Bool := false
  /-- The directory that the names of template files start from. -/
  basePath : Option String := none
  /-- The size of the buffer in front of a byte sink. -/
  bufferSize : Nat := 2048
  /-- The separator that squeezed lines of literal text are joined by; without one, literal text
  is left as it is. -/
  separator : Option Char := none
deriving DecidableEq, Repr

/-- The configuration of an engine. -/
structure Config where
  settings : Settings := {}
  /-- The tags that keep the line they stand on. -/
  keep : List String := ["output", "include"]
  directives : Assoc Directive := Assoc.empty.insert "escape" .escape
  host : Host := {}

/-- The words that templates use for constructs of their own. -/
def reservedWords : List String :=
  ["if", "elseif", "else", "end", "for", "switch", "case", "default", "define", "call", "call?",
    "include", "render", "set", "setLocal", "setGlobal", "output", "break", "continue", "return",
    "escape"]

/-- Whether a name is a word that a template can spell behind `#`. -/
def isDirectiveName (name : String) : Bool :=
  match name.toList with
  | [] => false
  | c :: cs => (c.isAlpha || c == '_') && cs.all fun c => c.isAlphanum || c == '_' || c == '$'

namespace Config

variable (config : Config)

/-- Makes a value visible to every render. -/
def addObject (name : String) (value : Value) : Except ConfigFault Config :=
  if config.host.objects.contains name then .error (.sharedObjectExists name)
  else .ok { config with
    host := { config.host with objects := config.host.objects.insert name value } }

/-- Registers an operation that is called by its name. -/
def addMethod (name : String) (operation : Operation) : Except ConfigFault Config :=
  if config.host.methods.contains name then .error (.sharedMethodExists name)
  else .ok { config with
    host := { config.host with methods := config.host.methods.insert name operation } }

/-- Registers the members of a static namespace. -/
def addNamespace (name : String) (space : StaticNamespace) : Except ConfigFault Config :=
  if config.host.namespaces.contains name then .error (.staticNamespaceExists name)
  else .ok { config with
    host := { config.host with namespaces := config.host.namespaces.insert name space } }

/-- Registers a custom directive. -/
def addDirective (name : String) (directive : Directive) : Except ConfigFault Config :=
  if name ∈ reservedWords || config.directives.contains name then
    .error (.directiveExists name)
  else if isDirectiveName name then
    .ok { config with directives := config.directives.insert name directive }
  else .error (.invalidDirectiveName name)

/-- Lets a tag keep the line it stands on. -/
def keepLine (name : String) : Config := { config with keep := name :: config.keep }

end Config

end Stencil
