/-!
# Names of template files

A template names another one relative to itself. A name that begins with a slash starts from the
root of all templates; any other name is taken in the directory of the template that uses it.

Main definitions: `resolvePath`, `joinPath`.
-/

namespace Stencil

/-- The directory part of a name, with its slash. -/
def directoryOf (name : List Char) : List Char := (name.reverse.dropWhile (· != '/')).reverse

/-- The name that `target` stands for in the template `current`. -/
def resolvePath (current : Option String) (target : String) : String :=
  match target.toList with
  | '/' :: rest => String.ofList rest
  | cs => String.ofList (directoryOf (current.getD "").toList ++ cs)

/-- A name without the slashes at its front. -/
def withoutSlashes (name : String) : String := String.ofList (name.toList.dropWhile (· == '/'))

/-- A relative path inside a directory. -/
def joinPath (directory path : String) : String :=
  if directory = "" ∨ directory.toList.getLast? = some '/' then directory ++ path
  else directory ++ "/" ++ path

end Stencil
