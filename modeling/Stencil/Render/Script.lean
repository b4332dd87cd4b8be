import Stencil.Error
import Stencil.Text.Entity
import Stencil.Value.Heap

/-!
# Custom directives

A custom directive acts on a render through a few steps: it writes to the output, renders its
body to the output or into a string, looks variables up, binds variables in the frame it runs in,
and reads or changes the heap as a host may. A **script** is a program of such steps. It decides
from the result of a step how to go on, so it may ignore, replace or pass on a failure, and render
its body as often as it likes.

Since a script is data, what can be said of the steps can be said of every directive there is.

Main definitions: `Script`, `Directive`, and the directive `Directive.escape`.
-/

namespace Stencil

/-- What a directive does. -/
inductive Script where
  /-- Ends, well or with an error. -/
  | stop (result : Except Error Unit)
  /-- Writes a text to the output. -/
  | writeText (text : String) (next : Except Error Unit → Script)
  /-- Writes a value as output directives do. -/
  | writeValue (value : Value) (next : Except Error Unit → Script)
  /-- Renders the body to the output. -/
  | renderBody (next : Except Error Unit → Script)
  /-- Renders the body into a string. -/
  | renderToText (next : Except Error String → Script)
  /-- Looks a variable up. -/
  | lookup (name : String) (next : Value → Script)
  /-- Binds a variable in the frame that the directive runs in. -/
  | bind (name : String) (value : Value) (next : Script)
  /-- Reads the heap. -/
  | inspect (next : Heap → Script)
  /-- Changes the heap. -/
  | update (change : Heap → Heap) (next : Script)

namespace Script

/-- Ends well. -/
def done : Script := .stop (.ok ())

/-- Goes on after a success and passes an error on. -/
def andThen {α : Type} (next : α → Script) : Except Error α → Script
  | .ok a => next a
  | .error error => .stop (.error error)

end Script

/-- A custom directive: whether a body and an `#end` follow it, and what it does at a location
with the values of its parameters. -/
structure Directive where
  hasBody : Bool
  run : Location → List Value → Script

/-- The directive that renders its body with markup escaped. -/
def Directive.escape : Directive where
  hasBody := true
  run location args :=
    if args.isEmpty then
      .renderToText <| Script.andThen fun body => .writeText (Text.escape body) .stop
    else .stop (.error (.template (.directive "#escape takes no arguments") location))

end Stencil
