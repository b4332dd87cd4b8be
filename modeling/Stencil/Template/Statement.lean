import Stencil.Expr.Basic
import Stencil.Render.Memory
import Stencil.Render.Script

/-!
# Statements

A compiled template is a tree of statements. Literal text and output directives write; the other
statements decide what is written, assign variables, or bring in other templates.

* A missing part — the `#else` of a condition or a loop, the `#default` of a switch, the body of a
  directive without one — is the statement that does nothing.
* An `#elseif` is a condition in the `#else` of the one before it.
* An included file is part of the tree of the file that includes it; a rendered one is compiled
  when it is needed, and its site remembers the result.

Main definitions: `Statement`, `TemplateFunction`, `Compiled`.
-/

namespace Stencil

/-- What a call of a template function calls. -/
inductive Callee where
  | named (name : String)
  /-- A name that an expression gives. -/
  | computed (name : Expr)
deriving Inhabited

mutual

/-- A statement. -/
inductive Statement where
  | nothing
  | text (content : String)
  | output (value : Expr)
  | condition (test : Expr) (yes no : Statement)
  | loop (head : LoopHead) (body otherwise : Statement)
  | switch (subject : Expr) (cases : List Case) (otherwise : Statement)
  /-- The place where a function is defined; it writes nothing. -/
  | definition (name : String)
  | call (callee : Callee) (args : List Expr) (ifDefined : Bool) (location : Location)
  | inlined (assignments : List Expr) (body : Statement)
  /-- A `#render` of a file; `site` tells the places apart where templates are rendered. -/
  | render (file : String) (assignments : List Expr) (site : Nat) (location : Location)
  | assign (policy : Policy) (assignments : List Expr)
  | jump (kind : Jump)
  | custom (directive : Directive) (args : List Expr) (body : Statement) (location : Location)
  | block (statements : List Statement)

/-- A case of a switch: the values it stands for, and its body. -/
inductive Case where
  | mk (values : List Expr) (body : Statement)

end

instance : Inhabited Statement := ⟨.nothing⟩

/-- The statement that runs statements one after the other. -/
def Statement.ofList : List Statement → Statement
  | [] => .nothing
  | [s] => s
  | statements => .block statements

/-- A function that a template defines. -/
structure TemplateFunction where
  name : String
  parameters : List String
  body : Statement
  location : Location
deriving Inhabited

end Stencil
