import Stencil.Number.Decimal

/-!
# Locations

A location is a row of a template text, with the name of the file the text came from if it has
one. Rows count from one. Every construct that can fail while a template is rendered carries the
location that its error message names.
-/

namespace Stencil

/-- A row of a template. -/
structure Location where
  file : Option String
  row : Nat
deriving DecidableEq, Repr, Inhabited

/-- A location as messages write it. -/
def Location.text (l : Location) : String :=
  match l.file with
  | some name => "in \"" ++ name ++ "\" at row " ++ Decimal.ofNat l.row
  | none => "at row " ++ Decimal.ofNat l.row

end Stencil
