import Stencil.Text.Blank

/-!
# Squeezing white space

A squeezed text keeps its words and loses its layout: every line is trimmed, blank lines go, and
the lines that are left are joined by a separator. A text on one line is left alone, so that the
spacing around inline output survives.

The first line keeps its leading blanks and the last line its trailing ones, since other output
may stand directly before and after the text. Where the first or the last line is blank, a
separator marks the line break that was there.

Main definitions: `lines`, `squeeze`. Main statement: `squeeze_of_not_mem`.
-/

namespace Stencil.Text

/-- The lines of a text, without their line feeds. There is always one. -/
def lines : List Char → List (List Char)
  | [] => [[]]
  | c :: cs =>
    if c = '\n' then [] :: lines cs
    else
      match lines cs with
      | [] => [[c]]
      | line :: rest => (c :: line) :: rest

/-- Trims the lines that follow a first one: the last line keeps its trailing blanks. -/
def trimLater : List (List Char) → List (List Char)
  | [] => []
  | [last] => [trimStart last]
  | line :: rest => trim line :: trimLater rest

/-- Trims the lines of a text: the first line keeps its leading blanks. -/
def trimLines : List (List Char) → List (List Char)
  | [] => []
  | first :: rest => trimEnd first :: trimLater rest

/-- The separator, where a line at the edge of the text is blank. -/
def edge (separator : Char) : Option (List Char) → List Char
  | some line => if allBlank line then [separator] else []
  | none => []

/-- Joins trimmed lines, leaving out the empty ones. -/
def squeezeLines (separator : Char) (all : List (List Char)) : List Char :=
  match (trimLines all).filter (· ≠ []) with
  | [] => [separator]
  | kept =>
    edge separator all.head? ++ [separator].intercalate kept ++ edge separator all.getLast?

/-- Trims the lines of a text that has several and joins them by a separator. -/
def squeeze (separator : Char) (text : List Char) : List Char :=
  if '\n' ∈ text then squeezeLines separator (lines text) else text

/-- A text on one line is left alone. -/
theorem squeeze_of_not_mem {separator : Char} {text : List Char} (h : '\n' ∉ text) :
    squeeze separator text = text := if_neg h

/-- A text has a line, be it an empty one. -/
theorem lines_ne_nil (text : List Char) : lines text ≠ [] := by
  cases text with
  | nil => simp [lines]
  | cons c cs =>
    rw [lines]
    split
    · simp
    · split <;> simp

end Stencil.Text
