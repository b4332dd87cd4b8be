/-!
# Character entities

Text that is safe inside markup: the five characters that markup gives a meaning are written as
entities, everything else stands for itself.

Main statement: `escape_append`, so escaping a text piece by piece gives the same as escaping it
as a whole.
-/

namespace Stencil.Text

/-- A character as it is written in markup. -/
def entity (c : Char) : List Char :=
  if c = '&' then "&amp;".toList
  else if c = '<' then "&lt;".toList
  else if c = '>' then "&gt;".toList
  else if c = '\x22' then "&quot;".toList
  else if c = '\x27' then "&#39;".toList
  else [c]

/-- A text as it is written in markup. -/
def escapeChars (cs : List Char) : List Char := cs.flatMap entity

/-- A string as it is written in markup. -/
def escape (s : String) : String := String.ofList (escapeChars s.toList)

theorem escapeChars_append (a b : List Char) :
    escapeChars (a ++ b) = escapeChars a ++ escapeChars b := List.flatMap_append

/-- Escaping does not depend on how a text is split into pieces. -/
theorem escape_append (s t : String) : escape (s ++ t) = escape s ++ escape t := by
  simp [escape, escapeChars_append, String.ofList_append]

end Stencil.Text
