import Stencil.Text.Letter

/-!
# Blank characters

The blanks of this library are the characters with the Unicode property *White_Space*: twenty-five
code points, from the tab to the ideographic space. They separate the tokens of an expression,
and they are what trimming takes off the ends of a text.

Main statements: `trimStart_eq_nil_iff` and `head_trimStart` say what is left of a text after its
leading blanks are taken off.
-/

namespace Stencil.Text

/-- The code points with the property *White_Space*. -/
def blankRanges : Array (Nat × Nat) := #[
  (0x9, 0xD), (0x20, 0x20), (0x85, 0x85), (0xA0, 0xA0), (0x1680, 0x1680), (0x2000, 0x200A),
  (0x2028, 0x2029), (0x202F, 0x202F), (0x205F, 0x205F), (0x3000, 0x3000)]

/-- Whether a character is white space. -/
def isBlank (c : Char) : Bool := inRanges blankRanges c.toNat

/-- A text without its leading blanks. -/
def trimStart (cs : List Char) : List Char := cs.dropWhile isBlank

/-- A text without its trailing blanks. -/
def trimEnd (cs : List Char) : List Char := (cs.reverse.dropWhile isBlank).reverse

/-- A text without the blanks at its ends. -/
def trim (cs : List Char) : List Char := trimEnd (trimStart cs)

/-- Whether a text has blanks only. -/
def allBlank (cs : List Char) : Bool := cs.all isBlank

/-- Nothing is left of a text behind its blanks only if it is blank. -/
theorem trimStart_eq_nil_iff {cs : List Char} : trimStart cs = [] ↔ ∀ c ∈ cs, isBlank c := by
  unfold trimStart
  induction cs with
  | nil => simp
  | cons c rest ih => by_cases h : isBlank c <;> simp [h, ih]

/-- The first character that is left is no blank. -/
theorem head_trimStart {cs rest : List Char} {c : Char} (h : trimStart cs = c :: rest) :
    isBlank c = false := by
  have := List.head?_dropWhile_not isBlank cs
  simp only [trimStart] at h
  simp [h] at this
  exact this

end Stencil.Text
