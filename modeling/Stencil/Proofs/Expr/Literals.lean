import Mathlib
import Stencil.Proofs.Expr.Joining

/-!
# Number literals are read exactly

An integer literal is written in one of three bases (`IntegerLiteral`): in decimal digits, in octal
ones behind a zero, or in hexadecimal ones behind `0x`, with the suffix of a long or without it. It
is accepted exactly if its digits are digits of the base and its number, the sum of the digits times
the powers of the base, fits the type (`IntegerLiteral.InRange`), however many digits there are. The
value is then this number, or for hexadecimal digits the integer with these bits
(`IntegerLiteral.Means`).

A decimal literal is a whole part with a fraction or an exponent or neither (`DecimalLiteral.Proper`).
What the scanner takes of a text that begins with one is the literal, if nothing behind it belongs to
it (`DecimalLiteral.EndsBefore`). So the scanner gives up at a literal whose suffix does not fit, and
at one with a letter right behind it, wherever in a text it gets to it (`GetsTo`).

Main definitions: `IntegerLiteral`, `DecimalLiteral.EndsBefore`, `RefusesNumber`.
Main statements: `DecimalLiteral.scan_spelling`, `IntegerLiteral.scanNumber_ok`,
`number_literals_exact`.
-/

namespace Stencil

/-! ### Where the scanner gets to -/

/-- `GetsTo row text row' rest`: the tokens at the front of a text that starts in `row` are scanned
up to `rest`, which starts in `row'`. -/
inductive GetsTo : Nat → List Char → Nat → List Char → Prop
  | here (row : Nat) (blanks text : List Char) :
      (∀ d ∈ blanks, Text.isBlank d = true) →
      GetsTo row (blanks ++ text) (row + lineFeeds blanks) text
  | token {row rows row' : Nat} {blanks cs rest rest' : List Char} {c : Char} {lexeme : Lexeme} :
      (∀ d ∈ blanks, Text.isBlank d = true) → Text.isBlank c = false →
      scanLexeme c cs = .ok (lexeme, rest, rows) →
      GetsTo (row + lineFeeds blanks + rows) rest row' rest' →
      GetsTo row (blanks ++ c :: cs) row' rest'

variable {row row' : Nat} {cs rest tail : List Char} {c : Char}

/-- The scanner is at the beginning of a text to start with. -/
theorem GetsTo.refl (row : Nat) (text : List Char) : GetsTo row text row text :=
  .here row [] text nofun

/-- It gets behind a first token that has no line feed. -/
theorem GetsTo.next {lexeme : Lexeme} {text : List Char} (hc : Text.isBlank c = false)
    (hlexeme : scanLexeme c cs = .ok (lexeme, rest, 0)) (h : GetsTo row rest row' text) :
    GetsTo row (c :: cs) row' text := by
  have hblanks : ∀ d ∈ ([] : List Char), Text.isBlank d = true := nofun
  exact .token hblanks hc hlexeme h

/-- A text is scanned for nothing if its first token is not. -/
theorem scanTokens_error {rows : Nat} {fault : ParseFault} (hc : Text.isBlank c = false)
    (h : scanLexeme c cs = .error (fault, rows)) :
    scanTokens row (c :: cs) = .error (fault, row + rows) := by
  have htake : (c :: cs).takeWhile Text.isBlank = [] := by simp [hc]
  have hdrop : (c :: cs).dropWhile Text.isBlank = c :: cs := by simp [hc]
  have hstart : row + lineFeeds [] = row := rfl
  rw [scanTokens.eq_def, hdrop, htake, hstart]
  dsimp only
  rw [h]

/-- What is wrong with the rest of a text is wrong with the text. -/
theorem GetsTo.scanTokens_error {text : List Char} {fault : ParseFault × Nat}
    (h : GetsTo row text row' rest) (hrest : scanTokens row' rest = .error fault) :
    scanTokens row text = .error fault := by
  induction h with
  | here row blanks text hblanks => rwa [scanTokens_blanks hblanks]
  | @token row rows row' blanks cs rest rest' c lexeme hblanks hc hlexeme _ ih =>
    have htake : (c :: cs).takeWhile Text.isBlank = [] := by simp [hc]
    have hdrop : (c :: cs).dropWhile Text.isBlank = c :: cs := by simp [hc]
    rw [scanTokens_blanks hblanks, scanTokens.eq_def, hdrop, htake]
    dsimp only
    rw [hlexeme]
    dsimp only
    rw [show row + lineFeeds blanks + lineFeeds [] = row + lineFeeds blanks from rfl, ih hrest]

/-- A text at which the scanner gives up, wherever it gets to it, because of the number that the
text begins with. -/
def RefusesNumber (text : List Char) : Prop :=
  ∀ (row row' : Nat) (whole : List Char), GetsTo row whole row' text →
    ∃ literal reason, scanTokens row whole = .error (badNumber literal reason, row')

/-- A number in front of other tokens. -/
theorem scanTokens_number {literal : List Char} {v : Value} {ts : List Token} {last : Nat}
    (hc : c.isDigit = true) (h : scanNumber (c :: cs) = .ok (literal, v, rest))
    (hrest : scanTokens row rest = .ok (ts, last)) :
    scanTokens row (c :: cs) = .ok (⟨.number (String.ofList literal) v, row⟩ :: ts, last) := by
  have hlexeme : scanLexeme c cs = .ok (.number (String.ofList literal) v, rest, 0) := by
    rw [scanLexeme, isWordStart_of_isDigit hc, if_neg Bool.false_ne_true, if_pos hc, h]
  exact scanTokens_cons (isBlank_of_isDigit hc) hlexeme hrest

/-- A number that is refused is what is wrong with the text. -/
theorem GetsTo.scanTokens_number_error {fault : ParseFault} {whole : List Char}
    (h : GetsTo row whole row' (c :: cs)) (hc : c.isDigit = true)
    (hnumber : scanNumber (c :: cs) = .error fault) :
    scanTokens row whole = .error (fault, row') := by
  have hlexeme : scanLexeme c cs = .error (fault, 0) := by
    rw [scanLexeme, isWordStart_of_isDigit hc, if_neg Bool.false_ne_true, if_pos hc, hnumber]
  exact h.scanTokens_error (Stencil.scanTokens_error (isBlank_of_isDigit hc) hlexeme)

/-- A number that is refused at the beginning of a text is refused wherever the scanner gets to it.
-/
theorem refusesNumber_of_error {fault : ParseFault} (hc : c.isDigit = true)
    (h : scanNumber (c :: cs) = .error fault) : RefusesNumber (c :: cs) := by
  intro row row' whole hgets
  obtain ⟨literal, reason, rfl⟩ := scanNumber_fault h
  exact ⟨literal, reason, hgets.scanTokens_number_error hc h⟩

/-! ### Decimal literals -/

theorem isWordChar_of_isWordStart (h : isWordStart c = true) : isWordChar c = true := by
  simp only [isWordStart, isWordChar, Text.isAlphanumeric, Bool.or_eq_true] at h ⊢
  exact h.imp_left (Or.imp_left .inl)

namespace DecimalLiteral

/-- The marks of exponents. -/
def exponentMarks : List (List Char) :=
  [['e'], ['E'], ['e', '+'], ['e', '-'], ['E', '+'], ['E', '-']]

/-- A literal with digits in all its parts. -/
structure Proper (n : DecimalLiteral) : Prop where
  whole : n.whole ≠ [] ∧ ∀ c ∈ n.whole, c.isDigit = true
  fraction : ∀ digits ∈ n.fraction, digits ≠ [] ∧ ∀ c ∈ digits, c.isDigit = true
  exponent : ∀ e ∈ n.exponent, e.1 ∈ exponentMarks ∧ e.2 ≠ [] ∧ ∀ c ∈ e.2, c.isDigit = true

/-- Nothing of what stands behind a literal belongs to its digits, its fraction or its exponent, and
it does not make the literal a hexadecimal one. -/
structure EndsBefore (n : DecimalLiteral) (tail : List Char) : Prop where
  digit : ∀ c ∈ tail.head?, c.isDigit = false
  fraction : n.fraction = none → n.exponent = none → scanFraction tail = (none, tail)
  exponent : n.exponent = none → exponentMark tail = []
  hex : n.spelling = ['0'] → ∀ c ∈ tail.head?, c ≠ 'x' ∧ c ≠ 'X'

/-- The characters of the fraction of a literal. -/
def fractionChars (n : DecimalLiteral) : List Char := n.fraction.elim [] ('.' :: ·)

/-- The characters of the exponent of a literal. -/
def exponentChars (n : DecimalLiteral) : List Char := n.exponent.elim [] fun e => e.1 ++ e.2

/-- A literal is its whole part, its fraction and its exponent. -/
theorem spelling_eq (n : DecimalLiteral) :
    n.spelling = n.whole ++ n.fractionChars ++ n.exponentChars := by
  obtain ⟨whole, _ | digits, _ | ⟨mark, exponent⟩⟩ := n <;> rfl

variable {n : DecimalLiteral}

/-- A mark with a digit behind it is the mark of an exponent. -/
theorem exponentMark_append {mark digits : List Char} (hmark : mark ∈ exponentMarks)
    (hne : digits ≠ []) (hdigits : ∀ c ∈ digits, c.isDigit = true) (tail : List Char) :
    exponentMark (mark ++ (digits ++ tail)) = mark := by
  obtain ⟨d, digits, rfl⟩ := List.exists_cons_of_ne_nil hne
  have hd : d.isDigit = true := hdigits d List.mem_cons_self
  simp only [exponentMarks, List.mem_cons, List.not_mem_nil, or_false] at hmark
  rcases hmark with rfl | rfl | rfl | rfl | rfl | rfl
  · cases hrest : digits ++ tail <;> simp [exponentMark, hd, hrest]
  · cases hrest : digits ++ tail <;> simp [exponentMark, hd, hrest]
  all_goals simp [exponentMark, hd, show ('+' : Char).isDigit = false by decide,
    show ('-' : Char).isDigit = false by decide]

/-- The exponent is scanned as it is spelled. -/
theorem scanExponent_chars (hn : n.Proper) (htail : n.EndsBefore tail) :
    scanExponent (n.exponentChars ++ tail) = (n.exponent, tail) := by
  obtain ⟨whole, fraction, exponent⟩ := n
  -- without an exponent, none begins behind the literal either
  cases exponent with
  | none =>
    change scanExponent tail = _
    rw [scanExponent, htail.exponent rfl]
  | some e =>
    obtain ⟨mark, digits⟩ := e
    obtain ⟨hmark, hne, hdigits⟩ := hn.exponent _ rfl
    obtain ⟨htake, hdrop⟩ := IsRun.span ⟨hdigits, htail.digit⟩
    change scanExponent (mark ++ digits ++ tail) = _
    rw [List.append_assoc, scanExponent, exponentMark_append hmark hne hdigits]
    -- every mark begins with an `e`, with a sign behind it or not
    obtain ⟨e, signs, rfl⟩ : ∃ e signs, mark = e :: signs := by
      refine List.exists_cons_of_ne_nil ?_
      rintro rfl
      simp [exponentMarks] at hmark
    dsimp only
    rw [List.drop_left, htake, hdrop]

/-- What stands behind the fraction of a literal does not go on with it. -/
theorem head_exponentChars (hn : n.Proper) (htail : n.EndsBefore tail) :
    ∀ c ∈ (n.exponentChars ++ tail).head?, c.isDigit = false := by
  obtain ⟨whole, fraction, exponent⟩ := n
  cases exponent with
  | none => exact htail.digit
  | some e =>
    obtain ⟨mark, digits⟩ := e
    obtain ⟨hmark, -, -⟩ := hn.exponent _ rfl
    change ∀ c ∈ (mark ++ digits ++ tail).head?, c.isDigit = false
    simp only [exponentMarks, List.mem_cons, List.not_mem_nil, or_false] at hmark
    rcases hmark with rfl | rfl | rfl | rfl | rfl | rfl <;>
      · rintro c ⟨⟩
        decide

/-- The fraction is scanned as it is spelled. -/
theorem scanFraction_chars (hn : n.Proper) (htail : n.EndsBefore tail) :
    scanFraction (n.fractionChars ++ (n.exponentChars ++ tail)) =
      (n.fraction, n.exponentChars ++ tail) := by
  have hhead := head_exponentChars hn htail
  obtain ⟨whole, fraction, exponent⟩ := n
  -- a fraction ends at the exponent or at the end of the literal
  cases fraction with
  | some digits =>
    obtain ⟨hne, hdigits⟩ := hn.fraction _ rfl
    obtain ⟨htake, hdrop⟩ := IsRun.span ⟨hdigits, hhead⟩
    obtain ⟨d, digits, rfl⟩ := List.exists_cons_of_ne_nil hne
    change scanFraction ('.' :: d :: (digits ++ _)) = _
    rw [scanFraction, if_pos (hdigits d List.mem_cons_self), ← List.cons_append, htake, hdrop]
  | none =>
    -- without a fraction, neither the exponent nor what follows is one
    cases exponent with
    | none => exact htail.fraction rfl rfl
    | some e =>
      obtain ⟨mark, digits⟩ := e
      obtain ⟨hmark, -, -⟩ := hn.exponent _ rfl
      change scanFraction (mark ++ digits ++ tail) = (none, mark ++ digits ++ tail)
      simp only [exponentMarks, List.mem_cons, List.not_mem_nil, or_false] at hmark
      rcases hmark with rfl | rfl | rfl | rfl | rfl | rfl <;> simp [scanFraction]

/-- **A decimal literal is scanned as it is spelled**, if nothing behind it belongs to it. -/
theorem scan_spelling (hn : n.Proper) (htail : n.EndsBefore tail) :
    scan (n.spelling ++ tail) = (n, tail) := by
  -- the whole part ends at a point, at an `e`, or where the literal ends
  have hhead : ∀ c ∈ (n.fractionChars ++ (n.exponentChars ++ tail)).head?, c.isDigit = false := by
    cases hfraction : n.fraction with
    | none =>
      rw [fractionChars, hfraction]
      exact head_exponentChars hn htail
    | some digits =>
      rw [fractionChars, hfraction]
      rintro c ⟨⟩
      decide
  obtain ⟨htake, hdrop⟩ := IsRun.span ⟨hn.whole.2, hhead⟩
  rw [spelling_eq, List.append_assoc, List.append_assoc]
  simp only [scan, htake, hdrop, scanFraction_chars hn htail, scanExponent_chars hn htail]

/-- A decimal literal is not taken for a hexadecimal one. -/
theorem scanNumber_spelling (hn : n.Proper) (htail : n.EndsBefore tail) :
    scanNumber (n.spelling ++ tail) = scanDecimal (n.spelling ++ tail) := by
  rw [scanNumber.eq_def]
  split
  · rename_i x cs heq
    refine (if_neg ?_).trans (congrArg scanDecimal heq.symm)
    obtain ⟨d, whole, hwhole⟩ := List.exists_cons_of_ne_nil hn.whole.1
    rw [spelling_eq, hwhole, List.cons_append, List.cons_append, List.cons_append] at heq
    obtain ⟨rfl, hbehind⟩ := List.cons.inj heq
    -- Behind the zero there is a digit, a point, the mark of an exponent, or what follows.
    cases whole with
    | cons d' whole =>
      obtain ⟨rfl, -⟩ := List.cons.inj hbehind
      have hdigit := toNat_of_isDigit (hn.whole.2 d' (by rw [hwhole]; simp))
      rintro (rfl | rfl) <;> exact absurd hdigit.2 (by decide)
    | nil =>
      cases hfraction : n.fraction with
      | some digits =>
        rw [fractionChars, hfraction] at hbehind
        obtain ⟨rfl, -⟩ := List.cons.inj hbehind
        decide
      | none =>
        rw [fractionChars, hfraction] at hbehind
        cases hexponent : n.exponent with
        | some e =>
          obtain ⟨hmark, -, -⟩ := hn.exponent e hexponent
          rw [exponentChars, hexponent] at hbehind
          change e.1 ++ e.2 ++ tail = x :: cs at hbehind
          obtain ⟨mark, digits⟩ := e
          simp only [exponentMarks, List.mem_cons, List.not_mem_nil, or_false] at hmark
          rcases hmark with rfl | rfl | rfl | rfl | rfl | rfl <;>
            · obtain ⟨rfl, -⟩ := List.cons.inj hbehind
              decide
        | none =>
          have hlone : n.spelling = ['0'] := by
            rw [spelling_eq, hwhole, fractionChars, exponentChars, hfraction, hexponent]
            rfl
          rw [exponentChars, hexponent] at hbehind
          obtain rfl : tail = x :: cs := hbehind
          simpa using htail.hex hlone
  · rfl

variable {suffix : Option Char}

/-- A literal with its suffix that has a value and ends a word. -/
theorem scanNumber_ok {v : Value} (hn : n.Proper) (htail : n.EndsBefore tail)
    (hsuffix : takeIf isSuffix tail = (suffix, rest))
    (hrest : ∀ c ∈ rest.head?, isWordChar c = false) (hv : n.value suffix = .ok v) :
    scanNumber (n.spelling ++ tail) = .ok (n.spelling ++ suffix.toList, v, rest) := by
  rw [scanNumber_spelling hn htail, scanDecimal]
  simp only [scan_spelling hn htail, hsuffix, takeIf_of_head hrest, hv]

/-- A literal with a suffix that it has no value with. -/
theorem scanNumber_no_value {reason : String} (hn : n.Proper) (htail : n.EndsBefore tail)
    (hsuffix : takeIf isSuffix tail = (suffix, rest)) (hv : n.value suffix = .error reason) :
    ∃ fault, scanNumber (n.spelling ++ tail) = .error fault := by
  rw [scanNumber_spelling hn htail, scanDecimal]
  simp only [scan_spelling hn htail, hsuffix, hv]
  split
  · exact ⟨_, rfl⟩
  · exact ⟨_, rfl⟩

/-- A literal with a character of words right behind it. -/
theorem scanNumber_letter (hn : n.Proper) (htail : n.EndsBefore tail)
    (hsuffix : takeIf isSuffix tail = (suffix, c :: rest)) (hc : isWordChar c = true) :
    ∃ fault, scanNumber (n.spelling ++ tail) = .error fault := by
  have hstop : takeIf isWordChar (c :: rest) = (some c, rest) := by simp [takeIf, hc]
  rw [scanNumber_spelling hn htail, scanDecimal]
  simp only [scan_spelling hn htail, hsuffix, hstop]
  exact ⟨_, rfl⟩

/-- A suffix ends a literal. -/
theorem endsBefore_suffix (hc : isSuffix c = true) (rest : List Char) :
    n.EndsBefore (c :: rest) := by
  have hne : c.isDigit = false ∧ c ≠ '.' ∧ c ≠ 'e' ∧ c ≠ 'E' ∧ c ≠ 'x' ∧ c ≠ 'X' := by
    simp only [isSuffix, List.mem_cons, List.not_mem_nil, or_false, decide_eq_true_eq] at hc
    rcases hc with rfl | rfl | rfl | rfl | rfl | rfl <;> decide
  obtain ⟨hdigit, hpoint, he, hE, hx, hX⟩ := hne
  refine ⟨by rintro _ ⟨⟩; exact hdigit, fun _ _ => ?_, fun _ => ?_, fun _ => ?_⟩
  · rw [scanFraction]
    rintro d tail ⟨⟩
    exact hpoint rfl
  · exact exponentMark_of_ne (by rintro _ ⟨⟩; exact ⟨he, hE⟩)
  · rintro _ ⟨⟩
    exact ⟨hx, hX⟩

theorem endsBefore_nil : n.EndsBefore [] :=
  ⟨nofun, fun _ _ => rfl, fun _ => rfl, fun _ => nofun⟩

end DecimalLiteral

/-! ### Integer literals -/

/-- The base that an integer literal is written in. -/
inductive Radix
  | decimal
  | octal
  /-- With the letter between the zero and the digits. -/
  | hex (mark : Char)

namespace Radix

/-- What stands in front of the digits. -/
def lead : Radix → List Char
  | decimal => []
  | octal => ['0']
  | hex mark => ['0', mark]

/-- The number of digits of a base. -/
def base : Radix → Nat
  | decimal => 10
  | octal => 8
  | hex _ => 16

/-- The digits that are scanned for this base. They need not be digits of it. -/
def Takes : Radix → List Char → Prop
  | decimal, digits =>
    digits ≠ [] ∧ (∀ c ∈ digits, c.isDigit = true) ∧ (digits.head? = some '0' → digits = ['0'])
  | octal, digits => digits ≠ [] ∧ ∀ c ∈ digits, c.isDigit = true
  | hex mark, digits => (mark = 'x' ∨ mark = 'X') ∧ ∀ c ∈ digits, isHexDigit c = true

end Radix

/-- The value of a digit, by its place among the digits. -/
def digitOf (c : Char) : Nat := "0123456789abcdef".toList.idxOf c.toLower

/-- An integer literal: its digits behind what marks the base, and the suffix of a long. -/
structure IntegerLiteral where
  radix : Radix
  digits : List Char
  suffix : Option Char
  takes : radix.Takes digits
  long : ∀ c ∈ suffix, c = 'L' ∨ c = 'l'

namespace IntegerLiteral

/-- The characters of a literal. -/
def chars (n : IntegerLiteral) : List Char := n.radix.lead ++ n.digits ++ n.suffix.toList

/-- The number that the digits spell. -/
def magnitude (n : IntegerLiteral) : Nat :=
  Nat.ofDigits n.radix.base (n.digits.reverse.map digitOf)

/-- The bits of the type that a literal is of. -/
def width (n : IntegerLiteral) : Nat := n.suffix.elim 32 fun _ => 64

/-- The bits that the digits may set: all of them if they are hexadecimal, else all but the sign. -/
def bits (n : IntegerLiteral) : Nat :=
  match n.radix with
  | .hex _ => n.width
  | _ => n.width - 1

/-- The digits are digits of the base, and a hexadecimal literal has some. -/
def WellDigited (n : IntegerLiteral) : Prop :=
  match n.radix with
  | .decimal => True
  | .octal => ∀ c ∈ n.digits, digitOf c < 8
  | .hex _ => n.digits ≠ []

/-- A literal that has a value. -/
def InRange (n : IntegerLiteral) : Prop := n.WellDigited ∧ n.magnitude < 2 ^ n.bits

/-- The integer whose bits in two's complement are those of the magnitude. -/
def integer (n : IntegerLiteral) : Int :=
  if n.magnitude < 2 ^ (n.width - 1) then n.magnitude else n.magnitude - 2 ^ n.width

/-- The value is the integer that a literal spells, an int or a long as the suffix says. -/
def Means (n : IntegerLiteral) (v : Value) : Prop :=
  (n.suffix = none ∧ ∃ i : Int32, v = .int i ∧ i.toInt = n.integer) ∨
    (n.suffix ≠ none ∧ ∃ l : Int64, v = .long l ∧ l.toInt = n.integer)

end IntegerLiteral

/-! #### Digits -/

theorem isHexDigit_of_isDigit (h : c.isDigit = true) : isHexDigit c = true := by
  simp [isHexDigit, h]

/-- The scanner and the reader agree on what a digit is worth. -/
theorem hexValue_eq_digitOf (h : isHexDigit c = true) : hexValue c = digitOf c := by
  have hrange : 48 ≤ c.toNat ∧ c.toNat ≤ 57 ∨ 97 ≤ c.toNat ∧ c.toNat ≤ 102 ∨
      65 ≤ c.toNat ∧ c.toNat ≤ 70 := by
    simp only [isHexDigit, Bool.or_eq_true, Bool.and_eq_true, decide_eq_true_eq, or_assoc] at h
    exact h.imp toNat_of_isDigit id
  rw [← Char.ofNat_toNat c]
  generalize c.toNat = k at hrange ⊢
  rcases hrange with ⟨hlow, hhigh⟩ | ⟨hlow, hhigh⟩ | ⟨hlow, hhigh⟩ <;> interval_cases k <;> decide

/-- What is summed up from the first digit on is the sum over the places of the digits. -/
theorem valueIn_eq_ofDigits {digits : List Char} (base : Nat)
    (h : ∀ c ∈ digits, isHexDigit c = true) :
    valueIn base digits = Nat.ofDigits base (digits.reverse.map digitOf) := by
  induction digits using List.reverseRecOn with
  | nil => rfl
  | append_singleton digits c ih =>
    have hdigits : ∀ d ∈ digits, isHexDigit d = true := fun d hd => h d (by simp [hd])
    have hc : hexValue c = digitOf c := hexValue_eq_digitOf (h c (by simp))
    rw [valueIn_concat, ih hdigits, hc, List.reverse_append, List.reverse_singleton,
      List.singleton_append, List.map_cons, Nat.ofDigits_cons]
    ring

/-- Digits without a leading zero are read in base ten. -/
theorem integral_decimal {digits : List Char} (h : digits.head? = some '0' → digits = ['0']) :
    integral digits =
      if valueIn 10 digits < readLimit then .ok (valueIn 10 digits)
      else .error "invalid digits" := by
  rw [integral]
  rintro d rest rfl
  simp at h

/-- Digits behind a leading zero are read in base eight. -/
theorem integral_octal {digits : List Char} (h : digits ≠ []) :
    integral ('0' :: digits) =
      if digits.all (·.toNat < 56) = true ∧ valueIn 8 digits < readLimit then
        .ok (valueIn 8 digits)
      else .error "invalid octal digit" := by
  obtain ⟨d, digits, rfl⟩ := List.exists_cons_of_ne_nil h
  rw [integral]

/-! #### Integers of the two widths -/

/-- What is left of a number in two's complement of a width that has room for its bits. -/
theorem bmod_two_pow {w m : Nat} (h : m < 2 ^ (w + 1)) :
    Int.bmod m (2 ^ (w + 1)) = if m < 2 ^ w then (m : Int) else m - 2 ^ (w + 1) := by
  have hpow : 2 ^ (w + 1) = 2 * 2 ^ w := Nat.pow_succ'
  have hmod : (m : Int) % (2 ^ (w + 1) : Nat) = m := Int.emod_eq_of_lt (by omega) (by omega)
  have hhalf : ((2 ^ (w + 1) : Nat) + 1 : Int) / 2 = 2 ^ w := by
    rw [hpow]
    push_cast
    omega
  rw [Int.bmod_def, hmod]
  push_cast at hhalf ⊢
  rw [hhalf]
  norm_cast

namespace IntegerLiteral

variable {n : IntegerLiteral}

/-- The type that the suffix asks for holds the integer whose bits are spelled. -/
theorem means_packNat (h : n.magnitude < 2 ^ n.width) :
    n.Means (packNat n.suffix n.magnitude) := by
  -- the width goes by the suffix, and the bits of the magnitude fit into either
  cases hsuffix : n.suffix with
  | none =>
    rw [width, hsuffix] at h
    have hsize : Int32.size = 2 ^ (31 + 1) := by decide
    refine .inl ⟨hsuffix, _, rfl, ?_⟩
    rw [Int32.toInt_ofNat', integer, width, hsuffix, hsize, bmod_two_pow h]
    rfl
  | some letter =>
    rw [width, hsuffix] at h
    have hsize : Int64.size = 2 ^ (63 + 1) := by decide
    refine .inr ⟨by simp [hsuffix], _, rfl, ?_⟩
    rw [Int64.toInt_ofNat', integer, width, hsuffix, hsize, bmod_two_pow h]
    rfl

/-- No width is above 64. -/
theorem width_le (n : IntegerLiteral) : n.width ≤ 64 := by
  rw [width]
  cases n.suffix with
  | none => decide
  | some letter => exact le_rfl

/-! #### Decimal and octal literals -/

/-- A literal in decimal digits only, as the parts that the scanner takes. -/
def parts (n : IntegerLiteral) : DecimalLiteral := ⟨n.radix.lead ++ n.digits, none, none⟩

/-- The parts of a literal spell its radix and its digits. -/
theorem spelling_parts (n : IntegerLiteral) : n.parts.spelling = n.radix.lead ++ n.digits := by
  simp [parts, DecimalLiteral.spelling]

/-- Digits that are not hexadecimal. -/
theorem digits_spec (hradix : ∀ mark, n.radix ≠ .hex mark) :
    n.digits ≠ [] ∧ ∀ c ∈ n.digits, c.isDigit = true := by
  obtain ⟨radix, digits, suffix, htakes, hlong⟩ := n
  cases radix with
  | decimal => exact ⟨htakes.1, htakes.2.1⟩
  | octal => exact htakes
  | hex mark => exact absurd rfl (hradix mark)

/-- The parts of a decimal or octal literal are those of a decimal literal. -/
theorem proper_parts (hradix : ∀ mark, n.radix ≠ .hex mark) : n.parts.Proper := by
  obtain ⟨hne, hdigits⟩ := digits_spec hradix
  refine ⟨⟨?_, fun c hc => ?_⟩, nofun, nofun⟩
  · simp [parts, hne]
  · rcases List.mem_append.1 hc with hc | hc
    · cases hkind : n.radix with
      | decimal => simp [hkind, Radix.lead] at hc
      | octal =>
        obtain rfl : c = '0' := by simpa [hkind, Radix.lead] using hc
        decide
      | hex mark => exact absurd hkind (hradix mark)
    · exact hdigits c hc

/-- The digits are read as the number they spell, or not at all if it is too large to be read. -/
theorem integral_parts (hradix : ∀ mark, n.radix ≠ .hex mark) :
    (n.WellDigited ∧ n.magnitude < readLimit → integral n.parts.whole = .ok n.magnitude) ∧
      (¬(n.WellDigited ∧ n.magnitude < readLimit) →
        ∃ reason, integral n.parts.whole = .error reason) := by
  have hhex : ∀ c ∈ n.digits, isHexDigit c = true := fun c hc =>
    isHexDigit_of_isDigit ((digits_spec hradix).2 c hc)
  obtain ⟨radix, digits, suffix, htakes, hlong⟩ := n
  cases radix with
  | decimal =>
    have hvalue := valueIn_eq_ofDigits 10 hhex
    simp only [parts, Radix.lead, List.nil_append, integral_decimal htakes.2.2, WellDigited,
      magnitude, Radix.base, hvalue, true_and]
    exact ⟨fun h => if_pos h, fun h => ⟨_, if_neg h⟩⟩
  | octal =>
    have hvalue := valueIn_eq_ofDigits 8 hhex
    -- The characters of octal digits are those before the digit eight.
    have hall : digits.all (·.toNat < 56) = true ↔ ∀ c ∈ digits, digitOf c < 8 := by
      rw [List.all_eq_true]
      refine forall₂_congr fun c hc => ?_
      rw [← hexValue_eq_digitOf (hhex c hc), hexValue, if_pos (htakes.2 c hc), decide_eq_true_eq]
      omega
    simp only [parts, Radix.lead, List.singleton_append, integral_octal htakes.1, WellDigited,
      magnitude, Radix.base, hvalue, hall]
    exact ⟨fun h => if_pos h, fun h => ⟨_, if_neg h⟩⟩
  | hex mark => exact absurd rfl (hradix mark)

/-- Outside of base sixteen the sign takes one bit of the width. -/
theorem bits_eq (hradix : ∀ mark, n.radix ≠ .hex mark) : n.bits = n.width - 1 := by
  cases hkind : n.radix with
  | decimal | octal => simp [bits, hkind]
  | hex mark => exact absurd hkind (hradix mark)

/-- What the digits are worth in the width that the suffix asks for. -/
theorem value_parts (n : IntegerLiteral) :
    n.parts.value n.suffix = integral n.parts.whole >>= fun m =>
      if m < 2 ^ (n.width - 1) then .ok (packNat n.suffix m)
      else .error (n.suffix.elim intRange fun _ => longRange) :=
  value_digits n.long

/-- A decimal or octal literal in range has the value it spells. -/
theorem value_parts_ok (hradix : ∀ mark, n.radix ≠ .hex mark) (h : n.InRange) :
    ∃ v, n.Means v ∧ n.parts.value n.suffix = .ok v := by
  obtain ⟨hdigits, hrange⟩ := h
  rw [bits_eq hradix] at hrange
  have hwidth : n.magnitude < 2 ^ n.width :=
    hrange.trans_le (Nat.pow_le_pow_right Nat.two_pos (Nat.sub_le _ _))
  have hlimit : n.magnitude < readLimit :=
    hwidth.trans_le (Nat.pow_le_pow_right Nat.two_pos (n.width_le.trans (by decide)))
  have hread := (integral_parts hradix).1 ⟨hdigits, hlimit⟩
  refine ⟨_, means_packNat hwidth, ?_⟩
  rw [value_parts, hread]
  exact if_pos hrange

/-- A decimal or octal literal out of range has no value. -/
theorem value_parts_error (hradix : ∀ mark, n.radix ≠ .hex mark) (h : ¬n.InRange) :
    ∃ reason, n.parts.value n.suffix = .error reason := by
  -- the digits are not those of the base, or the number they spell is too large for the width
  by_cases hread : n.WellDigited ∧ n.magnitude < readLimit
  · have hinteger := (integral_parts hradix).1 hread
    have hlarge : ¬n.magnitude < 2 ^ (n.width - 1) := by
      rw [← bits_eq hradix]
      exact fun hrange => h ⟨hread.1, hrange⟩
    refine ⟨n.suffix.elim intRange fun _ => longRange, ?_⟩
    rw [value_parts, hinteger]
    exact if_neg hlarge
  · obtain ⟨reason, hreason⟩ := (integral_parts hradix).2 hread
    refine ⟨reason, ?_⟩
    rw [value_parts, hreason]
    rfl

/-! #### Hexadecimal literals -/

/-- What stands behind a literal is no part of it. -/
def EndsBefore (n : IntegerLiteral) (tail : List Char) : Prop :=
  ∀ c ∈ tail.head?, n.suffix = none → isHexDigit c = false ∧ c ≠ 'L' ∧ c ≠ 'l'

/-- A hexadecimal literal has its mark, and hexadecimal digits. -/
theorem digits_hex {mark : Char} (hradix : n.radix = .hex mark) :
    (mark = 'x' ∨ mark = 'X') ∧ ∀ c ∈ n.digits, isHexDigit c = true := by
  obtain ⟨radix, digits, suffix, htakes, hlong⟩ := n
  subst hradix
  exact htakes

/-- What is left of a hexadecimal literal once the parts of it are taken off. -/
theorem scan_hex {mark : Char} (hradix : n.radix = .hex mark) (htail : n.EndsBefore tail) :
    scanNumber (n.chars ++ tail) = scanHex ['0', mark] (n.digits ++ (n.suffix.toList ++ tail)) ∧
      (n.digits ++ (n.suffix.toList ++ tail)).takeWhile isHexDigit = n.digits ∧
      (n.digits ++ (n.suffix.toList ++ tail)).dropWhile isHexDigit = n.suffix.toList ++ tail ∧
      takeIf (fun c => c == 'L' || c == 'l') (n.suffix.toList ++ tail) = (n.suffix, tail) := by
  obtain ⟨hmark, hdigits⟩ := digits_hex hradix
  have hnumber : scanNumber (n.chars ++ tail) =
      scanHex ['0', mark] (n.digits ++ (n.suffix.toList ++ tail)) := by
    rw [chars, hradix, List.append_assoc, List.append_assoc]
    exact if_pos hmark
  refine ⟨hnumber, ?_⟩
  -- the digits end at the suffix, or at what stands behind the literal
  cases hsuffix : n.suffix with
  | none =>
    have hhead : ∀ c ∈ tail.head?, isHexDigit c = false := fun c hc => (htail c hc hsuffix).1
    obtain ⟨htake, hdrop⟩ := IsRun.span ⟨hdigits, hhead⟩
    refine ⟨htake, hdrop, takeIf_of_head fun c hc => ?_⟩
    simp [htail c hc hsuffix]
  | some letter =>
    have hletter := n.long letter hsuffix
    have hhead : ∀ c ∈ (letter :: tail).head?, isHexDigit c = false := by
      rintro c ⟨⟩
      rcases hletter with rfl | rfl <;> decide
    obtain ⟨htake, hdrop⟩ := IsRun.span ⟨hdigits, hhead⟩
    exact ⟨htake, hdrop, by simp [takeIf, hletter]⟩

/-- A hexadecimal literal in range has the value it spells. -/
theorem ofHexDigits_ok {mark : Char} (hradix : n.radix = .hex mark) (h : n.InRange) :
    ∃ v, n.Means v ∧ ofHexDigits n.suffix.isSome n.digits = .ok v := by
  have hvalue : valueIn 16 n.digits = n.magnitude := by
    rw [magnitude, hradix, valueIn_eq_ofDigits 16 (digits_hex hradix).2]
    rfl
  have hrange : n.magnitude < 2 ^ n.width := by simpa [bits, hradix] using h.2
  refine ⟨_, means_packNat hrange, ?_⟩
  -- an int has 32 bits and a long 64, and the magnitude is in range of the bits
  cases hsuffix : n.suffix with
  | none =>
    have hsmall : n.magnitude < 2 ^ 32 := by simpa [width, hsuffix] using hrange
    have hsize : n.magnitude < UInt32.size := hsmall
    have hlong : ¬UInt64.size ≤ n.magnitude := Nat.not_le.2 (hsmall.trans (by decide))
    simp [ofHexDigits, hvalue, hsize, hlong, packNat]
  | some letter =>
    have hsmall : n.magnitude < 2 ^ 64 := by simpa [width, hsuffix] using hrange
    have hlong : ¬UInt64.size ≤ n.magnitude := Nat.not_le.2 hsmall
    simp [ofHexDigits, hvalue, hlong, packNat]

/-- A hexadecimal literal that is too large has no value. -/
theorem ofHexDigits_error {mark : Char} (hradix : n.radix = .hex mark)
    (h : ¬n.magnitude < 2 ^ n.bits) :
    ∃ reason, ofHexDigits n.suffix.isSome n.digits = .error reason := by
  have hvalue : valueIn 16 n.digits = n.magnitude := by
    rw [magnitude, hradix, valueIn_eq_ofDigits 16 (digits_hex hradix).2]
    rfl
  have hlarge : 2 ^ n.width ≤ n.magnitude := by simpa [bits, hradix] using h
  simp only [ofHexDigits, hvalue]
  split
  · exact ⟨_, rfl⟩
  -- more than 64 bits fit into neither width, and more than 32 into no int
  · rename_i hlong
    by_cases hsuffix : n.suffix = none
    · have hbig : ¬n.magnitude < UInt32.size := by
        simpa [width, hsuffix] using hlarge
      rw [if_neg (by simp [hsuffix]), if_neg hbig]
      exact ⟨_, rfl⟩
    · obtain ⟨letter, hletter⟩ := Option.ne_none_iff_exists'.1 hsuffix
      have hbig : 2 ^ 64 ≤ n.magnitude := by simpa [width, hletter] using hlarge
      exact absurd hbig hlong

theorem endsBefore_nil : n.EndsBefore [] := nofun

/-- A hexadecimal literal with a value is read as this value. -/
theorem scanNumber_hex_ok {mark : Char} {v : Value} (hradix : n.radix = .hex mark)
    (htail : n.EndsBefore tail) (hne : n.digits ≠ []) (hstop : ∀ c ∈ tail.head?, endsHex c = false)
    (hv : ofHexDigits n.suffix.isSome n.digits = .ok v) :
    scanNumber (n.chars ++ tail) = .ok (n.chars, v, tail) := by
  obtain ⟨hscan, htake, hdrop, hsuffix⟩ := scan_hex hradix htail
  have hnonempty : n.digits.isEmpty = false := by simpa using hne
  rw [hscan, scanHex]
  simp only [htake, hdrop, hsuffix, hnonempty, Bool.false_eq_true, if_false, takeIf_of_head hstop,
    hv]
  rw [chars, hradix]
  rfl

/-- A hexadecimal literal without digits, too large, or with a character behind it that ends none. -/
theorem scanNumber_hex_error {mark : Char} (hradix : n.radix = .hex mark)
    (htail : n.EndsBefore tail)
    (h : n.digits = [] ∨ (∃ c ∈ tail.head?, endsHex c = true) ∨
      ∃ reason, ofHexDigits n.suffix.isSome n.digits = .error reason) :
    ∃ fault, scanNumber (n.chars ++ tail) = .error fault := by
  obtain ⟨hscan, htake, hdrop, hsuffix⟩ := scan_hex hradix htail
  rw [hscan, scanHex]
  simp only [htake, hdrop, hsuffix]
  split
  · exact ⟨_, rfl⟩
  -- the first of the three that applies refuses the literal
  · rename_i hnonempty
    split
    · exact ⟨_, rfl⟩
    · rename_i hgo
      rcases h with hnil | ⟨c, hc, hstop⟩ | ⟨reason, hreason⟩
      · exact absurd (by simp [hnil]) hnonempty
      · obtain ⟨rest, rfl⟩ := List.head?_eq_some_iff.1 hc
        simp [takeIf, hstop] at hgo
      · rw [hreason]
        exact ⟨_, rfl⟩

/-! #### Literals as whole expressions -/

/-- A literal begins with a digit, or with the zero in front of its digits. -/
theorem exists_chars (n : IntegerLiteral) : ∃ c cs, n.chars = c :: cs ∧ c.isDigit = true := by
  obtain ⟨radix, digits, suffix, htakes, hlong⟩ := n
  cases radix with
  | decimal =>
    obtain ⟨c, cs, rfl⟩ := List.exists_cons_of_ne_nil htakes.1
    exact ⟨c, _, rfl, htakes.2.1 c List.mem_cons_self⟩
  | octal => exact ⟨'0', _, rfl, by decide⟩
  | hex mark => exact ⟨'0', _, rfl, by decide⟩

/-- The suffix is what is taken behind the parts. -/
theorem takeIf_suffix {tail : List Char} (n : IntegerLiteral)
    (htail : n.suffix = none → ∀ c ∈ tail.head?, isSuffix c = false) :
    takeIf isSuffix (n.suffix.toList ++ tail) = (n.suffix, tail) := by
  cases hsuffix : n.suffix with
  | none => exact takeIf_of_head (htail hsuffix)
  | some letter =>
    rcases n.long letter hsuffix with rfl | rfl <;> rfl

/-- A decimal or octal literal, and what stands behind its suffix. -/
theorem chars_parts (n : IntegerLiteral) (tail : List Char) :
    n.chars ++ tail = n.parts.spelling ++ (n.suffix.toList ++ tail) := by
  rw [spelling_parts, chars, List.append_assoc]

/-- The parts end at the suffix, or where the literal does. -/
theorem endsBefore_parts {tail : List Char} (n : IntegerLiteral)
    (htail : n.suffix = none → n.parts.EndsBefore tail) :
    n.parts.EndsBefore (n.suffix.toList ++ tail) := by
  cases hsuffix : n.suffix with
  | none => exact htail hsuffix
  | some letter =>
    refine DecimalLiteral.endsBefore_suffix ?_ tail
    rcases n.long letter hsuffix with rfl | rfl <;> decide

/-- A literal in range, with nothing behind it, is read as what it spells. -/
theorem scanNumber_ok (h : n.InRange) :
    ∃ v, n.Means v ∧ scanNumber n.chars = .ok (n.chars, v, []) := by
  -- a hexadecimal literal is scanned by itself, and the others as decimal literals are
  by_cases hradix : ∃ mark, n.radix = .hex mark
  · obtain ⟨mark, hradix⟩ := hradix
    have hne : n.digits ≠ [] := by simpa [WellDigited, hradix] using h.1
    obtain ⟨v, hmeans, hv⟩ := ofHexDigits_ok hradix h
    refine ⟨v, hmeans, ?_⟩
    simpa using scanNumber_hex_ok hradix endsBefore_nil hne nofun hv
  · rw [not_exists] at hradix
    obtain ⟨v, hmeans, hv⟩ := value_parts_ok hradix h
    refine ⟨v, hmeans, ?_⟩
    have hscan := DecimalLiteral.scanNumber_ok (proper_parts hradix)
      (n.endsBefore_parts fun _ => DecimalLiteral.endsBefore_nil) (n.takeIf_suffix nofun) nofun hv
    rwa [← chars_parts, spelling_parts, List.append_nil] at hscan

/-- A literal out of range is refused. -/
theorem scanNumber_error (h : ¬n.InRange) : ∃ fault, scanNumber n.chars = .error fault := by
  -- out of range by its digits, or by the number they spell
  by_cases hradix : ∃ mark, n.radix = .hex mark
  · obtain ⟨mark, hradix⟩ := hradix
    have hfault : ∃ fault, scanNumber (n.chars ++ []) = .error fault := by
      refine scanNumber_hex_error hradix nofun ?_
      by_cases hnil : n.digits = []
      · exact .inl hnil
      · have hdigits : n.WellDigited := by simpa [WellDigited, hradix] using hnil
        exact .inr (.inr (ofHexDigits_error hradix fun hrange => h ⟨hdigits, hrange⟩))
    rwa [List.append_nil] at hfault
  · rw [not_exists] at hradix
    obtain ⟨reason, hreason⟩ := value_parts_error hradix h
    have hfault := DecimalLiteral.scanNumber_no_value (proper_parts hradix)
      (n.endsBefore_parts fun _ => DecimalLiteral.endsBefore_nil) (n.takeIf_suffix nofun) hreason
    rwa [← chars_parts, List.append_nil] at hfault

end IntegerLiteral

/-! ### All literals -/

/-- A decimal literal begins with a digit. -/
theorem DecimalLiteral.exists_spelling {n : DecimalLiteral} (hn : n.Proper) :
    ∃ c cs, n.spelling = c :: cs ∧ c.isDigit = true := by
  obtain ⟨c, cs, hwhole⟩ := List.exists_cons_of_ne_nil hn.whole.1
  exact ⟨c, _, by rw [spelling_eq, hwhole]; rfl, hn.whole.2 c (by rw [hwhole]; simp)⟩

/-- The character is no part of a decimal literal with the rest of the text behind it. -/
def DecimalLiteral.Leaves (n : DecimalLiteral) (suffix : Option Char) (c : Char)
    (rest : List Char) : Prop :=
  suffix = none →
    isSuffix c = false ∧ (n.exponent = none → exponentMark (c :: rest) = []) ∧
      (n.spelling = ['0'] → c ≠ 'x' ∧ c ≠ 'X')

/-- A decimal literal that is refused is refused wherever the scanner gets to it. -/
theorem DecimalLiteral.refuses {n : DecimalLiteral} (hn : n.Proper) {tail : List Char}
    (h : ∃ fault, scanNumber (n.spelling ++ tail) = .error fault) :
    RefusesNumber (n.spelling ++ tail) := by
  obtain ⟨fault, hfault⟩ := h
  obtain ⟨c, cs, hspelling, hc⟩ := exists_spelling hn
  rw [hspelling] at hfault ⊢
  exact refusesNumber_of_error hc hfault

/-- The suffix of a long goes with neither a fraction nor an exponent, that of a float with no
exponent. -/
theorem DecimalLiteral.value_no_suffix {n : DecimalLiteral} {suffix : Char}
    (h : (suffix = 'L' ∨ suffix = 'l') ∧ (n.fraction ≠ none ∨ n.exponent ≠ none) ∨
      (suffix = 'F' ∨ suffix = 'f') ∧ n.exponent ≠ none) :
    isSuffix suffix = true ∧ ∃ reason, n.value (some suffix) = .error reason := by
  obtain ⟨whole, fraction, exponent⟩ := n
  -- the suffix of a long first, that of a float behind
  rcases h with ⟨rfl | rfl, hpart⟩ | ⟨rfl | rfl, hexponent⟩
  · refine ⟨by decide, ?_⟩
    cases exponent with
    | some e => exact ⟨_, rfl⟩
    | none =>
      cases fraction with
      | some digits => exact ⟨_, rfl⟩
      | none => simp at hpart
  · refine ⟨by decide, ?_⟩
    cases exponent with
    | some e => exact ⟨_, rfl⟩
    | none =>
      cases fraction with
      | some digits => exact ⟨_, rfl⟩
      | none => simp at hpart
  · obtain ⟨e, rfl⟩ := Option.ne_none_iff_exists'.1 hexponent
    exact ⟨by decide, _, rfl⟩
  · obtain ⟨e, rfl⟩ := Option.ne_none_iff_exists'.1 hexponent
    exact ⟨by decide, _, rfl⟩

/-- A letter that a literal leaves ends it. -/
theorem DecimalLiteral.Leaves.endsBefore {n : DecimalLiteral} {suffix : Option Char}
    (h : n.Leaves suffix c rest) (hsuffix : ∀ letter ∈ suffix, isSuffix letter = true)
    (hc : isWordStart c = true) :
    n.EndsBefore (suffix.toList ++ c :: rest) ∧
      takeIf isSuffix (suffix.toList ++ c :: rest) = (suffix, c :: rest) := by
  -- a suffix ends the literal by itself, and without one the letter behind has to
  cases suffix with
  | some letter =>
    have hletter := hsuffix letter rfl
    exact ⟨endsBefore_suffix hletter _, by simp [takeIf, hletter]⟩
  | none =>
    obtain ⟨hnone, hexponent, hhex⟩ := h rfl
    -- a digit is alphanumeric too, but no letter that starts a word
    have hdigit : c.isDigit = false := by
      rw [← Bool.not_eq_true]
      intro hdigit
      rw [isWordStart_of_isDigit hdigit] at hc
      exact Bool.false_ne_true hc
    have hpoint : c ≠ '.' := by
      rintro rfl
      revert hc
      decide +kernel
    refine ⟨⟨by rintro _ ⟨⟩; exact hdigit, fun _ _ => ?_, hexponent, fun hzero => ?_⟩, ?_⟩
    · rw [Option.toList_none, List.nil_append, scanFraction]
      rintro d tail ⟨⟩
      exact hpoint rfl
    · rintro _ ⟨⟩
      exact hhex hzero
    · exact takeIf_of_head (by rintro _ ⟨⟩; exact hnone)

/-- **Number literals are read exactly.** An integer literal as a whole text is one token with the
value it spells if it is in range, and refused if not. A fraction or an exponent does not go with
the suffix of a long, nor an exponent with the suffix of a float. A letter, `_` or `$` right behind
a decimal literal makes it none, and so does a letter or `_` behind a hexadecimal one. -/
theorem number_literals_exact :
    (∀ n : IntegerLiteral,
      (n.InRange → ∃ v, n.Means v ∧ ∀ row, scanTokens row n.chars =
        .ok ([⟨.number (String.ofList n.chars) v, row⟩], row)) ∧
      (¬n.InRange → RefusesNumber n.chars)) ∧
    (∀ n : DecimalLiteral, n.Proper → ∀ suffix rest,
      (suffix = 'L' ∨ suffix = 'l') ∧ (n.fraction ≠ none ∨ n.exponent ≠ none) ∨
        (suffix = 'F' ∨ suffix = 'f') ∧ n.exponent ≠ none →
      RefusesNumber (n.spelling ++ suffix :: rest)) ∧
    (∀ n : DecimalLiteral, n.Proper → ∀ suffix : Option Char,
      (∀ letter ∈ suffix, isSuffix letter = true) → ∀ c rest, isWordStart c = true →
      n.Leaves suffix c rest → RefusesNumber (n.spelling ++ suffix.toList ++ c :: rest)) ∧
    ∀ n : IntegerLiteral, ∀ mark, n.radix = .hex mark → ∀ c rest,
      (Text.isAlphabetic c = true ∨ c = '_') → n.EndsBefore (c :: rest) →
      RefusesNumber (n.chars ++ c :: rest) := by
  refine ⟨fun n => ⟨fun h => ?_, fun h => ?_⟩, ?_, ?_, ?_⟩
  · obtain ⟨v, hmeans, hscan⟩ := n.scanNumber_ok h
    refine ⟨v, hmeans, fun row => ?_⟩
    obtain ⟨c, cs, hchars, hc⟩ := n.exists_chars
    rw [hchars] at hscan ⊢
    exact scanTokens_number hc hscan (scanTokens_nil row)
  · obtain ⟨fault, hscan⟩ := n.scanNumber_error h
    obtain ⟨c, cs, hchars, hc⟩ := n.exists_chars
    rw [hchars] at hscan ⊢
    exact refusesNumber_of_error hc hscan
  · intro n hn suffix rest h
    obtain ⟨hsuffix, reason, hreason⟩ := DecimalLiteral.value_no_suffix h
    have htake : takeIf isSuffix (suffix :: rest) = (some suffix, rest) := by
      simp [takeIf, hsuffix]
    exact DecimalLiteral.refuses hn
      (DecimalLiteral.scanNumber_no_value hn (DecimalLiteral.endsBefore_suffix hsuffix rest) htake
        hreason)
  · intro n hn suffix hsuffix c rest hc hleaves
    obtain ⟨hends, htake⟩ := hleaves.endsBefore hsuffix hc
    rw [List.append_assoc]
    exact DecimalLiteral.refuses hn
      (DecimalLiteral.scanNumber_letter hn hends htake (isWordChar_of_isWordStart hc))
  · intro n mark hradix c rest hc hends
    -- every character that may stand in a word, and the point, end the hexadecimal digits
    have hstop : endsHex c = true := by
      rcases hc with hc | rfl
      · simp [endsHex, Text.isAlphanumeric, hc]
      · simp [endsHex]
    obtain ⟨fault, hscan⟩ := IntegerLiteral.scanNumber_hex_error hradix hends
      (.inr (.inl ⟨c, rfl, hstop⟩))
    obtain ⟨d, cs, hchars, hd⟩ := n.exists_chars
    rw [hchars] at hscan ⊢
    exact refusesNumber_of_error hd hscan

/-- The int with all bits set, the first decimal literal out of range, an exponent with the suffix
of a long, and a letter behind a decimal and a hexadecimal literal. -/
theorem number_literals_exact_bounds :
    scanTokens 0 ('0' :: 'x' :: List.replicate 8 'F') =
        .ok ([⟨.number "0xFFFFFFFF" (.int (-1)), 0⟩], 0) ∧
      RefusesNumber ['2', '1', '4', '7', '4', '8', '3', '6', '4', '8'] ∧
      RefusesNumber ['1', 'e', '5', 'L'] ∧ RefusesNumber ['1', '2', 'x'] ∧
      RefusesNumber ['0', 'x', '1', '_'] := by
  obtain ⟨hinteger, hsuffix, hletter, hhex⟩ := number_literals_exact
  refine ⟨?_, ?_, ?_, ?_, ?_⟩
  · obtain ⟨v, hmeans, hscan⟩ := (hinteger ⟨.hex 'x', List.replicate 8 'F', none,
        ⟨.inl rfl, List.all_eq_true.1 rfl⟩, nofun⟩).1
      ⟨by simp [IntegerLiteral.WellDigited], by decide +kernel⟩
    rcases hmeans with ⟨-, i, rfl, hi⟩ | ⟨hnone, -⟩
    · obtain rfl : i = -1 := Int32.toInt_inj.1 (hi.trans (by decide +kernel))
      exact hscan 0
    · exact absurd rfl hnone
  · refine (hinteger ⟨.decimal, ['2', '1', '4', '7', '4', '8', '3', '6', '4', '8'], none,
      ⟨nofun, List.all_eq_true.1 rfl, nofun⟩, nofun⟩).2 ?_
    rintro ⟨-, hrange⟩
    revert hrange
    decide +kernel
  · have hexponent : ['e'] ∈ DecimalLiteral.exponentMarks := by simp [DecimalLiteral.exponentMarks]
    refine hsuffix ⟨['1'], none, some (['e'], ['5'])⟩ ⟨⟨by simp, ?_⟩, nofun, ?_⟩ 'L' []
      (.inl ⟨.inl rfl, .inr nofun⟩)
    · simp
    · rintro _ ⟨⟩
      exact ⟨hexponent, by simp, by simp⟩
  · have hdigits : ∀ c ∈ ['1', '2'], c.isDigit = true := by simp
    exact hletter ⟨['1', '2'], none, none⟩ ⟨⟨by simp, hdigits⟩, nofun, nofun⟩ none nofun 'x' []
      (by decide +kernel) fun _ => ⟨by decide, fun _ => rfl, nofun⟩
  · refine hhex ⟨.hex 'x', ['1'], none, ⟨.inl rfl, by simp [isHexDigit]⟩, nofun⟩ 'x' rfl '_' []
      (.inr rfl) ?_
    rintro _ ⟨⟩
    decide

end Stencil
