import Mathlib
import Stencil.Proofs.Expr.Literals
import Stencil.Proofs.Expr.Spelling

/-!
# Points behind integers

A point right behind a decimal or octal literal is no part of it, unless a digit follows the point:
`..` behind the literal is the mark of a range, and `.` with a word the access to a member. So
`[a..b]` is a range for such an `a`, whatever integer literal `b` is.

The scanner of hexadecimal literals does not look behind the point. It refuses the literal, so no
member of a hexadecimal literal can be accessed and no range begins with one.

Main statements: `scanTokens_integer_point`, `not_scanTokens_integer_range`.
-/

namespace Stencil

variable {row : Nat} {tail : List Char} {v : Value}

/-- What messages say of a hexadecimal literal with a point behind it. -/
def pointBehindHex : String := "unexpected character after hex number"

namespace IntegerLiteral

variable {n : IntegerLiteral}

/-- A literal in hexadecimal digits. -/
def IsHex (n : IntegerLiteral) : Prop := ∃ mark, n.radix = .hex mark

/-- A literal that is one token on its own is read as its value. -/
theorem reads_of_scanTokens {t : Token} {last : Nat}
    (h : scanTokens row n.chars = .ok ([t], last)) :
    n.InRange ∧ ∃ v, scanNumber n.chars = .ok (n.chars, v, []) ∧
      t = ⟨.number (String.ofList n.chars) v, row⟩ := by
  obtain ⟨c, cs, hchars, hc⟩ := n.exists_chars
  -- a literal out of range is refused, so it is no token
  by_cases hrange : n.InRange
  · obtain ⟨v, -, hscan⟩ := n.scanNumber_ok hrange
    refine ⟨hrange, v, hscan, ?_⟩
    have hone : scanTokens row n.chars =
        .ok ([⟨.number (String.ofList n.chars) v, row⟩], row) := by
      rw [hchars] at hscan ⊢
      exact scanTokens_number hc hscan (scanTokens_nil row)
    rw [hone] at h
    obtain ⟨⟨rfl, -⟩, -⟩ := by simpa using h
    rfl
  · obtain ⟨fault, hscan⟩ := n.scanNumber_error hrange
    rw [hchars] at hscan h
    rw [(GetsTo.refl row _).scanTokens_number_error hc hscan] at h
    cases h

/-- What may stand right behind a literal: a closing mark, or a point without a digit. -/
def ClosedBy (tail : List Char) : Prop :=
  ∃ c rest, tail = c :: rest ∧ (c = ']' ∨ c = '.' ∧ ∀ d ∈ rest.head?, d.isDigit = false)

/-- A text that closes a literal begins with nothing that the literal could go on with. -/
theorem ClosedBy.head (h : ClosedBy tail) :
    ∀ c ∈ tail.head?, c.isDigit = false ∧ isSuffix c = false ∧ isWordChar c = false ∧
      c ≠ 'e' ∧ c ≠ 'E' ∧ c ≠ 'x' ∧ c ≠ 'X' := by
  obtain ⟨c, rest, rfl, rfl | ⟨rfl, -⟩⟩ := h <;>
    · rintro _ ⟨⟩
      decide +kernel

/-- Nor with a fraction. -/
theorem ClosedBy.scanFraction (h : ClosedBy tail) :
    DecimalLiteral.scanFraction tail = (none, tail) := by
  obtain ⟨c, rest, rfl, rfl | ⟨rfl, hdigit⟩⟩ := h
  · rfl
  · rcases rest with _ | ⟨d, rest⟩
    · rfl
    · rw [DecimalLiteral.scanFraction, if_neg (by simp [hdigit d rfl])]

/-- A decimal or octal literal is read in front of what closes it as it is on its own. -/
theorem scanNumber_closed (hhex : ¬n.IsHex) (hscan : scanNumber n.chars = .ok (n.chars, v, []))
    (hrange : n.InRange) (htail : ClosedBy tail) :
    scanNumber (n.chars ++ tail) = .ok (n.chars, v, tail) := by
  have hradix : ∀ mark, n.radix ≠ .hex mark := not_exists.1 hhex
  have hends : n.parts.EndsBefore tail :=
    ⟨fun c hc => (htail.head c hc).1, fun _ _ => htail.scanFraction,
      fun _ => exponentMark_of_ne fun c hc =>
        ⟨(htail.head c hc).2.2.2.1, (htail.head c hc).2.2.2.2.1⟩,
      fun _ c hc => (htail.head c hc).2.2.2.2.2⟩
  obtain ⟨v', -, hv⟩ := value_parts_ok hradix hrange
  have hbehind (tail : List Char) (hends : n.suffix = none → n.parts.EndsBefore tail)
      (hnone : n.suffix = none → ∀ c ∈ tail.head?, isSuffix c = false)
      (hword : ∀ c ∈ tail.head?, isWordChar c = false) :
      scanNumber (n.chars ++ tail) = .ok (n.chars, v', tail) := by
    rw [chars_parts, DecimalLiteral.scanNumber_ok (proper_parts hradix) (n.endsBefore_parts hends)
      (n.takeIf_suffix hnone) hword hv, spelling_parts, chars]
  -- On its own the literal has the same value.
  have halone := hbehind [] (fun _ => DecimalLiteral.endsBefore_nil) (by simp) (by simp)
  rw [List.append_nil, hscan] at halone
  obtain rfl : v = v' := by simpa using halone
  exact hbehind tail (fun _ => hends) (fun _ c hc => (htail.head c hc).2.1) fun c hc =>
    (htail.head c hc).2.2.1

/-- A literal in brackets is read as it is on its own. -/
theorem scanNumber_bracket (hscan : scanNumber n.chars = .ok (n.chars, v, []))
    (hrange : n.InRange) (rest : List Char) :
    scanNumber (n.chars ++ ']' :: rest) = .ok (n.chars, v, ']' :: rest) := by
  -- a hexadecimal literal has a mark of its own, so the bracket ends it as the end of the text does
  by_cases hhex : n.IsHex
  · obtain ⟨mark, hradix⟩ := hhex
    have hne : n.digits ≠ [] := by simpa [WellDigited, hradix] using hrange.1
    obtain ⟨v', -, hv⟩ := ofHexDigits_ok hradix hrange
    have halone := scanNumber_hex_ok hradix endsBefore_nil hne (by simp) hv
    rw [List.append_nil, hscan] at halone
    obtain rfl : v = v' := by simpa using halone
    refine scanNumber_hex_ok hradix ?_ hne ?_ hv
    · rintro _ ⟨⟩ -
      decide
    · rintro _ ⟨⟩
      decide +kernel
  · exact scanNumber_closed hhex hscan hrange ⟨']', rest, rfl, .inl rfl⟩

/-- A hexadecimal literal is refused for a point behind it. -/
theorem scanNumber_hex_point (hhex : n.IsHex) (hrange : n.InRange) (rest : List Char) :
    scanNumber (n.chars ++ '.' :: rest) =
      .error (badNumber n.chars pointBehindHex) := by
  obtain ⟨mark, hradix⟩ := hhex
  have hne : n.digits.isEmpty = false := by simpa [WellDigited, hradix] using hrange.1
  have hends : n.EndsBefore ('.' :: rest) := by
    rintro _ ⟨⟩ -
    decide
  have hstop : takeIf endsHex ('.' :: rest) = (some '.', rest) := by simp [takeIf, endsHex]
  obtain ⟨hscan, htake, hdrop, hsuffix⟩ := scan_hex hradix hends
  rw [hscan, scanHex]
  simp only [htake, hdrop, hsuffix, hne, Bool.false_eq_true, if_false, hstop]
  rw [chars, hradix]
  rfl

end IntegerLiteral

variable {a : IntegerLiteral} {t : Token} {last : Nat}

/-- The tokens of a literal and of what is behind it. -/
theorem scanTokens_integer {ts : List Token}
    (hscan : scanNumber (a.chars ++ tail) = .ok (a.chars, v, tail))
    (hrest : scanTokens row tail = .ok (ts, last)) :
    scanTokens row (a.chars ++ tail) =
      .ok (⟨.number (String.ofList a.chars) v, row⟩ :: ts, last) := by
  obtain ⟨c, cs, hchars, hc⟩ := a.exists_chars
  rw [hchars] at hscan ⊢
  exact scanTokens_number hc hscan hrest

/-- Two points are one token. -/
theorem scanTokens_range {rest : List Char} {ts : List Token}
    (hrest : scanTokens row rest = .ok (ts, last)) :
    scanTokens row ('.' :: '.' :: rest) = .ok (⟨.punct .range, row⟩ :: ts, last) :=
  scanTokens_cons (isBlank_of_visible (by decide)) rfl hrest

/-- A word is one token. -/
theorem scanTokens_word {c : Char} {cs : List Char} (hc : isWordStart c = true)
    (hcs : ∀ d ∈ cs, isWordChar d = true) (row : Nat) :
    scanTokens row (c :: cs) = .ok ([⟨.ofWord (String.ofList (c :: cs)), row⟩], row) := by
  have hrun : IsRun isWordChar cs [] := ⟨hcs, by simp⟩
  obtain ⟨htake, hdrop⟩ := hrun.span
  rw [List.append_nil] at htake hdrop
  have hlexeme : scanLexeme c cs = .ok (.ofWord (String.ofList (c :: cs)), [], 0) := by
    rw [scanLexeme, if_pos hc, htake, hdrop]
  exact scanTokens_cons (isBlank_of_isWordStart hc) hlexeme (scanTokens_nil row)

/-- A point in front of a word is a token, and the word is the next. -/
theorem scanTokens_dot {c : Char} {cs : List Char} {ts : List Token} (hc : isWordStart c = true)
    (hrest : scanTokens row (c :: cs) = .ok (ts, last)) :
    scanTokens row ('.' :: c :: cs) = .ok (⟨.punct .dot, row⟩ :: ts, last) := by
  have hpoint : c ≠ '.' := by
    rintro rfl
    revert hc
    decide +kernel
  -- The only longer mark that begins with a point is that of a range.
  have hrange : ∀ entry ∈ doubleMarks, entry.1.1 = '.' → entry.1.2 = '.' := by decide
  have hlexeme : scanLexeme '.' (c :: cs) = .ok (.punct .dot, c :: cs, 0) := by
    refine scanLexeme_mark (by decide +kernel) (by decide) (by decide) rfl ?_
    intro entry hentry hfirst
    rw [hrange entry hentry hfirst]
    exact fun h => hpoint (Option.some.inj h)
  exact scanTokens_cons (isBlank_of_visible (by decide)) hlexeme hrest

/-- The text of a range from one literal to another. -/
def rangeText (a b : IntegerLiteral) : String :=
  String.ofList ('[' :: (a.chars ++ '.' :: '.' :: (b.chars ++ [']'])))

/-- The tokens of a range between brackets. -/
theorem scanTokens_rangeText {b : IntegerLiteral} {v' : Value}
    (hscan : scanNumber (a.chars ++ '.' :: '.' :: (b.chars ++ [']'])) =
      .ok (a.chars, v, '.' :: '.' :: (b.chars ++ [']'])))
    (hscan' : scanNumber (b.chars ++ [']']) = .ok (b.chars, v', [']'])) (row : Nat) :
    scanTokens row (rangeText a b).toList =
      .ok (⟨.punct .lbracket, row⟩ :: ([⟨.number (String.ofList a.chars) v, row⟩] ++
        ⟨.punct .range, row⟩ :: ([⟨.number (String.ofList b.chars) v', row⟩] ++
          [⟨.punct .rbracket, row⟩])), row) := by
  have hclose : scanTokens row [']'] = .ok ([⟨.punct .rbracket, row⟩], row) :=
    scanTokens_cons (isBlank_of_visible (by decide)) rfl (scanTokens_nil row)
  have hinner := scanTokens_integer hscan (scanTokens_range (scanTokens_integer hscan' hclose))
  obtain ⟨c, cs, hchars, -⟩ := a.exists_chars
  rw [rangeText, String.toList_ofList]
  rw [hchars, List.cons_append] at hinner ⊢
  exact scanTokens_cons (isBlank_of_visible (by decide)) rfl hinner

/-- **Points behind integers.** Take an integer literal that is one token on its own. If it is not
hexadecimal, then with `..` and any text of tokens behind it, it is this token, the mark of a range
and the tokens of the text; with `.` and a word behind it, it is this token, the mark of a member
and the word; and between brackets, with `..` and another such literal behind it, it is a range from
the one value to the other. If it is hexadecimal, then it is refused for a point behind it wherever
the scanner gets to it, and no range begins with it. -/
theorem scanTokens_integer_point (ha : scanTokens row a.chars = .ok ([t], last)) :
    (¬a.IsHex →
      (∀ rest ts last', scanTokens row rest = .ok (ts, last') →
        scanTokens row (a.chars ++ '.' :: '.' :: rest) =
          .ok (t :: ⟨.punct .range, row⟩ :: ts, last')) ∧
      (∀ c cs, isWordStart c = true → (∀ d ∈ cs, isWordChar d = true) →
        scanTokens row (a.chars ++ '.' :: c :: cs) =
          .ok ([t, ⟨.punct .dot, row⟩, ⟨.ofWord (String.ofList (c :: cs)), row⟩], row)) ∧
      ∀ (b : IntegerLiteral) (u : Token) last', scanTokens row b.chars = .ok ([u], last') →
        ∃ spelling spelling' v v', t.lexeme = .number spelling v ∧ u.lexeme = .number spelling' v' ∧
          ∀ file, parseExprs file row (rangeText a b) =
            .ok [.range (.const v) (.const v') ⟨file, row⟩]) ∧
    (a.IsHex →
      (∀ row row' whole rest, GetsTo row whole row' (a.chars ++ '.' :: rest) →
        scanTokens row whole = .error (badNumber a.chars pointBehindHex, row')) ∧
      ∀ b file, parseExprs file row (rangeText a b) =
        .error ⟨badNumber a.chars pointBehindHex, ⟨file, row⟩⟩) := by
  obtain ⟨hrange, v, hscan, rfl⟩ := a.reads_of_scanTokens ha
  -- what is not hexadecimal ends at the points, and a hexadecimal literal refuses them
  refine ⟨fun hhex => ⟨fun rest ts last' hrest => ?_, fun c cs hc hcs => ?_, ?_⟩, ?_⟩
  · have hclosed : IntegerLiteral.ClosedBy ('.' :: '.' :: rest) :=
      ⟨'.', _, rfl, .inr ⟨rfl, by rintro _ ⟨⟩; decide⟩⟩
    exact scanTokens_integer (IntegerLiteral.scanNumber_closed hhex hscan hrange hclosed)
      (scanTokens_range hrest)
  -- a word does not begin with a digit, so the point is no fraction
  · have hdigit : c.isDigit = false := by
      rw [← Bool.not_eq_true]
      intro hdigit
      rw [isWordStart_of_isDigit hdigit] at hc
      exact Bool.false_ne_true hc
    have hclosed : IntegerLiteral.ClosedBy ('.' :: c :: cs) :=
      ⟨'.', _, rfl, .inr ⟨rfl, by rintro _ ⟨⟩; exact hdigit⟩⟩
    exact scanTokens_integer (IntegerLiteral.scanNumber_closed hhex hscan hrange hclosed)
      (scanTokens_dot hc (scanTokens_word hc hcs row))
  · intro b u last' hb
    obtain ⟨hrange', v', hscan', rfl⟩ := b.reads_of_scanTokens hb
    refine ⟨_, _, v, v', rfl, rfl, fun file => ?_⟩
    have hclosed : IntegerLiteral.ClosedBy ('.' :: '.' :: (b.chars ++ [']'])) :=
      ⟨'.', _, rfl, .inr ⟨rfl, by rintro _ ⟨⟩; decide⟩⟩
    have hscans := scanTokens_rangeText (IntegerLiteral.scanNumber_closed hhex hscan hrange hclosed)
      (IntegerLiteral.scanNumber_bracket hscan' hrange' []) row
    have hnumber (spelling : String) (v : Value) :
        Spells file (.expr .assignment (.const v)) [⟨.number spelling v, row⟩] :=
      (Spells.number spelling v row).loosen_to (show Level.primary.Proper from trivial)
        (show Level.assignment.Proper from trivial) (by decide)
    exact parseExprs_of_spells_at (show Level.primary.Proper from trivial) hscans
      (.range row row row (hnumber _ v) (hnumber _ v'))
  · intro hhex
    -- all three texts have a point right behind the literal, so one argument serves them
    have hrefused (row row' : Nat) (whole rest : List Char)
        (hgets : GetsTo row whole row' (a.chars ++ '.' :: rest)) :
        scanTokens row whole = .error (badNumber a.chars pointBehindHex, row') := by
      have hfault := IntegerLiteral.scanNumber_hex_point hhex hrange rest
      obtain ⟨c, cs, hchars, hc⟩ := a.exists_chars
      rw [hchars] at hgets hfault ⊢
      exact hgets.scanTokens_number_error hc hfault
    refine ⟨hrefused, fun b file => ?_⟩
    have hscans : scanTokens row (rangeText a b).toList =
        .error (badNumber a.chars pointBehindHex, row) := by
      rw [rangeText, String.toList_ofList]
      refine hrefused row row _ ('.' :: (b.chars ++ [']'])) ?_
      obtain ⟨c, cs, hchars, -⟩ := a.exists_chars
      rw [hchars]
      exact .next (isBlank_of_visible (by decide)) rfl (.refl row _)
    rw [parseExprs, parseWith, hscans]

/-- The literal `0x1`. -/
def hexOne : IntegerLiteral :=
  ⟨.hex 'x', ['1'], none, ⟨.inl rfl, by simp [isHexDigit]⟩, nofun⟩

theorem scanTokens_hexOne : scanTokens 1 hexOne.chars = .ok ([⟨.number "0x1" (.int 1), 1⟩], 1) :=
  scanTokens_cons (isBlank_of_visible (by decide)) rfl (scanTokens_nil 1)

/-- A long in octal digits begins a range, and `0x1` begins none. -/
theorem scanTokens_integer_point_octal :
    let octal : IntegerLiteral := ⟨.octal, ['7'], some 'L', ⟨by simp, by simp⟩, by simp⟩
    parseExprs none 1 (rangeText octal hexOne) =
        .ok [.range (.const (.long 7)) (.const (.int 1)) ⟨none, 1⟩] ∧
      parseExprs none 1 (rangeText hexOne octal) =
        .error ⟨badNumber hexOne.chars pointBehindHex, ⟨none, 1⟩⟩ := by
  intro octal
  have hoctal : scanTokens 1 octal.chars = .ok ([⟨.number "07L" (.long 7), 1⟩], 1) :=
    scanTokens_cons (isBlank_of_visible (by decide)) rfl (scanTokens_nil 1)
  refine ⟨?_, ((scanTokens_integer_point scanTokens_hexOne).2 ⟨'x', rfl⟩).2 octal none⟩
  obtain ⟨-, -, hrange⟩ := (scanTokens_integer_point hoctal).1 (by rintro ⟨mark, ⟨⟩⟩)
  obtain ⟨spelling, spelling', v, v', ⟨⟩, ⟨⟩, hparse⟩ := hrange hexOne _ 1 scanTokens_hexOne
  exact hparse none

/-- Not every integer literal has the mark of a range behind it. -/
theorem not_scanTokens_integer_range :
    ¬ ∀ (n : IntegerLiteral) (row last last' : Nat) (t : Token) (rest : List Char)
        (ts : List Token),
      scanTokens row n.chars = .ok ([t], last) → scanTokens row rest = .ok (ts, last') →
        scanTokens row (n.chars ++ '.' :: '.' :: rest) =
          .ok (t :: ⟨.punct .range, row⟩ :: ts, last') := by
  intro hall
  have hthree : scanTokens 1 ['3'] = .ok ([⟨.number "3" (.int 3), 1⟩], 1) :=
    scanTokens_cons (isBlank_of_visible (by decide)) rfl (scanTokens_nil 1)
  have hok := hall hexOne 1 1 1 _ _ _ scanTokens_hexOne hthree
  have hrange : hexOne.InRange :=
    ⟨by simp [hexOne, IntegerLiteral.WellDigited], by decide +kernel⟩
  have hfault := IntegerLiteral.scanNumber_hex_point ⟨'x', rfl⟩ hrange ['.', '3']
  have herror : scanTokens 1 (hexOne.chars ++ ['.', '.', '3']) = .error _ :=
    (GetsTo.refl 1 _).scanTokens_number_error (by decide) hfault
  rw [hok] at herror
  cases herror

end Stencil
