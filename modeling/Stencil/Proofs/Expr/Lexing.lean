import Mathlib
import Stencil.Assoc
import Stencil.Expr.Scan
import Stencil.Proofs.Text.Search

/-!
# Scanning spelled tokens

`Lexeme.chars` writes a token as characters: a string between double quotes, everything else as it
is. Tokens written with one space between them are scanned as these tokens
(`scanTokens_spaced`), if each of them is scanned on its own (`Lexeme.Scans`): what is scanned
must not depend on what comes behind the space.

Names, keywords, strings and marks scan so, and so do the decimal literals of the integers that
fit their width, and the hexadecimal ones of the smallest integers.
-/

namespace Stencil

/-! ### Characters of tokens -/

/-- A character inside double quotes. -/
def quotedChar (c : Char) : List Char := if c = '\x22' ∨ c = '\\' then ['\\', c] else [c]

/-- The characters of a token. -/
def Lexeme.chars : Lexeme → List Char
  | .name word => word.toList
  | .keyword k => k.spelling.toList
  | .text content => '\x22' :: (content.toList.flatMap quotedChar ++ ['\x22'])
  | .number spelling _ => spelling.toList
  | .punct mark => mark.spelling.toList

/-- The characters of tokens, with a space between two tokens. -/
def spaced (lexemes : List Lexeme) : List Char := [' '].intercalate (lexemes.map Lexeme.chars)

/-- What may stand behind a token: nothing, or a space. -/
def EndsToken (rest : List Char) : Prop := ∀ c ∈ rest.head?, c = ' '

/-- A token ends at the end of the text or at a space. -/
theorem EndsToken.cases {rest : List Char} (h : EndsToken rest) :
    rest = [] ∨ ∃ more, rest = ' ' :: more := by
  rcases rest with _ | ⟨c, more⟩
  · exact .inl rfl
  · obtain rfl : c = ' ' := h c rfl
    exact .inr ⟨more, rfl⟩

/-- A token is scanned from its characters, whatever stands behind a space after them. -/
def Lexeme.Scans (lexeme : Lexeme) : Prop :=
  ∃ c cs, lexeme.chars = c :: cs ∧ Text.isBlank c = false ∧
    ∀ rest, EndsToken rest → ∃ rows, scanLexeme c (cs ++ rest) = .ok (lexeme, rest, rows)

/-! ### Blanks -/

/-- A code point lies in one of two tables at most if no two of their ranges meet. -/
theorem not_inRanges_of_disjoint {a b : Array (Nat × Nat)} {code : Nat}
    (h : (a.toList.all fun r => b.toList.all fun s => Nat.blt r.2 s.1 || Nat.blt s.2 r.1) = true)
    (ha : Text.inRanges a code = true) : Text.inRanges b code = false := by
  rw [← Bool.not_eq_true]
  intro hb
  rw [Text.inRanges, ← Array.any_toList, List.any_eq_true] at ha hb
  obtain ⟨r, hr, hcode⟩ := ha
  obtain ⟨s, hs, hcode'⟩ := hb
  have hrs := List.all_eq_true.1 (List.all_eq_true.1 h r hr) s hs
  simp only [Nat.blt_eq, Bool.or_eq_true, Bool.and_eq_true, decide_eq_true_eq] at hrs hcode hcode'
  omega

/-- The visible characters of ASCII are no blanks. -/
theorem isBlank_of_visible {c : Char} (h : 0x20 < c.toNat ∧ c.toNat < 0x7F) :
    Text.isBlank c = false := by
  rw [← Bool.not_eq_true, Text.isBlank, Text.inRanges, ← Array.any_toList]
  simp only [Text.blankRanges, List.any_cons, List.any_nil, Bool.or_eq_true, Bool.and_eq_true,
    decide_eq_true_eq, Bool.false_eq_true, or_false]
  omega

/-- No letter is a blank. -/
theorem isBlank_of_isAlphabetic {c : Char} (h : Text.isAlphabetic c = true) :
    Text.isBlank c = false := by
  rw [Text.isAlphabetic] at h
  -- a letter below 128 lies in one of two ranges, and all others in ranges without blanks
  split at h
  · refine isBlank_of_visible ?_
    simp only [Char.isAlpha, Char.isUpper, Char.isLower, Bool.or_eq_true, Bool.and_eq_true,
      decide_eq_true_eq, ge_iff_le, UInt32.le_iff_toNat_le] at h
    change (65 ≤ c.toNat ∧ c.toNat ≤ 90) ∨ (97 ≤ c.toNat ∧ c.toNat ≤ 122) at h
    omega
  · have hdisjoint : (Text.blankRanges.toList.all fun r => Text.alphabeticRanges.toList.all fun s =>
        Nat.blt r.2 s.1 || Nat.blt s.2 r.1) = true := by
      decide +kernel
    rw [← Bool.not_eq_true]
    intro hblank
    rw [not_inRanges_of_disjoint hdisjoint hblank] at h
    exact Bool.false_ne_true h

/-- A space ends every word and every number. -/
theorem EndsToken.head {rest : List Char} (h : EndsToken rest) (p : Char → Bool)
    (hp : p ' ' = false) : ∀ c ∈ rest.head?, p c = false := by
  intro c hc
  rw [h c hc, hp]

/-! ### Words -/

/-- What begins a word is no blank. -/
theorem isBlank_of_isWordStart {c : Char} (h : isWordStart c = true) : Text.isBlank c = false := by
  simp only [isWordStart, Bool.or_eq_true, beq_iff_eq] at h
  rcases h with (h | rfl) | rfl
  · exact isBlank_of_isAlphabetic h
  · exact isBlank_of_visible (by decide)
  · exact isBlank_of_visible (by decide)

/-- A word is scanned on its own. -/
theorem scans_word {c : Char} {cs : List Char} {lexeme : Lexeme} (hc : isWordStart c = true)
    (hcs : cs.all isWordChar = true) (hchars : lexeme.chars = c :: cs)
    (hword : Lexeme.ofWord (String.ofList (c :: cs)) = lexeme) : lexeme.Scans := by
  refine ⟨c, cs, hchars, isBlank_of_isWordStart hc, fun rest hrest => ⟨0, ?_⟩⟩
  have hrun : IsRun isWordChar cs rest :=
    ⟨List.all_eq_true.1 hcs, hrest.head isWordChar (by decide)⟩
  rw [scanLexeme, if_pos hc, hrun.takeWhile, hrun.dropWhile, hword]

/-- So is a keyword. -/
theorem scans_keyword (k : Keyword) : (Lexeme.keyword k).Scans := by
  cases k with
  | true =>
    have hchars : (Lexeme.keyword .true).chars = ['t', 'r', 'u', 'e'] := by decide
    exact scans_word (by decide) (by decide) hchars rfl
  | false =>
    have hchars : (Lexeme.keyword .false).chars = ['f', 'a', 'l', 's', 'e'] := by decide
    exact scans_word (by decide) (by decide) hchars rfl
  | null =>
    have hchars : (Lexeme.keyword .null).chars = ['n', 'u', 'l', 'l'] := by decide
    exact scans_word (by decide) (by decide) hchars rfl

/-! ### Marks -/

/-- So is a mark. -/
theorem scans_punct (mark : Punct) : (Lexeme.punct mark).Scans := by
  cases mark <;>
    refine ⟨_, _, rfl, isBlank_of_visible (by decide), fun rest hrest => ⟨0, ?_⟩⟩ <;>
    rcases hrest.cases with rfl | ⟨more, rfl⟩ <;> rfl

/-- A mark of one character is scanned as it is where it is not the front of a longer one. -/
theorem scanLexeme_mark {c : Char} {cs : List Char} {mark : Punct} (hword : isWordStart c = false)
    (hdigit : c.isDigit = false) (hquote : ¬ (c = '\x22' ∨ c = '\x27'))
    (hmark : singleMarks.lookup c = some mark)
    (hdouble : ∀ entry ∈ doubleMarks, entry.1.1 = c → cs.head? ≠ some entry.1.2) :
    scanLexeme c cs = .ok (.punct mark, cs, 0) := by
  have hsingle : (cs.head?.bind fun d => doubleMarks.lookup (c, d)) = none := by
    refine Option.eq_none_iff_forall_ne_some.2 fun mark' hlonger => ?_
    obtain ⟨d, hd, hlookup⟩ := Option.bind_eq_some_iff.1 hlonger
    exact hdouble _ (mem_of_lookup hlookup) rfl hd
  have hpunct : scanPunct c cs = some (mark, cs) := by
    rw [scanPunct, hsingle, hmark]
    rfl
  rw [scanLexeme, if_neg (by simp [hword]), if_neg (by simp [hdigit]), if_neg hquote, hpunct]

/-! ### Strings -/

/-- A closing quote ends a string. -/
theorem scanString_close (quote : Char) (rest : List Char) :
    scanString quote (quote :: rest) = .ok ([], rest, 0) := by
  rw [scanString.eq_def]
  exact if_pos rfl

/-- A character that is neither the quote nor a backslash stands for itself. -/
theorem scanString_plain {quote c : Char} {cs content rest : List Char} {rows : Nat}
    (hq : c ≠ quote) (hs : c ≠ '\\') (h : scanString quote cs = .ok (content, rest, rows)) :
    scanString quote (c :: cs) =
      .ok (c :: content, rest, rows + if c = '\n' then 1 else 0) := by
  rw [scanString.eq_def]
  simp only [hq, hs, if_false, h]

/-- A character inside two quotes `q`. -/
def quotedIn (q c : Char) : List Char := if c = q ∨ c = '\\' then ['\\', c] else [c]

/-- A text between quotes is scanned as it was before the backslashes. -/
theorem scanString_quotedIn {q : Char} (hq : q = '\x22' ∨ q = '\x27') (content rest : List Char) :
    ∃ rows, scanString q (content.flatMap (quotedIn q) ++ q :: rest) =
      .ok (content, rest, rows) := by
  have hslash : '\\' ≠ q := by rcases hq with rfl | rfl <;> decide
  -- by induction on the text: an escaped character takes two steps of the scanner, any other one
  induction content with
  | nil => exact ⟨0, scanString_close q rest⟩
  | cons c content ih =>
    obtain ⟨rows, ih⟩ := ih
    rw [List.flatMap_cons, quotedIn, List.append_assoc]
    by_cases hescaped : c = q ∨ c = '\\'
    · have hchar : escapedChar? c = some c := by
        rcases hescaped with rfl | rfl
        · rcases hq with rfl | rfl <;> rfl
        · rfl
      refine ⟨rows, ?_⟩
      rw [if_pos hescaped, List.cons_append, List.singleton_append, scanString.eq_def]
      simp only [if_neg hslash, if_true, hchar, ih]
    · rw [if_neg hescaped, List.singleton_append]
      exact ⟨_, scanString_plain (not_or.1 hescaped).1 (not_or.1 hescaped).2 ih⟩

theorem scanString_quoted (content rest : List Char) :
    ∃ rows, scanString '\x22' (content.flatMap quotedChar ++ '\x22' :: rest) =
      .ok (content, rest, rows) := scanString_quotedIn (.inl rfl) content rest

/-- A string literal is scanned on its own. -/
theorem scans_text (content : String) : (Lexeme.text content).Scans := by
  refine ⟨'\x22', _, rfl, isBlank_of_visible (by decide), fun rest _ => ?_⟩
  obtain ⟨rows, hscan⟩ := scanString_quoted content.toList rest
  refine ⟨rows, ?_⟩
  rw [List.append_assoc, List.singleton_append, scanLexeme, if_neg (by decide), if_neg (by decide),
    if_pos (.inl rfl), hscan]
  simp

/-! ### Numbers -/

theorem hexValue_digitChar {d : Nat} (h : d < 10) : hexValue (Nat.digitChar d) = d := by
  match d, h with
  | 0, _ | 1, _ | 2, _ | 3, _ | 4, _ | 5, _ | 6, _ | 7, _ | 8, _ | 9, _ => decide

/-- Another digit multiplies the value by the base, and adds its own. -/
theorem valueIn_concat (base : Nat) (cs : List Char) (c : Char) :
    valueIn base (cs ++ [c]) = valueIn base cs * base + hexValue c := by
  simp [valueIn]

/-- The decimal digits of a number read back as the number. -/
theorem valueIn_digits (n : Nat) : valueIn 10 (Decimal.digits n) = n := by
  induction n using Nat.strongRecOn with
  | _ n ih =>
    -- A number has one digit, or its last digit follows those of its tenth part.
    by_cases h : n < 10
    · rw [Decimal.digits_of_lt h]
      simpa [valueIn] using hexValue_digitChar h
    · have hlast : n % 10 < 10 := Nat.mod_lt n (by decide)
      rw [Decimal.digits_of_le (Nat.not_lt.1 h), valueIn_concat, ih (n / 10) (by omega),
        hexValue_digitChar hlast]
      omega

/-- Nothing else than an `e` is the mark of an exponent. -/
theorem exponentMark_of_ne {rest : List Char} (h : ∀ c ∈ rest.head?, c ≠ 'e' ∧ c ≠ 'E') :
    DecimalLiteral.exponentMark rest = [] := by
  rcases rest with _ | ⟨e, _ | ⟨s, _ | ⟨d, rest⟩⟩⟩
  · rfl
  · rfl
  · simp [DecimalLiteral.exponentMark, h e rfl]
  · simp [DecimalLiteral.exponentMark, h e rfl]

/-- Digits with neither a fraction nor an exponent behind them. -/
theorem scan_digits {whole rest : List Char} (hw : ∀ c ∈ whole, c.isDigit = true)
    (hrest : ∀ c ∈ rest.head?, c.isDigit = false ∧ c ≠ '.' ∧ c ≠ 'e' ∧ c ≠ 'E') :
    DecimalLiteral.scan (whole ++ rest) = (⟨whole, none, none⟩, rest) := by
  have hrun : IsRun Char.isDigit whole rest := ⟨hw, fun c hc => (hrest c hc).1⟩
  have hfraction : DecimalLiteral.scanFraction rest = (none, rest) := by
    -- a point would be the start of a fraction
    rcases rest with _ | ⟨c, rest⟩
    · rfl
    · rw [DecimalLiteral.scanFraction]
      rintro d tail ⟨⟩
      exact (hrest _ rfl).2.1 rfl
  have hexponent : DecimalLiteral.scanExponent rest = (none, rest) := by
    rw [DecimalLiteral.scanExponent, exponentMark_of_ne fun c hc => (hrest c hc).2.2]
  simp only [DecimalLiteral.scan, hrun.takeWhile, hrun.dropWhile, hfraction, hexponent]

/-- The value of the digits of a number that is small enough to be read. -/
theorem integral_digits {n : Nat} (h : n < readLimit) :
    integral (Decimal.digits n) = .ok n := by
  obtain ⟨c, cs, hcs, hzero⟩ := Decimal.exists_digits n
  have hten : integral (Decimal.digits n) =
      if valueIn 10 (Decimal.digits n) < readLimit then .ok (valueIn 10 (Decimal.digits n))
      else .error "invalid digits" := by
    rw [hcs, integral]
    rintro d rest ⟨⟩
    simp at hzero
  rw [hten, valueIn_digits, if_pos h]

/-- A character of another kind is not taken. -/
theorem takeIf_of_head {p : Char → Bool} {rest : List Char} (h : ∀ c ∈ rest.head?, p c = false) :
    takeIf p rest = (none, rest) := by
  rcases rest with _ | ⟨c, rest⟩
  · rfl
  · simp [takeIf, h c rfl]

/-- Decimal digits are the beginning of a decimal literal. -/
theorem scanNumber_digits {n : Nat} {rest : List Char}
    (hrest : ∀ c ∈ rest.head?, c ≠ 'x' ∧ c ≠ 'X') :
    scanNumber (Decimal.digits n ++ rest) = scanDecimal (Decimal.digits n ++ rest) := by
  obtain ⟨c, cs, hcs, hzero⟩ := Decimal.exists_digits n
  rw [hcs, List.cons_append, scanNumber.eq_def]
  split
  -- a zero in front could begin a hexadecimal literal, but for what follows it
  · rename_i x tail heq
    obtain ⟨rfl, htail⟩ := List.cons_eq_cons.1 heq
    rw [hzero rfl, List.nil_append] at htail
    have hx := hrest x (by rw [htail]; rfl)
    rw [if_neg (by simp [hx])]
    exact congrArg scanDecimal heq.symm
  · rfl

/-- A decimal integer with a suffix or without one, behind which the token ends. -/
theorem scanDecimal_digits {n : Nat} {suffix : Option Char} {rest : List Char} {v : Value}
    (hsuffix : suffix = none ∨ suffix = some 'L') (hrest : EndsToken rest)
    (hv : (DecimalLiteral.value ⟨Decimal.digits n, none, none⟩ suffix) = .ok v) :
    scanNumber (Decimal.digits n ++ (suffix.toList ++ rest)) =
      .ok (Decimal.digits n ++ suffix.toList, v, rest) := by
  -- digits, fraction and exponent all end at the suffix, or at the space behind it
  have hhead : ∀ c ∈ (suffix.toList ++ rest).head?, c = 'L' ∨ c = ' ' := by
    rcases hsuffix with rfl | rfl
    · exact fun c hc => .inr (hrest c hc)
    · rintro c ⟨⟩
      exact .inl rfl
  have htake : takeIf isSuffix (suffix.toList ++ rest) = (suffix, rest) := by
    rcases hsuffix with rfl | rfl
    · exact takeIf_of_head (hrest.head isSuffix (by decide))
    · rfl
  rw [scanNumber_digits fun c hc => by rcases hhead c hc with rfl | rfl <;> decide, scanDecimal,
    scan_digits (fun _ => Decimal.isDigit_of_mem_digits) fun c hc => by
      rcases hhead c hc with rfl | rfl <;> decide]
  simp only [htake, takeIf_of_head (hrest.head isWordChar (by decide)), hv,
    DecimalLiteral.spelling, List.append_nil]

/-- A digit is one of ten characters. -/
theorem toNat_of_isDigit {c : Char} (h : c.isDigit = true) : 48 ≤ c.toNat ∧ c.toNat ≤ 57 := by
  simp only [Char.isDigit, Bool.and_eq_true, decide_eq_true_eq, ge_iff_le,
    UInt32.le_iff_toNat_le] at h
  exact h

/-- No digit begins a word. -/
theorem isWordStart_of_isDigit {c : Char} (h : c.isDigit = true) : isWordStart c = false := by
  have hrange := toNat_of_isDigit h
  have hval : c.val < 0x80 := by
    rw [UInt32.lt_iff_toNat_lt]
    exact Nat.lt_of_le_of_lt hrange.2 (by decide)
  -- a digit is below all letters
  have halpha : c.isAlpha = false := by
    rw [← Bool.not_eq_true]
    intro halpha
    simp only [Char.isAlpha, Char.isUpper, Char.isLower, Bool.or_eq_true, Bool.and_eq_true,
      decide_eq_true_eq, ge_iff_le, UInt32.le_iff_toNat_le] at halpha
    change (65 ≤ c.toNat ∧ c.toNat ≤ 90) ∨ (97 ≤ c.toNat ∧ c.toNat ≤ 122) at halpha
    omega
  have hunderscore : c ≠ '_' := by
    rintro rfl
    exact absurd hrange.2 (by decide)
  have hdollar : c ≠ '$' := by
    rintro rfl
    exact absurd hrange.1 (by decide)
  simp [isWordStart, Text.isAlphabetic, hval, halpha, hunderscore, hdollar]

theorem isBlank_of_isDigit {c : Char} (h : c.isDigit = true) : Text.isBlank c = false := by
  have hrange := toNat_of_isDigit h
  exact isBlank_of_visible (by omega)

/-- A number literal that begins with a digit. -/
theorem scans_number {spelling : String} {v : Value} {c : Char} {cs : List Char}
    (hchars : spelling.toList = c :: cs) (hc : c.isDigit = true)
    (hscan : ∀ rest, EndsToken rest → scanNumber (c :: cs ++ rest) = .ok (c :: cs, v, rest)) :
    (Lexeme.number spelling v).Scans := by
  refine ⟨c, cs, hchars, isBlank_of_isDigit hc, fun rest hrest => ⟨0, ?_⟩⟩
  rw [scanLexeme, isWordStart_of_isDigit hc, if_neg Bool.false_ne_true, if_pos hc,
    ← List.cons_append, hscan rest hrest, ← hchars]
  simp

/-- The bits of the integers that a suffix asks for. -/
def integerWidth (suffix : Option Char) : Nat := suffix.elim 32 fun _ => 64

/-- A number as an integer of the width that a suffix asks for. -/
def packNat (suffix : Option Char) (m : Nat) : Value :=
  suffix.elim (.int (.ofNat m)) fun _ => .long (.ofNat m)

/-- Digits have a value if they can be read, and the width has room for the number beside the
sign. -/
theorem value_digits {digits : List Char} {suffix : Option Char}
    (hsuffix : ∀ c ∈ suffix, c = 'L' ∨ c = 'l') :
    DecimalLiteral.value ⟨digits, none, none⟩ suffix = integral digits >>= fun m =>
      if m < 2 ^ (integerWidth suffix - 1) then .ok (packNat suffix m)
      else .error (suffix.elim intRange fun _ => longRange) := by
  -- without a suffix the number is an int, and with one a long
  cases suffix with
  | none =>
    change intOfDigits digits = _
    refine bind_congr fun m => ?_
    have hfits : fitsInt m = true ↔ m < 2 ^ 31 := by
      rw [fitsInt_iff]
      omega
    simp only [hfits]
    rfl
  | some letter =>
    have hvalue : DecimalLiteral.value ⟨digits, none, none⟩ (some letter) =
        longOfDigits digits := by
      rcases hsuffix letter rfl with rfl | rfl <;> rfl
    rw [hvalue]
    refine bind_congr fun m => ?_
    have hfits : fitsLong m = true ↔ m < 2 ^ 63 := by
      rw [fitsLong_iff]
      omega
    simp only [hfits]
    rfl

/-- A number in decimal digits, with the suffix of a long or without one. -/
theorem scans_decimal (suffix : Option Char) {n : Nat} {spelling : String}
    (hsuffix : suffix = none ∨ suffix = some 'L')
    (hspelling : spelling.toList = Decimal.digits n ++ suffix.toList)
    (h : n < 2 ^ (integerWidth suffix - 1)) :
    (Lexeme.number spelling (packNat suffix n)).Scans := by
  obtain ⟨c, cs, hcs, -⟩ := Decimal.exists_digits n
  have hdigit : c.isDigit = true :=
    Decimal.isDigit_of_mem_digits (by rw [hcs]; exact List.mem_cons_self)
  have hchars : spelling.toList = c :: (cs ++ suffix.toList) := by
    rw [hspelling, hcs, List.cons_append]
  refine scans_number hchars hdigit fun rest hrest => ?_
  -- the number is short enough to be read at all
  have hlimit : n < readLimit := by
    refine h.trans ?_
    rcases hsuffix with rfl | rfl <;> decide
  have hread : integral (Decimal.digits n) = .ok n := integral_digits hlimit
  have hvalue : DecimalLiteral.value ⟨Decimal.digits n, none, none⟩ suffix =
      .ok (packNat suffix n) := by
    rw [value_digits (by rcases hsuffix with rfl | rfl <;> simp), hread]
    exact if_pos h
  simpa [hcs] using scanDecimal_digits hsuffix hrest hvalue

/-- A hexadecimal literal with a suffix or without one, behind which the token ends. -/
theorem scanHex_digits (digits : List Char) {suffix : Option Char} {rest : List Char} {v : Value}
    (hd : digits.all isHexDigit = true) (hne : digits ≠ [])
    (hsuffix : suffix = none ∨ suffix = some 'L') (hrest : EndsToken rest)
    (hv : ofHexDigits suffix.isSome digits = .ok v) :
    scanHex ['0', 'x'] (digits ++ (suffix.toList ++ rest)) =
      .ok (['0', 'x'] ++ digits ++ suffix.toList, v, rest) := by
  -- neither the suffix nor a space is a hexadecimal digit
  have hhead : ∀ c ∈ (suffix.toList ++ rest).head?, isHexDigit c = false := by
    rcases hsuffix with rfl | rfl
    · exact hrest.head isHexDigit (by decide)
    · rintro c ⟨⟩
      decide
  have htake : takeIf (fun c => c == 'L' || c == 'l') (suffix.toList ++ rest) = (suffix, rest) := by
    rcases hsuffix with rfl | rfl
    · exact takeIf_of_head (hrest.head _ (by decide))
    · rfl
  have hrun : IsRun isHexDigit digits (suffix.toList ++ rest) := ⟨List.all_eq_true.1 hd, hhead⟩
  have hnonempty : digits.isEmpty = false := by simpa using hne
  simp only [scanHex, hrun.takeWhile, hrun.dropWhile, htake, hnonempty, Bool.false_eq_true, if_false,
    takeIf_of_head (hrest.head endsHex (by decide)), hv]

/-- The bits of the smallest int are scanned on their own. -/
theorem scans_smallestInt : (Lexeme.number "0x80000000" (.int .minValue)).Scans := by
  have hchars : "0x80000000".toList = '0' :: 'x' :: ['8', '0', '0', '0', '0', '0', '0', '0'] := by
    decide
  refine scans_number hchars (by decide) fun rest hrest => ?_
  exact scanHex_digits ('8' :: List.replicate 7 '0') (by decide) (by decide) (.inl rfl) hrest rfl

/-- So are those of the smallest long. -/
theorem scans_smallestLong :
    (Lexeme.number "0x8000000000000000L" (.long .minValue)).Scans := by
  have hchars : "0x8000000000000000L".toList =
      '0' :: 'x' :: ('8' :: List.replicate 15 '0' ++ ['L']) := by
    decide
  refine scans_number hchars (by decide) fun rest hrest => ?_
  exact scanHex_digits ('8' :: List.replicate 15 '0') (by decide) (by decide) (.inr rfl) hrest rfl

/-! ### Tokens with spaces between them -/

theorem isBlank_space : Text.isBlank ' ' = true := by
  decide +kernel

theorem scanTokens_nil (row : Nat) : scanTokens row [] = .ok ([], row) := by
  rw [scanTokens]
  rfl

/-- Blanks in front of a text only shift its rows. -/
theorem scanTokens_blanks {blanks : List Char} (hblanks : ∀ c ∈ blanks, Text.isBlank c = true)
    (row : Nat) (text : List Char) :
    scanTokens row (blanks ++ text) = scanTokens (row + lineFeeds blanks) text := by
  have htake : (blanks ++ text).takeWhile Text.isBlank = blanks ++ text.takeWhile Text.isBlank :=
    List.takeWhile_append_of_pos hblanks
  have hdrop : (blanks ++ text).dropWhile Text.isBlank = text.dropWhile Text.isBlank :=
    List.dropWhile_append_of_pos hblanks
  have hfeeds : lineFeeds (blanks ++ text.takeWhile Text.isBlank) =
      lineFeeds blanks + lineFeeds (text.takeWhile Text.isBlank) := List.countP_append
  rw [scanTokens.eq_def row, scanTokens.eq_def (row + lineFeeds blanks), hdrop]
  simp only [htake, hfeeds, Nat.add_assoc]

/-- A text that begins with a visible character begins with a token. -/
theorem scanTokens_cons {row rows last : Nat} {c : Char} {cs rest : List Char} {lexeme : Lexeme}
    {ts : List Token} (hc : Text.isBlank c = false)
    (hlexeme : scanLexeme c cs = .ok (lexeme, rest, rows))
    (hrest : scanTokens (row + rows) rest = .ok (ts, last)) :
    scanTokens row (c :: cs) = .ok (⟨lexeme, row⟩ :: ts, last) := by
  have htake : (c :: cs).takeWhile Text.isBlank = [] := by simp [hc]
  have hdrop : (c :: cs).dropWhile Text.isBlank = c :: cs := by simp [hc]
  have hstart : row + lineFeeds [] = row := rfl
  rw [scanTokens.eq_def, hdrop, htake, hstart]
  dsimp only
  rw [hlexeme]
  dsimp only
  rw [hrest]

/-- **Spaced tokens are scanned as they are.** -/
theorem scanTokens_spaced {lexemes : List Lexeme} (h : ∀ lexeme ∈ lexemes, lexeme.Scans)
    (row : Nat) :
    ∃ ts last, scanTokens row (spaced lexemes) = .ok (ts, last) ∧
      ts.map Token.lexeme = lexemes := by
  induction lexemes generalizing row with
  | nil => exact ⟨[], row, scanTokens_nil row, rfl⟩
  | cons lexeme lexemes ih =>
    -- The text ends behind the token, or the space and the tokens that are left follow it.
    obtain ⟨c, cs, hchars, hblank, hscans⟩ := h lexeme List.mem_cons_self
    obtain ⟨rest, hspaced, hends, front, hfront, hrest⟩ : ∃ rest,
        spaced (lexeme :: lexemes) = c :: (cs ++ rest) ∧ EndsToken rest ∧
          ∃ front, (∀ c ∈ front, Text.isBlank c = true) ∧ rest = front ++ spaced lexemes := by
      cases lexemes with
      | nil => exact ⟨[], by simp [spaced, hchars], by simp [EndsToken], [], by simp, rfl⟩
      | cons next lexemes =>
        refine ⟨' ' :: spaced (next :: lexemes), ?_, by simp [EndsToken], [' '], ?_, rfl⟩
        · rw [spaced, List.map_cons, List.map_cons, List.intercalate_cons_cons, hchars]
          simp [spaced]
        · simpa using isBlank_space
    obtain ⟨rows, hlexeme⟩ := hscans rest hends
    obtain ⟨ts, last, hts, hmap⟩ := ih (fun l hl => h l (List.mem_cons_of_mem _ hl))
      (row + rows + lineFeeds front)
    have htail : scanTokens (row + rows) rest = .ok (ts, last) := by
      rw [hrest, scanTokens_blanks hfront, hts]
    refine ⟨⟨lexeme, row⟩ :: ts, last, ?_, by rw [List.map_cons, hmap]⟩
    rw [hspaced]
    exact scanTokens_cons hblank hlexeme htail

end Stencil
