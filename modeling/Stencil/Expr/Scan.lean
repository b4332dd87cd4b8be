import Stencil.Assoc
import Stencil.Expr.Literal
import Stencil.Text.Blank

/-!
# From text to tokens

Blanks separate tokens and are dropped; a line feed among them starts a new row. Names begin with
a letter, `_` or `$` and go on with letters, numbers, `_` and `$`. A string literal stands between
two quotes of one kind and may span lines; its escapes are resolved here. Of two marks that fit,
the longer one is taken.

`scanTokens` turns the text of a directive into its tokens and the row its end lies in. A fault
carries the row that the scanner had reached.

Main statement: `lexeme_rest_length` (a token takes at least one character), on which the
recursion of `scanTokens` rests.
-/

namespace Stencil

/-- The number of line feeds in a text. -/
def lineFeeds (cs : List Char) : Nat := cs.countP (· == '\n')

/-! ### Strings -/

/-- The character that an escape stands for. -/
def escapedChar? : Char → Option Char
  | 'n' => some '\n'
  | 'r' => some '\r'
  | 't' => some '\t'
  | 'b' => some '\x08'
  | 'f' => some '\x0c'
  | '0' => some '\x00'
  | '\\' => some '\\'
  | '\x22' => some '\x22'
  | '\x27' => some '\x27'
  | _ => none

/-- The wording for an escape that stands for nothing. -/
def badEscape (c : Char) : ParseFault :=
  .other ("Illegal escape sequence '\\" ++ String.singleton c ++ "' in string literal")

/-- The content of a string literal up to its closing quote, the text after it, and the number of
line feeds inside. A fault comes with the number of line feeds before it. -/
def scanString (quote : Char) :
    List Char → Except (ParseFault × Nat) (List Char × List Char × Nat)
  | [] => .error (.unterminated "string literal", 0)
  | c :: cs =>
    if c = quote then .ok ([], cs, 0)
    else if c = '\\' then
      match cs with
      | [] => .error (.unterminated "string literal", 0)
      | e :: cs =>
        match escapedChar? e with
        | none => .error (badEscape e, 0)
        | some x =>
          match scanString quote cs with
          | .error fault => .error fault
          | .ok (content, rest, rows) => .ok (x :: content, rest, rows)
    else
      let row := if c = '\n' then 1 else 0
      match scanString quote cs with
      | .error (fault, rows) => .error (fault, rows + row)
      | .ok (content, rest, rows) => .ok (c :: content, rest, rows + row)

/-! ### Marks -/

/-- The marks of two characters. -/
def doubleMarks : List ((Char × Char) × Punct) :=
  [(('+', '+'), .increment), (('-', '-'), .decrement), (('=', '='), .eq), (('!', '='), .ne),
    (('<', '='), .le), (('>', '='), .ge), (('&', '&'), .and), (('|', '|'), .or),
    (('?', '?'), .coalesce), ((':', ':'), .doubleColon), (('.', '.'), .range)]

/-- The marks of one character. -/
def singleMarks : List (Char × Punct) :=
  [('+', .plus), ('-', .minus), ('*', .times), ('/', .divide), ('%', .modulo), ('=', .assign),
    ('!', .not), ('<', .lt), ('>', .gt), ('?', .question), (':', .colon), ('.', .dot),
    (',', .comma), (';', .semicolon), ('(', .lparen), (')', .rparen), ('[', .lbracket),
    (']', .rbracket), ('\x7b', .lbrace), ('\x7d', .rbrace)]

/-- The mark at the front of a text that starts with `c`, and the text after it. -/
def scanPunct (c : Char) (cs : List Char) : Option (Punct × List Char) :=
  match cs.head?.bind fun d => doubleMarks.lookup (c, d) with
  | some mark => some (mark, cs.tail)
  | none => (singleMarks.lookup c).map (·, cs)

/-! ### Tokens -/

/-- Whether a character begins a word. -/
def isWordStart (c : Char) : Bool := Text.isAlphabetic c || c == '_' || c == '$'

/-- The token that a word is. -/
def Lexeme.ofWord (word : String) : Lexeme :=
  if word = "true" then .keyword .true
  else if word = "false" then .keyword .false
  else if word = "null" then .keyword .null
  else .name word

/-- The token at the front of a text that starts with `c`, the text after it, and the number of
line feeds inside. -/
def scanLexeme (c : Char) (cs : List Char) :
    Except (ParseFault × Nat) (Lexeme × List Char × Nat) :=
  if isWordStart c then
    .ok (.ofWord (String.ofList (c :: cs.takeWhile isWordChar)), cs.dropWhile isWordChar, 0)
  else if c.isDigit then
    match scanNumber (c :: cs) with
    | .error fault => .error (fault, 0)
    | .ok (literal, v, rest) => .ok (.number (String.ofList literal) v, rest, 0)
  else if c = '\x22' ∨ c = '\x27' then
    match scanString c cs with
    | .error fault => .error fault
    | .ok (content, rest, rows) => .ok (.text (String.ofList content), rest, rows)
  else
    match scanPunct c cs with
    | some (mark, rest) => .ok (.punct mark, rest, 0)
    | none => .error (.invalidCharacter c, 0)

/-! ### Lengths -/

theorem takeIf_rest_length (p : Char → Bool) (cs : List Char) :
    (takeIf p cs).2.length ≤ cs.length := by
  cases cs with
  | nil => simp [takeIf]
  | cons c cs => rw [takeIf]; split <;> simp

theorem scanFraction_rest_length (cs : List Char) :
    (DecimalLiteral.scanFraction cs).2.length ≤ cs.length := by
  unfold DecimalLiteral.scanFraction
  split
  · split
    · exact Nat.le_trans (List.dropWhile_sublist _).length_le (by simp)
    · simp
  · simp

theorem scanExponent_rest_length (cs : List Char) :
    (DecimalLiteral.scanExponent cs).2.length ≤ cs.length := by
  unfold DecimalLiteral.scanExponent
  split
  · simp
  · exact Nat.le_trans (List.dropWhile_sublist _).length_le (by simp)

theorem scanDecimal_rest_length {c : Char} {cs literal rest : List Char} {v : Value}
    (hc : c.isDigit) (h : scanDecimal (c :: cs) = .ok (literal, v, rest)) :
    rest.length ≤ cs.length := by
  -- the fraction and the exponent begin where the digits end
  have hd : ((c :: cs).dropWhile Char.isDigit).length ≤ cs.length := by
    simpa [hc] using (List.dropWhile_sublist Char.isDigit).length_le
  have hs : (DecimalLiteral.scan (c :: cs)).2.length ≤ cs.length :=
    Nat.le_trans (scanExponent_rest_length _) (Nat.le_trans (scanFraction_rest_length _) hd)
  unfold scanDecimal at h
  generalize DecimalLiteral.scan (c :: cs) = scanned at h hs
  obtain ⟨n, tail⟩ := scanned
  -- a suffix may be left out, and a character that must not follow is taken to see that it is none
  have h1 := takeIf_rest_length isSuffix tail
  simp only at h
  generalize takeIf isSuffix tail = first at h h1
  obtain ⟨suffix, tail⟩ := first
  have h2 := takeIf_rest_length isWordChar tail
  simp only at h
  generalize takeIf isWordChar tail = second at h h2
  obtain ⟨stop, last⟩ := second
  cases stop with
  | some _ => simp at h
  | none =>
    simp only at h
    split at h
    · simp only [Except.ok.injEq, Prod.mk.injEq] at h
      obtain ⟨_, _, rfl⟩ := h
      simp only at hs h1 h2
      omega
    · simp at h

theorem scanHex_rest_length {mark cs literal rest : List Char} {v : Value}
    (h : scanHex mark cs = .ok (literal, v, rest)) : rest.length ≤ cs.length := by
  have hd : (cs.dropWhile isHexDigit).length ≤ cs.length := (List.dropWhile_sublist _).length_le
  unfold scanHex at h
  have h1 := takeIf_rest_length (fun c => c == 'L' || c == 'l') (cs.dropWhile isHexDigit)
  generalize takeIf (fun c => c == 'L' || c == 'l') (cs.dropWhile isHexDigit) = first at h h1
  obtain ⟨suffix, tail⟩ := first
  simp only at h
  split at h
  · simp at h
  -- behind the digits stands a suffix, and nothing that would go on with the literal
  · have h2 := takeIf_rest_length endsHex tail
    generalize takeIf endsHex tail = second at h h2
    obtain ⟨stop, last⟩ := second
    cases stop with
    | some _ => simp at h
    | none =>
      simp only at h
      split at h
      · simp only [Except.ok.injEq, Prod.mk.injEq] at h
        obtain ⟨_, _, rfl⟩ := h
        simp only at h1 h2
        omega
      · simp at h

theorem scanNumber_rest_length {c : Char} {cs literal rest : List Char} {v : Value}
    (hc : c.isDigit) (h : scanNumber (c :: cs) = .ok (literal, v, rest)) :
    rest.length ≤ cs.length := by
  unfold scanNumber at h
  split at h
  · rename_i x tail heq
    simp only [List.cons.injEq] at heq
    obtain ⟨rfl, rfl⟩ := heq
    split at h
    · exact Nat.le_trans (scanHex_rest_length h) (by simp)
    · exact scanDecimal_rest_length hc h
  · exact scanDecimal_rest_length hc h

/-- Behind a string there is less than there was in it and behind it. -/
theorem scanString_rest_length {quote : Char} {cs content rest : List Char} {rows : Nat}
    (h : scanString quote cs = .ok (content, rest, rows)) : rest.length ≤ cs.length := by
  fun_induction scanString quote cs generalizing content rest rows with
  | case1 | case3 | case4 | case5 | case7 => simp at h
  | case2 cs =>
    simp only [Except.ok.injEq, Prod.mk.injEq] at h
    obtain ⟨_, rfl, _⟩ := h
    -- the closing quote is the only character that the content does not go on behind
    simp
  | case6 =>
    rename_i hr _ ih
    simp only [Except.ok.injEq, Prod.mk.injEq] at h
    obtain ⟨_, rfl, _⟩ := h
    have := ih hr
    simp only [List.length_cons]
    omega
  | case8 =>
    rename_i hr ih
    simp only [Except.ok.injEq, Prod.mk.injEq] at h
    obtain ⟨_, rfl, _⟩ := h
    have := ih hr
    simp only [List.length_cons]
    omega

/-- A mark takes a second character, or it is a single one. -/
theorem scanPunct_eq_some {c : Char} {cs rest : List Char} {mark : Punct}
    (h : scanPunct c cs = some (mark, rest)) :
    (∃ d, cs = d :: rest ∧ ((c, d), mark) ∈ doubleMarks) ∨
      (rest = cs ∧ (c, mark) ∈ singleMarks) := by
  unfold scanPunct at h
  split at h
  -- both characters make up a mark
  · rename_i double hdouble
    simp only [Option.some.injEq, Prod.mk.injEq] at h
    obtain ⟨rfl, rfl⟩ := h
    obtain ⟨d, hd, hlookup⟩ := Option.bind_eq_some_iff.1 hdouble
    obtain ⟨cs, rfl⟩ := List.head?_eq_some_iff.1 hd
    exact .inl ⟨d, rfl, mem_of_lookup hlookup⟩
  -- the first character is a mark by itself
  · simp only [Option.map_eq_some_iff, Prod.mk.injEq] at h
    obtain ⟨single, hlookup, rfl, rfl⟩ := h
    exact .inr ⟨rfl, mem_of_lookup hlookup⟩

theorem scanPunct_rest_length {c : Char} {cs rest : List Char} {mark : Punct}
    (h : scanPunct c cs = some (mark, rest)) : rest.length ≤ cs.length := by
  rcases scanPunct_eq_some h with ⟨d, rfl, -⟩ | ⟨rfl, -⟩
  · exact Nat.le_succ _
  · exact Nat.le_refl _

/-- A token takes at least one character. -/
theorem lexeme_rest_length {c : Char} {cs rest : List Char} {lexeme : Lexeme} {rows : Nat}
    (h : scanLexeme c cs = .ok (lexeme, rest, rows)) : rest.length ≤ cs.length := by
  unfold scanLexeme at h
  split at h
  -- a word, a number, a string or a mark: one scanner for each first character
  · simp only [Except.ok.injEq, Prod.mk.injEq] at h
    obtain ⟨_, rfl, _⟩ := h
    exact (List.dropWhile_sublist _).length_le
  · split at h
    · rename_i hd
      split at h
      · simp at h
      · rename_i hn
        simp only [Except.ok.injEq, Prod.mk.injEq] at h
        obtain ⟨_, rfl, _⟩ := h
        exact scanNumber_rest_length hd hn
    · split at h
      · split at h
        · simp at h
        · rename_i hs
          simp only [Except.ok.injEq, Prod.mk.injEq] at h
          obtain ⟨_, rfl, _⟩ := h
          exact scanString_rest_length hs
      · split at h
        · rename_i hp
          simp only [Except.ok.injEq, Prod.mk.injEq] at h
          obtain ⟨_, rfl, _⟩ := h
          exact scanPunct_rest_length hp
        · simp at h

/-! ### Whole texts -/

/-- The tokens of a text that starts in a row, and the row its end lies in. -/
def scanTokens (row : Nat) (text : List Char) :
    Except (ParseFault × Nat) (List Token × Nat) :=
  let start := row + lineFeeds (text.takeWhile Text.isBlank)
  match _hrest : text.dropWhile Text.isBlank with
  | [] => .ok ([], start)
  | c :: cs =>
    match _hlex : scanLexeme c cs with
    | .error (fault, rows) => .error (fault, start + rows)
    | .ok (lexeme, rest, rows) =>
      match scanTokens (start + rows) rest with
      | .error fault => .error fault
      | .ok (tokens, last) => .ok (⟨lexeme, start⟩ :: tokens, last)
termination_by text.length
decreasing_by
  have h1 : (text.dropWhile Text.isBlank).length ≤ text.length :=
    (List.dropWhile_sublist _).length_le
  have h2 := lexeme_rest_length _hlex
  rw [_hrest, List.length_cons] at h1
  omega

end Stencil
