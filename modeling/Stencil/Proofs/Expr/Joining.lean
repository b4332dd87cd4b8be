import Mathlib
import Stencil.Proofs.Expr.Lexing
import Stencil.Proofs.Template.Tokens

/-!
# Scanning texts that stand apart

A text that is scanned for tokens is scanned for the same tokens if another text follows that begins
with a space or a closing parenthesis (`scanTokens_append`): both end every token (`StandsApart`), so
what the scanner takes of the first text does not depend on what comes behind. The second text is
then scanned from the row in which the first one ends.

There is one lemma for each part of the scanner. It says that what the part takes off the front of a
text stays the same, and that the rest of the text is longer by what was added.
-/

namespace Stencil

variable {cs rest more : List Char} {c : Char}

/-! ### Runs of characters -/

/-- What ends every token in front of it: nothing, a space, or a closing parenthesis. -/
def StandsApart (more : List Char) : Prop := ∀ c ∈ more.head?, c = ' ' ∨ c = ')'

/-- What stands apart is nothing, or begins with a space or a closing parenthesis. -/
theorem StandsApart.cases (h : StandsApart more) :
    more = [] ∨ ∃ d tail, more = d :: tail ∧ (d = ' ' ∨ d = ')') := by
  rcases more with _ | ⟨d, tail⟩
  · exact .inl rfl
  · exact .inr ⟨d, tail, rfl, h d rfl⟩

/-- Its first character is of no kind that has neither of the two. -/
theorem StandsApart.head (h : StandsApart more) (p : Char → Bool) (hspace : p ' ' = false)
    (hclose : p ')' = false) : ∀ c ∈ more.head?, p c = false := by
  intro c hc
  rcases h c hc with rfl | rfl
  · exact hspace
  · exact hclose

/-- A character that is taken if it is of a kind is taken from the text in front. -/
theorem takeIf_append_behind {p : Char → Bool} (cs : List Char)
    (hmore : ∀ c ∈ more.head?, p c = false) :
    takeIf p (cs ++ more) = ((takeIf p cs).1, (takeIf p cs).2 ++ more) := by
  cases cs with
  | nil => rw [List.nil_append, takeIf_of_head hmore, takeIf, List.nil_append]
  | cons c cs =>
    rw [List.cons_append, takeIf, takeIf]
    split <;> rfl

/-! ### Numbers -/

/-- A fraction is one of the text in front. -/
theorem scanFraction_append (cs : List Char) (hmore : StandsApart more) :
    DecimalLiteral.scanFraction (cs ++ more) =
      ((DecimalLiteral.scanFraction cs).1, (DecimalLiteral.scanFraction cs).2 ++ more) := by
  rcases hmore.cases with rfl | ⟨e, tail, rfl, he⟩
  · simp
  -- A point is looked at together with the character behind it, which may be the added one.
  · rcases cs with _ | ⟨c, _ | ⟨d, cs⟩⟩
    · rcases he with rfl | rfl <;> rfl
    · by_cases hc : c = '.'
      · subst hc
        rcases he with rfl | rfl <;> rfl
      · simp [DecimalLiteral.scanFraction, hc]
    · by_cases hc : c = '.'
      · subst hc
        obtain ⟨htake, hdrop⟩ := span_append (d :: cs)
          (hmore.head Char.isDigit (by decide) (by decide))
        simp only [List.cons_append] at htake hdrop ⊢
        simp only [DecimalLiteral.scanFraction, htake, hdrop]
        split <;> rfl
      · simp [DecimalLiteral.scanFraction, hc]

/-- So is the mark of an exponent. -/
theorem exponentMark_append (cs : List Char) (hmore : StandsApart more) :
    DecimalLiteral.exponentMark (cs ++ more) = DecimalLiteral.exponentMark cs := by
  rcases hmore.cases with rfl | ⟨a, tail, rfl, ha⟩
  · simp
  -- Three characters make a mark at most, and the added one is none of them.
  · have hletter : a ≠ 'e' ∧ a ≠ 'E' ∧ a ≠ '+' ∧ a ≠ '-' ∧ a.isDigit = false := by
      rcases ha with rfl | rfl <;> decide
    obtain ⟨he, hE, hplus, hminus, hdigit⟩ := hletter
    rcases cs with _ | ⟨e, _ | ⟨s, _ | ⟨d, cs⟩⟩⟩
    · cases tail with
      | nil => rfl
      | cons d tail => cases tail <;> simp [DecimalLiteral.exponentMark, he, hE]
    · cases tail with
      | nil => simp [DecimalLiteral.exponentMark, hdigit]
      | cons d tail => simp [DecimalLiteral.exponentMark, hplus, hminus, hdigit]
    · simp [DecimalLiteral.exponentMark, ite_and, hdigit]
    · rfl

/-- So is an exponent. -/
theorem scanExponent_append (cs : List Char) (hmore : StandsApart more) :
    DecimalLiteral.scanExponent (cs ++ more) =
      ((DecimalLiteral.scanExponent cs).1, (DecimalLiteral.scanExponent cs).2 ++ more) := by
  have hlength := (exponentMark_spec cs).1.length_le
  unfold DecimalLiteral.scanExponent
  rw [exponentMark_append cs hmore]
  split
  · rfl
  · obtain ⟨htake, hdrop⟩ :=
      span_append (cs.drop (DecimalLiteral.exponentMark cs).length)
        (hmore.head Char.isDigit (by decide) (by decide))
    simp only [List.drop_append_of_le_length hlength, htake, hdrop]

/-- So are all parts of a decimal literal. -/
theorem scan_append (cs : List Char) (hmore : StandsApart more) :
    DecimalLiteral.scan (cs ++ more) =
      ((DecimalLiteral.scan cs).1, (DecimalLiteral.scan cs).2 ++ more) := by
  obtain ⟨htake, hdrop⟩ := span_append cs (hmore.head Char.isDigit (by decide) (by decide))
  simp only [DecimalLiteral.scan, htake, hdrop, scanFraction_append _ hmore,
    scanExponent_append _ hmore]

/-- A decimal literal is scanned as it is without what stands apart behind it. -/
theorem scanDecimal_append {literal : List Char} {v : Value} (hmore : StandsApart more)
    (h : scanDecimal cs = .ok (literal, v, rest)) :
    scanDecimal (cs ++ more) = .ok (literal, v, rest ++ more) := by
  have hsuffix := takeIf_append_behind (DecimalLiteral.scan cs).2
    (hmore.head isSuffix (by decide) (by decide))
  have hstop := takeIf_append_behind (takeIf isSuffix (DecimalLiteral.scan cs).2).2
    (hmore.head isWordChar (by decide) (by decide))
  unfold scanDecimal at h ⊢
  simp only [scan_append cs hmore, hsuffix, hstop] at h ⊢
  -- the literal is scanned up to the suffix, and the character behind it must end it
  split at h
  · cases h
  · rename_i heq
    rw [heq]
    dsimp only
    split at h
    · simp only [Except.ok.injEq, Prod.mk.injEq] at h
      obtain ⟨rfl, rfl, rfl⟩ := h
      rfl
    · cases h

/-- Likewise a hexadecimal literal. -/
theorem scanHex_append {mark literal : List Char} {v : Value} (hmore : StandsApart more)
    (h : scanHex mark cs = .ok (literal, v, rest)) :
    scanHex mark (cs ++ more) = .ok (literal, v, rest ++ more) := by
  obtain ⟨htake, hdrop⟩ := span_append cs (hmore.head isHexDigit (by decide) (by decide))
  have hsuffix := takeIf_append_behind (cs.dropWhile isHexDigit)
    (hmore.head (fun c => c == 'L' || c == 'l') (by decide) (by decide))
  have hstop := takeIf_append_behind
    (takeIf (fun c => c == 'L' || c == 'l') (cs.dropWhile isHexDigit)).2
    (hmore.head endsHex (by decide) (by decide))
  unfold scanHex at h ⊢
  simp only [htake, hdrop, hsuffix, hstop] at h ⊢
  -- the digits are there, they have a value, and the character behind them ends the literal
  split at h
  · cases h
  · rename_i hdigits
    rw [if_neg hdigits]
    split at h
    · cases h
    · rename_i heq
      rw [heq]
      dsimp only
      split at h
      · simp only [Except.ok.injEq, Prod.mk.injEq] at h
        obtain ⟨rfl, rfl, rfl⟩ := h
        rfl
      · cases h

/-- Likewise a number of any kind. -/
theorem scanNumber_append {literal : List Char} {v : Value} (hmore : StandsApart more)
    (h : scanNumber cs = .ok (literal, v, rest)) :
    scanNumber (cs ++ more) = .ok (literal, v, rest ++ more) := by
  rw [scanNumber.eq_def] at h
  -- a zero and an `x` begin a hexadecimal literal
  split at h
  · rename_i x cs
    rw [List.cons_append, List.cons_append, scanNumber]
    split at h
    · rename_i hx
      rw [if_pos hx]
      exact scanHex_append hmore h
    · rename_i hx
      rw [if_neg hx]
      have hdecimal := scanDecimal_append hmore h
      rwa [List.cons_append, List.cons_append] at hdecimal
  · -- Whatever is added, this is no hexadecimal literal.
    rename_i hnot
    have hdecimal := scanDecimal_append hmore h
    rw [scanNumber.eq_def]
    -- added characters must not turn a zero into the beginning of one
    split
    · -- Behind a lone zero there is what is added.
      rename_i x tail heq
      rw [← heq, if_neg]
      · exact hdecimal
      · rcases cs with _ | ⟨c, _ | ⟨d, cs⟩⟩
        · have hzero := hmore '0' (by rw [show more = '0' :: x :: tail from heq]; rfl)
          rcases hzero with hzero | hzero <;> cases hzero
        · have hx := hmore x (by rw [show more = x :: tail from (List.cons.inj heq).2]; rfl)
          rcases hx with rfl | rfl <;> decide
        · obtain ⟨rfl, -⟩ := List.cons.inj heq
          exact absurd rfl (hnot d cs)
    · exact hdecimal

/-! ### Strings and marks -/

/-- What is behind the closing quote of a string literal has no part in it. -/
theorem scanString_append {quote : Char} {content : List Char} {rows : Nat} (more : List Char)
    (h : scanString quote cs = .ok (content, rest, rows)) :
    scanString quote (cs ++ more) = .ok (content, rest ++ more, rows) := by
  fun_induction scanString quote cs generalizing content rest rows with
  -- the cases in which the string is refused are none
  | case1 | case3 | case4 | case5 | case7 => cases h
  | case2 cs =>
    obtain ⟨rfl, rfl, rfl⟩ := by simpa using h
    exact scanString_close quote (cs ++ more)
  | case6 =>
    rename_i e cs x hx content' rest' rows' hr hquote ih
    obtain ⟨rfl, rfl, rfl⟩ := by simpa using h
    rw [List.cons_append, List.cons_append, scanString.eq_def]
    simp only [if_neg hquote, if_true, hx, ih hr]
  | case8 =>
    rename_i c cs hc hs row content' rest' rows' hr ih
    obtain ⟨rfl, rfl, rfl⟩ := by simpa using h
    exact scanString_plain hc hs (ih hr)

/-- No mark of two characters ends in a space or in a parenthesis. -/
theorem lookup_apart (c : Char) {d : Char} (hd : d = ' ' ∨ d = ')') :
    doubleMarks.lookup (c, d) = none := by
  have hnone : ∀ entry ∈ doubleMarks, ¬ (entry.1.2 = ' ' ∨ entry.1.2 = ')') := by decide
  rw [Option.eq_none_iff_forall_ne_some]
  intro mark hmark
  exact hnone _ (mem_of_lookup hmark) hd

/-- A mark is scanned without what stands apart behind it. -/
theorem scanPunct_append {mark : Punct} (hmore : StandsApart more)
    (h : scanPunct c cs = some (mark, rest)) :
    scanPunct c (cs ++ more) = some (mark, rest ++ more) := by
  unfold scanPunct at h ⊢
  cases cs with
  | cons d cs =>
    -- The second character that is looked at is the same one as before.
    simp only [List.cons_append, List.head?_cons, List.tail_cons, Option.bind_some] at h ⊢
    split at h
    · obtain ⟨rfl, rfl⟩ := by simpa using h
      rfl
    · obtain ⟨hmark, rfl⟩ := by simpa using h
      rw [hmark]
      rfl
  | nil =>
    have hnone : (more.head?.bind fun d => doubleMarks.lookup (c, d)) = none := by
      rcases hmore.cases with rfl | ⟨d, tail, rfl, hd⟩
      · rfl
      · exact lookup_apart c hd
    rw [List.nil_append, hnone]
    obtain ⟨hmark, rfl⟩ := by simpa using h
    rw [hmark]
    rfl

/-! ### Tokens -/

/-- **One token.** Its scanning does not depend on what stands apart behind it. -/
theorem scanLexeme_append {lexeme : Lexeme} {rows : Nat} (hmore : StandsApart more)
    (h : scanLexeme c cs = .ok (lexeme, rest, rows)) :
    scanLexeme c (cs ++ more) = .ok (lexeme, rest ++ more, rows) := by
  unfold scanLexeme at h ⊢
  -- a word, a number, a string or a mark, as the first character says
  split at h
  · rename_i hstart
    obtain ⟨htake, hdrop⟩ := span_append cs (hmore.head isWordChar (by decide) (by decide))
    simp only [Except.ok.injEq, Prod.mk.injEq] at h
    obtain ⟨rfl, rfl, rfl⟩ := h
    rw [if_pos hstart, htake, hdrop]
  · rename_i hstart
    rw [if_neg hstart]
    split at h
    · rename_i hdigit
      rw [if_pos hdigit]
      split at h
      · cases h
      · rename_i hnumber
        obtain ⟨rfl, rfl, rfl⟩ := by simpa using h
        rw [← List.cons_append, scanNumber_append hmore hnumber]
    · rename_i hdigit
      rw [if_neg hdigit]
      split at h
      · rename_i hquote
        rw [if_pos hquote]
        split at h
        · cases h
        · rename_i hstring
          obtain ⟨rfl, rfl, rfl⟩ := by simpa using h
          rw [scanString_append more hstring]
      · rename_i hquote
        rw [if_neg hquote]
        split at h
        · rename_i hmark
          obtain ⟨rfl, rfl, rfl⟩ := by simpa using h
          rw [scanPunct_append hmore hmark]
        · cases h

/-! ### Texts -/

/-- The row in which a text that is scanned for tokens ends. -/
theorem last_scanTokens {text : List Char} {ts : List Token} {row last : Nat}
    (h : scanTokens row text = .ok (ts, last)) : last = row + lineFeeds text := by
  fun_induction scanTokens row text generalizing ts last with
  | case1 row text start =>
    rename_i hrest
    obtain ⟨heq, -, -⟩ := blanks_span text
    rw [hrest, List.append_nil] at heq
    obtain ⟨-, rfl⟩ := by simpa using h
    exact congrArg (row + lineFeeds ·) heq.symm
  | case2 | case3 => cases h
  | case4 row text start c cs hrest lexeme rest rows hlex tokens last' hr =>
    rename_i ih
    obtain ⟨-, rfl⟩ := by simpa using h
    obtain ⟨heq, -, -⟩ := blanks_span text
    obtain ⟨⟨taken, rfl, hrows⟩, -⟩ := takes_scanLexeme hlex
    -- the rows of a text are those of its blanks, of its first token, and of the rest
    have hfeeds : lineFeeds text =
        lineFeeds (text.takeWhile Text.isBlank) + (rows + lineFeeds rest) := by
      calc lineFeeds text
          = lineFeeds (text.takeWhile Text.isBlank ++ text.dropWhile Text.isBlank) :=
            congrArg lineFeeds heq
        _ = lineFeeds (text.takeWhile Text.isBlank) + lineFeeds (c :: taken ++ rest) := by
            rw [lineFeeds_append, hrest, List.cons_append]
        _ = _ := by rw [lineFeeds_append, hrows]
    rw [ih hr, hfeeds]
    omega

/-- **Two texts that stand apart** have the tokens of both, and the second one begins in the row in
which the first one ends. -/
theorem scanTokens_append {text : List Char} {ts us : List Token} {row middle last : Nat}
    (h : scanTokens row text = .ok (ts, middle)) (hends : StandsApart more)
    (hmore : scanTokens middle more = .ok (us, last)) :
    scanTokens row (text ++ more) = .ok (ts ++ us, last) := by
  fun_induction scanTokens row text generalizing ts middle with
  | case1 row text start =>
    rename_i hrest
    obtain ⟨heq, hblanks, -⟩ := blanks_span text
    rw [hrest, List.append_nil] at heq
    rw [← heq] at hblanks
    obtain ⟨rfl, rfl⟩ := by simpa using h
    rw [scanTokens_blanks hblanks, List.nil_append, ← hmore]
    exact congrArg (fun cs => scanTokens (row + lineFeeds cs) more) heq
  | case2 | case3 => cases h
  | case4 row text start c cs hrest lexeme rest rows hlex tokens last' hr =>
    rename_i ih
    simp only [Except.ok.injEq, Prod.mk.injEq] at h
    obtain ⟨rfl, rfl⟩ := h
    obtain ⟨heq, hblanks, hfirst⟩ := blanks_span text
    rw [hrest] at heq hfirst
    -- The first token of the text stands behind the same blanks as before.
    have htext : text ++ more = text.takeWhile Text.isBlank ++ c :: (cs ++ more) := by
      rw [← List.cons_append, ← List.append_assoc, ← heq]
    rw [htext, scanTokens_blanks hblanks]
    exact scanTokens_cons (hfirst c rfl) (scanLexeme_append hends hlex) (ih hr hmore)

end Stencil
