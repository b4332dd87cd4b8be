import Mathlib
import Stencil.Proofs.Template.Rows

/-!
# Rows of tokens

The parameters of a tag are scanned for tokens with a row to begin with. `TokensOf front text ts`
says which tokens a text has that stands behind `front`, and in which rows: each token is in the row
of its first character, wherever the line breaks are, between tokens or inside of string literals.

* Scanning a token counts the line feeds that it takes (`takes_scanLexeme`). An escape in a string
  literal counts none, and takes none: a backslash with a line feed behind it is no escape.
* So a text that is scanned for tokens has no escaped line feeds (`escapedFeeds_of_scanTokens`),
  which are what a row of a tag may fall short by.

Main definition: `TokensOf`. Main statements: `tokensOf_scanTokens`, `escapedFeeds_of_scanTokens`.
-/

namespace Stencil

variable {front cs rest text : List Char} {c : Char} {lexeme : Lexeme} {rows : Nat}

/-! ### What a token takes -/

/-- A text without line feeds is taken from the front. -/
theorem Passes.lineFeeds (h : Passes (· = '\n') cs rest) :
    ∃ taken, cs = taken ++ rest ∧ lineFeeds taken = 0 := by
  obtain ⟨taken, rfl, htaken⟩ := h
  exact ⟨taken, rfl, lineFeeds_of_not_mem fun hmem => htaken _ hmem rfl⟩

/-- The characters of a mark are taken. -/
theorem passes_scanPunct {stops : Char → Prop} {mark : Punct}
    (hdouble : ∀ entry ∈ doubleMarks, ¬ stops entry.1.1 ∧ ¬ stops entry.1.2)
    (hsingle : ∀ entry ∈ singleMarks, ¬ stops entry.1) (h : scanPunct c cs = some (mark, rest)) :
    Passes stops (c :: cs) rest := by
  rcases scanPunct_eq_some h with ⟨d, rfl, hmem⟩ | ⟨rfl, hmem⟩
  · obtain ⟨hc, hd⟩ := hdouble _ hmem
    exact .cons hc (.cons hd (.refl rest))
  · exact .cons (hsingle _ hmem) (.refl _)

/-- An escape stands for a character and takes no line feed. -/
theorem ne_lineFeed_of_escapedChar? {e x : Char} (h : escapedChar? e = some x) : e ≠ '\n' := by
  rintro rfl
  cases h

/-- A string literal counts the line feeds that it takes, and none of them is escaped. -/
theorem takes_scanString {quote : Char} {content : List Char} (hq : isQuote quote)
    (h : scanString quote cs = .ok (content, rest, rows)) :
    (∃ taken, cs = taken ++ rest ∧ lineFeeds taken = rows) ∧
      escapedFeeds (some quote) cs = escapedFeeds none rest := by
  have hslash : quote ≠ '\\' := by rcases hq with rfl | rfl <;> decide
  have hfeed : quote ≠ '\n' := by rcases hq with rfl | rfl <;> decide
  fun_induction scanString quote cs generalizing content rest rows with
  -- the literal is refused
  | case1 | case3 | case4 | case5 | case7 => cases h
  -- the quote that closes it
  | case2 cs =>
    simp only [Except.ok.injEq, Prod.mk.injEq] at h
    obtain ⟨-, rfl, rfl⟩ := h
    refine ⟨⟨[quote], rfl, lineFeeds_cons_of_ne hfeed []⟩, ?_⟩
    rw [escapedFeeds.eq_def]
    simp [hslash]
  -- an escape, which stands for a character and so is no line feed
  | case6 =>
    rename_i e cs x hx content' rest' rows' hr _ ih
    simp only [Except.ok.injEq, Prod.mk.injEq] at h
    obtain ⟨-, rfl, rfl⟩ := h
    obtain ⟨⟨taken, rfl, hrows⟩, hescaped⟩ := ih hr
    have he := ne_lineFeed_of_escapedChar? hx
    refine ⟨⟨'\\' :: e :: taken, rfl, ?_⟩, ?_⟩
    · rw [lineFeeds_cons_of_ne (by decide), lineFeeds_cons_of_ne he, hrows]
    · rw [escapedFeeds.eq_def]
      simp [lineFeeds_cons_of_ne he, hescaped]
  -- any other character, a line feed among them, is counted
  | case8 =>
    rename_i c cs hc hs row content' rest' rows' hr ih
    simp only [Except.ok.injEq, Prod.mk.injEq] at h
    obtain ⟨-, rfl, rfl⟩ := h
    obtain ⟨⟨taken, rfl, hrows⟩, hescaped⟩ := ih hr
    refine ⟨⟨c :: taken, rfl, ?_⟩, ?_⟩
    · rw [lineFeeds_cons, hrows, Nat.add_comm]
    · rw [escapedFeeds.eq_def]
      simp [hc, hs, hescaped]

/-- What is passed over without a quote has no escaped line feeds. -/
theorem Passes.escapedFeeds (h : Passes isQuote cs rest) :
    Stencil.escapedFeeds none cs = Stencil.escapedFeeds none rest := by
  obtain ⟨taken, rfl, htaken⟩ := h
  induction taken with
  | nil => rfl
  | cons c taken ih =>
    obtain ⟨hc, htaken⟩ := List.forall_mem_cons.1 htaken
    have hquote : ¬ (c = '\x22' ∨ c = '\x27') := hc
    rw [← ih htaken, List.cons_append, Stencil.escapedFeeds.eq_def]
    simp only [if_neg hquote]

/-- **One token.** It counts the line feeds that it takes, and none of them is escaped. -/
theorem takes_scanLexeme (h : scanLexeme c cs = .ok (lexeme, rest, rows)) :
    (∃ taken, cs = taken ++ rest ∧ lineFeeds (c :: taken) = rows) ∧
      escapedFeeds none (c :: cs) = escapedFeeds none rest := by
  -- All but a string literal are passed over without a line feed.
  have hplain (hfeeds : Passes (· = '\n') (c :: cs) rest) (hlength : rest.length ≤ cs.length) :
      ∃ taken, cs = taken ++ rest ∧ lineFeeds (c :: taken) = 0 := by
    obtain ⟨taken, heq, htaken⟩ := hfeeds.lineFeeds
    cases taken with
    | nil =>
      have := congrArg List.length heq
      simp only [List.length_cons, List.nil_append] at this
      omega
    | cons d taken =>
      obtain ⟨rfl, rfl⟩ := List.cons.inj heq
      exact ⟨taken, rfl, htaken⟩
  have hlength := lexeme_rest_length h
  have hquotes {p : Char → Bool} (hp : ['\x22', '\x27', '(', ')'].all (fun c => !p c) = true)
      (c : Char) (hc : p c = true) : ¬ isQuote c := fun hq => not_marks_of hp c hc (.inl hq)
  unfold scanLexeme at h
  split at h
  -- a word
  · rename_i hstart
    simp only [Except.ok.injEq, Prod.mk.injEq] at h
    obtain ⟨-, rfl, rfl⟩ := h
    have hquote : ¬ isQuote c := hquotes (p := isWordStart) (by decide +kernel) c hstart
    have hfeed : c ≠ '\n' := ne_lineFeed_of (p := isWordStart) (by decide +kernel) c hstart
    exact ⟨hplain (.cons hfeed (passes_dropWhile (ne_lineFeed_of (by decide +kernel)) cs)) hlength,
      Passes.escapedFeeds (.cons hquote (passes_dropWhile (hquotes (by decide +kernel)) cs))⟩
  · split at h
    -- a number
    · split at h
      · cases h
      · rename_i hn
        simp only [Except.ok.injEq, Prod.mk.injEq] at h
        obtain ⟨-, rfl, rfl⟩ := h
        have hfeeds := passes_scanNumber (ne_lineFeed_of (p := isNumeral) (by decide +kernel)) hn
        have hescaped := passes_scanNumber (hquotes (p := isNumeral) (by decide +kernel)) hn
        exact ⟨hplain hfeeds hlength, hescaped.escapedFeeds⟩
    · split at h
      -- a string literal, which is the only token with line feeds
      · rename_i hq
        split at h
        · cases h
        · rename_i hs
          simp only [Except.ok.injEq, Prod.mk.injEq] at h
          obtain ⟨-, rfl, rfl⟩ := h
          obtain ⟨⟨taken, rfl, hrows⟩, hescaped⟩ := takes_scanString hq hs
          have hfeed : c ≠ '\n' := by rcases hq with rfl | rfl <;> decide
          refine ⟨⟨taken, rfl, (lineFeeds_cons_of_ne hfeed taken).trans hrows⟩, ?_⟩
          rw [escapedFeeds.eq_def]
          simpa only [if_pos hq] using hescaped
      · rename_i hq
        -- a mark
        split at h
        · rename_i hp
          simp only [Except.ok.injEq, Prod.mk.injEq] at h
          obtain ⟨-, rfl, rfl⟩ := h
          have hfeeds : Passes (· = '\n') (c :: cs) _ :=
            passes_scanPunct (by decide) (by decide) hp
          have hescaped : Passes (fun c => c = '\x22' ∨ c = '\x27') (c :: cs) _ :=
            passes_scanPunct (by decide) (by decide) hp
          exact ⟨hplain hfeeds hlength, Passes.escapedFeeds hescaped⟩
        · cases h

/-! ### Tokens in their rows -/

/-- `TokensOf front text ts`: the tokens of a text that stands behind `front`. Between them are
blanks, and the row of each is one more than the line feeds in front of it. -/
inductive TokensOf : List Char → List Char → List Token → Prop
  | nil {front blanks : List Char} : (∀ d ∈ blanks, Text.isBlank d = true) →
      TokensOf front blanks []
  | cons {front blanks taken rest : List Char} {c : Char} {lexeme : Lexeme} {rows : Nat}
      {ts : List Token} : (∀ d ∈ blanks, Text.isBlank d = true) → Text.isBlank c = false →
      scanLexeme c (taken ++ rest) = .ok (lexeme, rest, rows) →
      TokensOf (front ++ blanks ++ c :: taken) rest ts →
      TokensOf front (blanks ++ c :: (taken ++ rest))
        (⟨lexeme, 1 + lineFeeds (front ++ blanks)⟩ :: ts)

/-- What the blanks at the front of a text are, and what follows them. -/
theorem blanks_span (text : List Char) :
    text = text.takeWhile Text.isBlank ++ text.dropWhile Text.isBlank ∧
      (∀ d ∈ text.takeWhile Text.isBlank, Text.isBlank d = true) ∧
      ∀ c ∈ (text.dropWhile Text.isBlank).head?, Text.isBlank c = false :=
  ⟨List.takeWhile_append_dropWhile.symm, (isRun_span Text.isBlank text).all,
    (isRun_span Text.isBlank text).ends⟩

/-- **Tokens are scanned in their rows.** -/
theorem tokensOf_scanTokens {ts : List Token} {row last : Nat}
    (h : scanTokens row text = .ok (ts, last)) (hrow : row = 1 + lineFeeds front) :
    TokensOf front text ts := by
  fun_induction scanTokens row text generalizing front ts last with
  | case1 row text start =>
    -- only blanks are left
    rename_i hrest
    simp only [Except.ok.injEq, Prod.mk.injEq] at h
    obtain ⟨rfl, -⟩ := h
    obtain ⟨heq, hblanks, -⟩ := blanks_span text
    rw [hrest, List.append_nil] at heq
    rw [heq]
    exact .nil hblanks
  -- a text that is refused has no tokens
  | case2 | case3 => cases h
  | case4 row text start c cs hrest lexeme rest rows hlex tokens last' hr =>
    rename_i ih
    simp only [Except.ok.injEq, Prod.mk.injEq] at h
    obtain ⟨rfl, -⟩ := h
    obtain ⟨heq, hblanks, hends⟩ := blanks_span text
    rw [hrest] at heq hends
    -- what the token takes has as many line feeds as rows are counted
    obtain ⟨⟨taken, rfl, hrows⟩, -⟩ := takes_scanLexeme hlex
    have hstart : start = 1 + lineFeeds (front ++ text.takeWhile Text.isBlank) := by
      rw [lineFeeds_append, ← Nat.add_assoc, ← hrow]
    have hnext : start + rows =
        1 + lineFeeds (front ++ text.takeWhile Text.isBlank ++ c :: taken) := by
      rw [lineFeeds_append, ← Nat.add_assoc, ← hstart, hrows]
    have htokens := TokensOf.cons hblanks (hends c rfl) hlex (ih hr hnext)
    rwa [← heq, ← hstart] at htokens

/-- A token stands where its row says. -/
theorem TokensOf.exists_of_mem {ts : List Token} (h : TokensOf front text ts) {t : Token}
    (ht : t ∈ ts) : ∃ before c cs rest rows, front ++ text = before ++ c :: cs ∧
      scanLexeme c cs = .ok (t.lexeme, rest, rows) ∧ t.row = 1 + lineFeeds before := by
  induction h with
  | nil => exact absurd ht List.not_mem_nil
  | @cons front blanks taken rest c lexeme rows ts _ _ hlex _ ih =>
    rcases List.mem_cons.1 ht with rfl | ht
    · exact ⟨front ++ blanks, c, taken ++ rest, rest, rows, by simp, hlex, rfl⟩
    · obtain ⟨before, c', cs, rest', rows', heq, hlex', hrow⟩ := ih ht
      refine ⟨before, c', cs, rest', rows', ?_, hlex', hrow⟩
      rw [← heq]
      simp

/-- A text that is scanned for tokens has no escaped line feeds. -/
theorem escapedFeeds_of_scanTokens {ts : List Token} {row last : Nat}
    (h : scanTokens row text = .ok (ts, last)) : escapedFeeds none text = 0 := by
  have hblanks (text : List Char) :
      escapedFeeds none text = escapedFeeds none (text.dropWhile Text.isBlank) :=
    Passes.escapedFeeds (passes_dropWhile
      (fun c hc hq => not_marks_of (p := Text.isBlank) (by decide +kernel) c hc (.inl hq)) text)
  fun_induction scanTokens row text generalizing ts last with
  | case1 row text start =>
    rename_i hrest
    rw [hblanks, hrest]
    rfl
  | case2 | case3 => cases h
  | case4 row text start c cs hrest lexeme rest rows hlex tokens last' hr =>
    rename_i ih
    rw [hblanks, hrest, (takes_scanLexeme hlex).2]
    exact ih hr

end Stencil
