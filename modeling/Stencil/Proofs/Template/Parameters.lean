import Mathlib
import Stencil.Assoc
import Stencil.Proofs.Template.Trimming

/-!
# Parameters as tokens

The parameters of a tag are read twice: as characters, to find the parenthesis that closes them,
and as tokens of an expression. Both readings agree on what is a string literal and on the
parentheses outside of string literals.

* `Closing depth text` is the common view: from a point between two tokens, with `depth` open
  parentheses, `text` is a sequence of string literals, parentheses and other characters that
  closes exactly these. The parameters of every tag are `Closing 0` (`Balanced.closing`).
* `Closing.lexeme`: scanning one token goes from one such point to another, and changes the depth
  as the token says. A token that is no string literal and no parenthesis takes none of their
  characters (`Passes Marks`).

Main statement: `parameters_tokens_balanced`.
-/

namespace Stencil

/-! ### The parameters of tags -/

/-- The text of the parameters of a tag. -/
def Tag.parameters? : Tag → Option String
  | directive _ parameters => parameters
  | call _ _ parameters | define _ parameters => some parameters

/-- The parameters of a tag are balanced, in quotes and parentheses. -/
theorem TagReads.balanced {cs rest : List Char} {tag : Tag} {parameters : String}
    (h : TagReads cs tag rest) (hp : tag.parameters? = some parameters) :
    Balanced parameters.toList := by
  cases h with
  | output hb =>
    obtain rfl := Option.some.inj hp
    simpa using hb
  | call _ _ _ ha | define _ _ _ _ ha | named _ _ _ _ _ ha =>
    obtain ⟨-, hb⟩ := ha
    obtain rfl := Option.some.inj hp
    simpa using hb
  | plain => simp [Tag.parameters?] at hp

/-- The tags of a text have been read from it. -/
theorem Reads.balanced {text : List Char} {rs : List Region} {tag : Tag} {parameters : String}
    (h : Reads text rs) (ht : .tag tag ∈ rs) (hp : tag.parameters? = some parameters) :
    Balanced parameters.toList := by
  obtain ⟨cs, rest, htag⟩ := h.exists_tagReads ht
  exact htag.balanced hp

/-- Laying out adds no tags to those of the text. -/
theorem exists_reads_of_mem_itemsOf {keep : List String} {text : List Char} {items : List Item}
    {tag : Tag} {row : Nat} (h : itemsOf keep text = .ok items) (ht : .tag tag row ∈ items) :
    ∃ regions, Reads text regions ∧ .tag tag ∈ regions := by
  rw [itemsOf] at h
  cases hp : cutTemplate text with
  | error e => simp [hp, Except.map] at h
  | ok pieces =>
    obtain rfl : (Layer.addAll keep {} pieces).items = items := by
      simpa [hp, Except.map] using h
    -- a tag among the items is one of those that the layer has, and these are tags of the text
    have hmem :
        Region.tag tag ∈ solids ((Layer.addAll keep {} pieces).items.flatMap Item.regions) :=
      List.mem_filter.2 ⟨List.mem_flatMap.2 ⟨_, ht, by simp [Item.regions]⟩, rfl⟩
    rw [Layer.regions_items] at hmem
    have hkept := (Layer.tracks_empty.addAll keep pieces).sublist.subset hmem
    exact ⟨_, reads_of_cutFrom hp, (List.mem_filter.1 hkept).1⟩

/-! ### Closing texts -/

/-- A text that closes `depth` open parentheses and no others, read from the front: a string
literal as a whole, any other character on its own. -/
inductive Closing : Nat → List Char → Prop
  | nil : Closing 0 []
  | plain {depth : Nat} {c : Char} {cs : List Char} :
      ¬ isQuote c → c ≠ '(' → c ≠ ')' → Closing depth cs → Closing depth (c :: cs)
  | string {depth : Nat} {q : Char} {body cs : List Char} :
      isQuote q → Literal q body → Closing depth cs → Closing depth (q :: (body ++ q :: cs))
  | opened {depth : Nat} {cs : List Char} : Closing (depth + 1) cs → Closing depth ('(' :: cs)
  | closed {depth : Nat} {cs : List Char} : Closing depth cs → Closing (depth + 1) (')' :: cs)

/-- A balanced text in front closes what it opens. -/
theorem Balanced.closing_append {front : List Char} (h : Balanced front) {depth : Nat}
    {cs : List Char} (hc : Closing depth cs) : Closing depth (front ++ cs) := by
  induction h generalizing depth cs with
  | nil => exact hc
  | plain hq ho hcl _ ih => exact .plain hq ho hcl (ih hc)
  | string hq hb _ ih =>
    rw [List.cons_append, List.append_assoc, List.cons_append]
    exact .string hq hb (ih hc)
  | group _ _ ihi iht =>
    rw [List.cons_append, List.append_assoc, List.cons_append]
    exact .opened (ihi (.closed (iht hc)))

theorem Balanced.closing {text : List Char} (h : Balanced text) : Closing 0 text := by
  simpa using h.closing_append .nil

/-- Whether a character begins a string literal or is a parenthesis. -/
def Marks (c : Char) : Prop := isQuote c ∨ c = '(' ∨ c = ')'

instance : DecidablePred Marks := fun _ => inferInstanceAs (Decidable ((_ ∨ _) ∨ _ ∨ _))

/-! ### The first character of a closing text -/

/-- Behind a character without a meaning, what follows closes as many parentheses. -/
theorem Closing.behind_plain {depth : Nat} {c : Char} {cs : List Char}
    (h : Closing depth (c :: cs)) (hc : ¬ Marks c) : Closing depth cs := by
  cases h with
  | plain _ _ _ h => exact h
  | string hq => exact absurd (.inl hq) hc
  | opened => exact absurd (.inr (.inl rfl)) hc
  | closed => exact absurd (.inr (.inr rfl)) hc

/-- Behind a quote, a string literal stands, and what follows closes as many parentheses. -/
theorem Closing.behind_quote {depth : Nat} {q : Char} {cs : List Char}
    (h : Closing depth (q :: cs)) (hq : isQuote q) :
    ∃ body tail, cs = body ++ q :: tail ∧ Literal q body ∧ Closing depth tail := by
  cases h with
  | plain hn => exact absurd hq hn
  | string _ hb h => exact ⟨_, _, rfl, hb, h⟩
  | opened | closed => rcases hq with hq | hq <;> simp at hq

/-- Behind an opening parenthesis, one more is open. -/
theorem Closing.behind_opening {depth : Nat} {cs : List Char} (h : Closing depth ('(' :: cs)) :
    Closing (depth + 1) cs := by
  cases h with
  | plain _ hn => exact absurd rfl hn
  | string hq => rcases hq with hq | hq <;> simp at hq
  | opened h => exact h

/-- Behind a closing parenthesis, one less is open. -/
theorem Closing.behind_closing {depth : Nat} {cs : List Char} (h : Closing depth (')' :: cs)) :
    ∃ outer, depth = outer + 1 ∧ Closing outer cs := by
  cases h with
  | plain _ _ hn => exact absurd rfl hn
  | string hq => rcases hq with hq | hq <;> simp at hq
  | closed h => exact ⟨_, rfl, h⟩

/-! ### Characters without a meaning to both readings -/

/-- A text, and what is left of it behind characters that are not in a class, such as those that
are neither quotes nor parentheses. -/
def Passes (stops : Char → Prop) (cs rest : List Char) : Prop :=
  ∃ front, cs = front ++ rest ∧ ∀ c ∈ front, ¬ stops c

section

variable {stops : Char → Prop}

theorem Passes.refl (cs : List Char) : Passes stops cs cs := ⟨[], rfl, by simp⟩

/-- One part of the text is passed after the other. -/
theorem Passes.trans {a b c : List Char} (h₁ : Passes stops a b) (h₂ : Passes stops b c) :
    Passes stops a c := by
  obtain ⟨front₁, rfl, hf₁⟩ := h₁
  obtain ⟨front₂, rfl, hf₂⟩ := h₂
  refine ⟨front₁ ++ front₂, by simp, fun x hx => ?_⟩
  exact (List.mem_append.1 hx).elim (hf₁ x) (hf₂ x)

/-- One character is passed. -/
theorem Passes.cons {c : Char} {cs rest : List Char} (hc : ¬ stops c) (h : Passes stops cs rest) :
    Passes stops (c :: cs) rest := by
  obtain ⟨front, rfl, hf⟩ := h
  exact ⟨c :: front, rfl, by simpa [hc] using hf⟩

/-- A run of characters is passed. -/
theorem passes_dropWhile {p : Char → Bool} (hp : ∀ c, p c = true → ¬ stops c) (cs : List Char) :
    Passes stops cs (cs.dropWhile p) :=
  ⟨cs.takeWhile p, List.takeWhile_append_dropWhile.symm,
    fun _ hc => hp _ (List.mem_takeWhile_imp hc)⟩

/-- One character of a class is passed, if it is there. -/
theorem passes_takeIf {p : Char → Bool} (hp : ∀ c, p c = true → ¬ stops c) (cs : List Char) :
    Passes stops cs (takeIf p cs).2 := by
  cases cs with
  | nil => exact .refl _
  | cons c cs =>
    rw [takeIf]
    split
    · exact .cons (hp c ‹_›) (.refl cs)
    · exact .refl _

end

/-- A class of characters that leaves the quotes and the parentheses out. -/
theorem not_marks_of {p : Char → Bool}
    (hp : ['\x22', '\x27', '(', ')'].all (fun c => !p c) = true) (c : Char) (hc : p c = true) :
    ¬ Marks c := by
  simp only [List.all_cons, List.all_nil, Bool.and_true, Bool.and_eq_true, Bool.not_eq_true'] at hp
  rintro ((rfl | rfl) | rfl | rfl) <;> simp_all

/-- The characters of words have no meaning to the parentheses. -/
theorem not_marks_of_isWordChar : ∀ c, isWordChar c = true → ¬ Marks c :=
  not_marks_of (by decide +kernel)

/-- What is passed closes nothing. -/
theorem Closing.pass {depth : Nat} {cs rest : List Char} (h : Closing depth cs)
    (hp : Passes Marks cs rest) : Closing depth rest := by
  obtain ⟨front, rfl, hf⟩ := hp
  induction front with
  | nil => exact h
  | cons c front ih =>
    rw [List.forall_mem_cons] at hf
    exact ih hf.2 (h.behind_plain hf.1)

theorem Closing.behind_blanks {depth : Nat} {text rest : List Char} (h : Closing depth text)
    (hrest : text.dropWhile Text.isBlank = rest) : Closing depth rest :=
  hrest ▸ h.pass (passes_dropWhile (not_marks_of (by decide +kernel)) text)

/-! ### Numbers -/

/-- Whether the scanners of numbers look for a character. -/
def isNumeral (c : Char) : Bool :=
  isWordChar c || isHexDigit c || isSuffix c || endsHex c || c ∈ ['.', '+', '-', 'e', 'E']

theorem isNumeral_of_isDigit {c : Char} (hc : c.isDigit = true) : isNumeral c = true := by
  simp [isNumeral, isHexDigit, hc]

section

variable {stops : Char → Prop} (hstops : ∀ c, isNumeral c = true → ¬ stops c)
include hstops

/-- The fraction of a number is passed. -/
theorem passes_scanFraction (cs : List Char) :
    Passes stops cs (DecimalLiteral.scanFraction cs).2 := by
  unfold DecimalLiteral.scanFraction
  split
  · split
    · exact .cons (hstops _ (by decide))
        (passes_dropWhile (fun c hc => hstops c (isNumeral_of_isDigit hc)) _)
    · exact .refl _
  · exact .refl _

omit hstops in
/-- The mark of an exponent is in front of the text, with its sign. -/
theorem exponentMark_spec (cs : List Char) :
    DecimalLiteral.exponentMark cs <+: cs ∧
      ∀ c ∈ DecimalLiteral.exponentMark cs, c = 'e' ∨ c = 'E' ∨ c = '+' ∨ c = '-' := by
  unfold DecimalLiteral.exponentMark
  split
  -- a letter and a sign, or a letter and a digit, or no exponent
  · split
    · split
      · exact ⟨by simp, by simp_all; tauto⟩
      · split
        · exact ⟨by simp, by simp_all; tauto⟩
        · simp
    · simp
  · split
    · exact ⟨by simp, by simp_all; tauto⟩
    · simp
  · simp

/-- The exponent of a number is passed. -/
theorem passes_scanExponent (cs : List Char) :
    Passes stops cs (DecimalLiteral.scanExponent cs).2 := by
  obtain ⟨hleft, hmark⟩ := exponentMark_spec cs
  unfold DecimalLiteral.scanExponent
  split
  · exact .refl _
  · have hdrop : Passes stops cs (cs.drop (DecimalLiteral.exponentMark cs).length) := by
      refine ⟨_, (List.prefix_iff_eq_append.1 hleft).symm, fun c hc => ?_⟩
      rcases hmark c hc with rfl | rfl | rfl | rfl <;> exact hstops _ (by decide)
    exact hdrop.trans (passes_dropWhile (fun c hc => hstops c (isNumeral_of_isDigit hc)) _)

/-- A decimal number is passed. -/
theorem passes_scanDecimal {cs literal rest : List Char} {v : Value}
    (h : scanDecimal cs = .ok (literal, v, rest)) : Passes stops cs rest := by
  -- the digits, the fraction and the exponent, a suffix, and the end of the word
  have hdigits : Passes stops cs (cs.dropWhile Char.isDigit) :=
    passes_dropWhile (fun c hc => hstops c (isNumeral_of_isDigit hc)) cs
  have hscan : Passes stops cs (DecimalLiteral.scan cs).2 :=
    (hdigits.trans (passes_scanFraction hstops _)).trans (passes_scanExponent hstops _)
  have hsuffix : Passes stops _ (takeIf isSuffix (DecimalLiteral.scan cs).2).2 :=
    passes_takeIf (fun c hc => hstops c (by simp [isNumeral, hc])) (DecimalLiteral.scan cs).2
  have hend : Passes stops _ (takeIf isWordChar (takeIf isSuffix (DecimalLiteral.scan cs).2).2).2 :=
    passes_takeIf (fun c hc => hstops c (by simp [isNumeral, hc])) _
  unfold scanDecimal at h
  simp only at h
  split at h
  -- a number that goes on as a word is refused
  · simp at h
  · rename_i hstop
    split at h
    · simp only [Except.ok.injEq, Prod.mk.injEq] at h
      obtain ⟨-, -, rfl⟩ := h
      rw [hstop] at hend
      exact (hscan.trans hsuffix).trans hend
    · simp at h

/-- A hex number is passed. -/
theorem passes_scanHex {mark cs literal rest : List Char} {v : Value}
    (h : scanHex mark cs = .ok (literal, v, rest)) : Passes stops cs rest := by
  -- the digits, a suffix, and the end of the number
  have hdigits : Passes stops cs (cs.dropWhile isHexDigit) :=
    passes_dropWhile (fun c hc => hstops c (by simp [isNumeral, hc])) cs
  have hsuffix : Passes stops (cs.dropWhile isHexDigit)
      (takeIf (fun c => c == 'L' || c == 'l') (cs.dropWhile isHexDigit)).2 := by
    refine passes_takeIf (fun c hc => ?_) (cs.dropWhile isHexDigit)
    obtain rfl | rfl : c = 'L' ∨ c = 'l' := by simpa using hc
    · exact hstops _ (by decide)
    · exact hstops _ (by decide)
  have hend : Passes stops _
      (takeIf endsHex (takeIf (fun c => c == 'L' || c == 'l') (cs.dropWhile isHexDigit)).2).2 :=
    passes_takeIf (fun c hc => hstops c (by simp [isNumeral, hc])) _
  unfold scanHex at h
  simp only at h
  split at h
  · simp at h
  · split at h
    · simp at h
    · rename_i hstop
      split at h
      · simp only [Except.ok.injEq, Prod.mk.injEq] at h
        obtain ⟨-, -, rfl⟩ := h
        rw [hstop] at hend
        exact (hdigits.trans hsuffix).trans hend
      · simp at h

/-- A number is passed. -/
theorem passes_scanNumber {cs literal rest : List Char} {v : Value}
    (h : scanNumber cs = .ok (literal, v, rest)) : Passes stops cs rest := by
  unfold scanNumber at h
  split at h
  · rename_i x _
    split at h
    · rename_i hx
      have hmark : ¬ stops x := by rcases hx with rfl | rfl <;> exact hstops _ (by decide)
      exact .cons (hstops _ (by decide)) (.cons hmark (passes_scanHex hstops h))
    · exact passes_scanDecimal hstops h
  · exact passes_scanDecimal hstops h

end

/-- A decimal number is refused as a number. -/
theorem scanDecimal_fault {cs : List Char} {fault : ParseFault}
    (h : scanDecimal cs = .error fault) : ∃ literal reason, fault = badNumber literal reason := by
  unfold scanDecimal at h
  simp only at h
  split at h
  · exact ⟨_, _, (Except.error.inj h).symm⟩
  · split at h
    · simp at h
    · exact ⟨_, _, (Except.error.inj h).symm⟩

/-- A hex number is refused as a number. -/
theorem scanHex_fault {mark cs : List Char} {fault : ParseFault}
    (h : scanHex mark cs = .error fault) : ∃ literal reason, fault = badNumber literal reason := by
  unfold scanHex at h
  simp only at h
  split at h
  · exact ⟨_, _, (Except.error.inj h).symm⟩
  · split at h
    · exact ⟨_, _, (Except.error.inj h).symm⟩
    · split at h
      · simp at h
      · exact ⟨_, _, (Except.error.inj h).symm⟩

/-- A number is refused as a number. -/
theorem scanNumber_fault {cs : List Char} {fault : ParseFault}
    (h : scanNumber cs = .error fault) : ∃ literal reason, fault = badNumber literal reason := by
  unfold scanNumber at h
  split at h
  · split at h
    · exact scanHex_fault h
    · exact scanDecimal_fault h
  · exact scanDecimal_fault h

/-! ### Strings -/

/-- A literal ends where its text does, if its escapes are good. -/
theorem scanString_literal {q : Char} {body : List Char} (hq : isQuote q) (h : Literal q body)
    (rest : List Char) :
    (∃ content rows, scanString q (body ++ q :: rest) = .ok (content, rest, rows)) ∨
      ∃ c rows, scanString q (body ++ q :: rest) = .error (badEscape c, rows) := by
  -- the quote at the end is taken as such, since it is neither a backslash nor escaped
  have hslash : q ≠ '\\' := by rcases hq with rfl | rfl <;> decide
  induction h with
  | nil => exact .inl ⟨[], 0, by rw [List.nil_append, scanString.eq_def]; simp⟩
  | @escaped body e _ ih =>
    rw [List.cons_append, List.cons_append, scanString.eq_def]
    simp only [hslash.symm, if_true, if_false]
    cases he : escapedChar? e with
    | none => exact .inr ⟨e, 0, rfl⟩
    | some x =>
      rcases ih with ⟨content, rows, ih⟩ | ⟨c, rows, ih⟩
      · exact .inl ⟨x :: content, rows, by rw [ih]⟩
      · exact .inr ⟨c, rows, by rw [ih]⟩
  | @plain c body hcq hcs _ ih =>
    rw [List.cons_append, scanString.eq_def]
    simp only [hcq, hcs, if_false]
    rcases ih with ⟨content, rows, ih⟩ | ⟨c', rows, ih⟩
    · exact .inl ⟨c :: content, _, by rw [ih]⟩
    · exact .inr ⟨c', _, by rw [ih]⟩

/-! ### Punctuation -/

/-- Marks of two characters have no parentheses. -/
theorem doubleMarks_spec : ∀ entry ∈ doubleMarks,
    ¬ Marks entry.1.1 ∧ ¬ Marks entry.1.2 ∧ entry.2 ≠ .lparen ∧ entry.2 ≠ .rparen := by
  decide

/-- A mark of one character is a parenthesis exactly if the character is. -/
theorem singleMarks_spec : ∀ entry ∈ singleMarks,
    (entry.1 = '(' ∧ entry.2 = .lparen) ∨ (entry.1 = ')' ∧ entry.2 = .rparen) ∨
      (¬ Marks entry.1 ∧ entry.2 ≠ .lparen ∧ entry.2 ≠ .rparen) := by
  decide

/-- A mark is a parenthesis, or has no meaning to the parentheses. -/
theorem scanPunct_spec {c : Char} {cs rest : List Char} {mark : Punct}
    (h : scanPunct c cs = some (mark, rest)) :
    (c = '(' ∧ mark = .lparen ∧ rest = cs) ∨ (c = ')' ∧ mark = .rparen ∧ rest = cs) ∨
      (mark ≠ .lparen ∧ mark ≠ .rparen ∧ Passes Marks (c :: cs) rest) := by
  rcases scanPunct_eq_some h with ⟨d, rfl, hmem⟩ | ⟨rfl, hmem⟩
  · obtain ⟨hc, hd, hl, hr⟩ := doubleMarks_spec _ hmem
    exact .inr (.inr ⟨hl, hr, .cons hc (.cons hd (.refl rest))⟩)
  · rcases singleMarks_spec _ hmem with ⟨rfl, rfl⟩ | ⟨rfl, rfl⟩ | ⟨hc, hl, hr⟩
    · exact .inl ⟨rfl, rfl, rfl⟩
    · exact .inr (.inl ⟨rfl, rfl, rfl⟩)
    · exact .inr (.inr ⟨hl, hr, .cons hc (.refl _)⟩)

/-! ### One token -/

/-- Whether a token is a given mark. -/
def Lexeme.isMark (mark : Punct) : Lexeme → Bool
  | punct p => p == mark
  | _ => false

/-- The number of open parentheses in front of a token and behind it. -/
def Lexeme.Turns (lexeme : Lexeme) (before after : Nat) : Prop :=
  after + (lexeme.isMark .rparen).toNat = before + (lexeme.isMark .lparen).toNat

/-- A token that is no parenthesis leaves as many open. -/
theorem Lexeme.turns_of_not_isMark {lexeme : Lexeme} (hl : lexeme.isMark .lparen = false)
    (hr : lexeme.isMark .rparen = false) (depth : Nat) : lexeme.Turns depth depth := by
  rw [Turns, hl, hr]

/-- A word is no parenthesis. -/
theorem Lexeme.isMark_ofWord (word : String) (mark : Punct) :
    (Lexeme.ofWord word).isMark mark = false := by
  unfold Lexeme.ofWord
  split
  · rfl
  · split
    · rfl
    · split <;> rfl

/-- **One token.** Scanning a token of a closing text leaves a closing text, with as many open
parentheses as the token says. -/
theorem Closing.lexeme {depth : Nat} {c : Char} {cs rest : List Char} {lexeme : Lexeme}
    {rows : Nat} (h : Closing depth (c :: cs)) (hs : scanLexeme c cs = .ok (lexeme, rest, rows)) :
    ∃ after, lexeme.Turns depth after ∧ Closing after rest := by
  unfold scanLexeme at hs
  split at hs
  · -- A word.
    rename_i hstart
    simp only [Except.ok.injEq, Prod.mk.injEq] at hs
    obtain ⟨rfl, rfl, -⟩ := hs
    have hc : ¬ Marks c := not_marks_of (p := isWordStart) (by decide +kernel) c hstart
    exact ⟨depth, Lexeme.turns_of_not_isMark (Lexeme.isMark_ofWord ..) (Lexeme.isMark_ofWord ..) _,
      (h.behind_plain hc).pass (passes_dropWhile not_marks_of_isWordChar cs)⟩
  · split at hs
    · -- A number.
      split at hs
      · simp at hs
      · rename_i hn
        simp only [Except.ok.injEq, Prod.mk.injEq] at hs
        obtain ⟨rfl, rfl, -⟩ := hs
        have hpass := passes_scanNumber (not_marks_of (p := isNumeral) (by decide +kernel)) hn
        exact ⟨depth, rfl, h.pass hpass⟩
    · split at hs
      · -- A string literal.
        rename_i hq
        obtain ⟨body, tail, rfl, hb, ht⟩ := h.behind_quote hq
        rcases scanString_literal hq hb tail with ⟨content, n, hn⟩ | ⟨e, n, hn⟩
        · rw [hn] at hs
          simp only [Except.ok.injEq, Prod.mk.injEq] at hs
          obtain ⟨rfl, rfl, -⟩ := hs
          exact ⟨depth, rfl, ht⟩
        · simp [hn] at hs
      · -- A mark.
        split at hs
        · rename_i hp
          simp only [Except.ok.injEq, Prod.mk.injEq] at hs
          obtain ⟨rfl, rfl, -⟩ := hs
          rcases scanPunct_spec hp with ⟨rfl, rfl, rfl⟩ | ⟨rfl, rfl, rfl⟩ | ⟨hl, hr, hpass⟩
          · exact ⟨depth + 1, rfl, h.behind_opening⟩
          · obtain ⟨outer, rfl, ht⟩ := h.behind_closing
            exact ⟨outer, rfl, ht⟩
          · exact ⟨depth, Lexeme.turns_of_not_isMark (by simpa [Lexeme.isMark] using hl)
              (by simpa [Lexeme.isMark] using hr) _, h.pass hpass⟩
        · simp at hs

/-- The string literals of a closing text are terminated. -/
theorem Closing.scanLexeme_ne {depth : Nat} {c : Char} {cs : List Char}
    (h : Closing depth (c :: cs)) (what : String) (rows : Nat) :
    scanLexeme c cs ≠ .error (.unterminated what, rows) := by
  intro hs
  unfold scanLexeme at hs
  split at hs
  -- a word is never refused
  · simp at hs
  · split at hs
    -- a number is refused as a number
    · split at hs
      · rename_i hn
        obtain ⟨literal, reason, rfl⟩ := scanNumber_fault hn
        simp [badNumber] at hs
      · simp at hs
    -- a string literal is refused for an escape only
    · split at hs
      · rename_i hq
        obtain ⟨body, tail, rfl, hb, -⟩ := h.behind_quote hq
        rcases scanString_literal hq hb tail with ⟨content, n, hn⟩ | ⟨e, n, hn⟩
        · simp [hn] at hs
        · simp [hn, badEscape] at hs
      · split at hs <;> simp at hs

/-! ### Whole texts -/

/-- The number of tokens that are a given mark. -/
def markCount (mark : Punct) (tokens : List Token) : Nat :=
  tokens.countP (·.lexeme.isMark mark)

/-- No tokens, no marks. -/
@[simp] theorem markCount_nil (mark : Punct) : markCount mark [] = 0 := rfl

/-- One more token, and one more mark if it is one. -/
@[simp] theorem markCount_cons (mark : Punct) (t : Token) (tokens : List Token) :
    markCount mark (t :: tokens) = markCount mark tokens + (t.lexeme.isMark mark).toNat := by
  rw [markCount, markCount, List.countP_cons]
  cases t.lexeme.isMark mark <;> rfl

/-- Tokens whose parentheses match, behind `depth` open ones. -/
structure MatchFrom (depth : Nat) (tokens : List Token) : Prop where
  /-- No prefix closes more parentheses than are open. -/
  prefix_le : ∀ front, front <+: tokens →
    markCount .rparen front ≤ depth + markCount .lparen front
  /-- Nothing stays open at the end. -/
  total_eq : markCount .rparen tokens = depth + markCount .lparen tokens

/-- No tokens match if nothing is open. -/
theorem matchFrom_nil : MatchFrom 0 [] where
  prefix_le front hfront := by
    obtain rfl := List.prefix_nil.1 hfront
    exact Nat.le_refl _
  total_eq := rfl

/-- One more token in front, which opens or closes a parenthesis at most. -/
theorem MatchFrom.cons {depth after : Nat} {t : Token} {tokens : List Token}
    (ht : t.lexeme.Turns depth after) (h : MatchFrom after tokens) :
    -- a prefix is empty, or it has the token in front of a prefix of the others
    MatchFrom depth (t :: tokens) := by
  rw [Lexeme.Turns] at ht
  constructor
  · intro front hfront
    rcases List.prefix_cons_iff.1 hfront with rfl | ⟨front, rfl, hf⟩
    · simp
    · have := h.prefix_le front hf
      rw [markCount_cons, markCount_cons]
      omega
  · have := h.total_eq
    rw [markCount_cons, markCount_cons]
    omega

/-- **A closing text.** By induction on the tokens, every string literal is terminated, and the
parentheses match behind those that are open. -/
theorem Closing.scanTokens {depth : Nat} {text : List Char} (h : Closing depth text)
    (row : Nat) :
    (∀ what line, scanTokens row text ≠ .error (.unterminated what, line)) ∧
      ∀ tokens last, scanTokens row text = .ok (tokens, last) → MatchFrom depth tokens := by
  fun_induction Stencil.scanTokens row text generalizing depth with
  | case1 row text start =>
    -- Only blanks are left, so nothing is open.
    rename_i hrest
    cases h.behind_blanks hrest
    refine ⟨by simp, fun tokens last hok => ?_⟩
    simp only [Except.ok.injEq, Prod.mk.injEq] at hok
    obtain ⟨rfl, -⟩ := hok
    exact matchFrom_nil
  | case2 row text start c cs hrest fault rows =>
    -- The first token is refused, but not as a string literal without an end.
    rename_i hlex
    refine ⟨fun what line hfault => ?_, by simp⟩
    simp only [Except.error.injEq, Prod.mk.injEq] at hfault
    obtain ⟨rfl, -⟩ := hfault
    exact (h.behind_blanks hrest).scanLexeme_ne what rows hlex
  | case3 row text start c cs hrest lexeme rest rows hlex fault hr =>
    rename_i ih
    obtain ⟨after, -, hafter⟩ := (h.behind_blanks hrest).lexeme hlex
    refine ⟨fun what line hfault => (ih hafter).1 what line ?_, by simp⟩
    rw [hr, hfault]
  | case4 row text start c cs hrest lexeme rest rows hlex tokens last hr =>
    rename_i ih
    obtain ⟨after, hturns, hafter⟩ := (h.behind_blanks hrest).lexeme hlex
    refine ⟨by simp, fun tokens' last' hok => ?_⟩
    simp only [Except.ok.injEq, Prod.mk.injEq] at hok
    obtain ⟨rfl, -⟩ := hok
    exact .cons hturns ((ih hafter).2 tokens last hr)

/-- **Parameters as tokens.** The parameters of every tag of a template have no string literal
that is not terminated; and where they are tokens at all, every prefix of the tokens has at least
as many opening parentheses as closing ones, and all of them together have as many. -/
theorem parameters_tokens_balanced {keep : List String} {text : List Char} {items : List Item}
    (hitems : itemsOf keep text = .ok items) {tag : Tag} {row : Nat}
    (htag : .tag tag row ∈ items) {parameters : String}
    (hparameters : tag.parameters? = some parameters) (start : Nat) :
    (∀ what line, scanTokens start parameters.toList ≠ .error (.unterminated what, line)) ∧
      ∀ tokens last, scanTokens start parameters.toList = .ok (tokens, last) →
        (∀ front, front <+: tokens → markCount .rparen front ≤ markCount .lparen front) ∧
          markCount .rparen tokens = markCount .lparen tokens := by
  obtain ⟨regions, hreads, hmem⟩ := exists_reads_of_mem_itemsOf hitems htag
  obtain ⟨hterminated, hmatch⟩ := (hreads.balanced hmem hparameters).closing.scanTokens start
  refine ⟨hterminated, fun tokens last hok => ?_⟩
  have h := hmatch tokens last hok
  exact ⟨fun front hfront => by simpa using h.prefix_le front hfront, by simpa using h.total_eq⟩

/-- A parenthesis and an escaped quote in a string literal, between parentheses that count. -/
theorem parameters_tokens_balanced_quoted :
    itemsOf [] "#f((a), '(\\'' + b)".toList =
        .ok [.tag (.directive "f" (some "(a), '(\\'' + b")) 1] ∧
      (∀ what line, scanTokens 1 "(a), '(\\'' + b".toList ≠ .error (.unterminated what, line)) ∧
      ∃ tokens last, scanTokens 1 "(a), '(\\'' + b".toList = .ok (tokens, last) ∧
        (∀ front, front <+: tokens → markCount .rparen front ≤ markCount .lparen front) ∧
        markCount .lparen tokens = 1 ∧ markCount .rparen tokens = 1 := by
  have hitems : itemsOf [] "#f((a), '(\\'' + b)".toList =
      .ok [.tag (.directive "f" (some "(a), '(\\'' + b")) 1] := by
    cbv
  have hcounts : ((scanTokens 1 "(a), '(\\'' + b".toList).map fun scanned =>
      (markCount .lparen scanned.1, markCount .rparen scanned.1)).toOption = some (1, 1) := by
    decide +kernel
  obtain ⟨hterminated, hmatch⟩ :=
    parameters_tokens_balanced hitems (List.mem_singleton_self _) rfl 1
  refine ⟨hitems, hterminated, ?_⟩
  cases hscan : scanTokens 1 "(a), '(\\'' + b".toList with
  | error fault =>
    rw [hscan] at hcounts
    simp [Except.map, Except.toOption] at hcounts
  | ok scanned =>
    rw [hscan] at hcounts
    have htotal : markCount .lparen scanned.1 = 1 ∧ markCount .rparen scanned.1 = 1 := by
      simpa [Except.map, Except.toOption] using hcounts
    exact ⟨scanned.1, scanned.2, rfl, (hmatch _ _ hscan).1, htotal⟩

end Stencil
