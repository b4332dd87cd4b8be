import Stencil.Proofs.Template.Layout
import Stencil.Proofs.Template.Likeness

/-!
# Line endings

A template whose lines end in a carriage return and a line feed has the structure of the one whose
lines end in line feeds. Every construct has its own rule for line breaks: comments up to the end of
the line stop in front of the pair, a line that is taken away is taken with both characters, and all
other constructs copy the pair.

* `Crlf cs cs'` relates a text without carriage returns to the one with a carriage return in front
  of every line feed. Each scanner takes related texts to related results, and leaves related texts.
* The rows of the pieces are not related: in a string literal the character behind a backslash is
  passed over, and if it is a line feed, it is not counted, while behind a carriage return it is.
* Layers of related items stay related, since the pair is blank where the line feed is.

Main definitions: `toCrlf`, `Crlf`, `AgreeUpToRows`.
Main statement: `itemsOf_toCrlf`.
-/

namespace Stencil

/-! ### Texts -/

/-- A text with a carriage return in front of every line feed. -/
def toCrlf (cs : List Char) : List Char :=
  cs.flatMap fun c => if c = '\n' then ['\r', '\n'] else [c]

/-- `Crlf cs cs'`: the text `cs` has no carriage returns, and `cs'` is `cs` with one in front of
every line feed. -/
inductive Crlf : List Char → List Char → Prop
  | nil : Crlf [] []
  | char {c : Char} {cs cs' : List Char} : c ≠ '\n' → c ≠ '\r' → Crlf cs cs' →
      Crlf (c :: cs) (c :: cs')
  | lineFeed {cs cs' : List Char} : Crlf cs cs' → Crlf ('\n' :: cs) ('\r' :: '\n' :: cs')

namespace Crlf

variable {cs cs' front front' : List Char} {c : Char} {p : Char → Bool}

/-- A text without carriage returns and its respelling. -/
theorem of_not_mem (h : '\r' ∉ cs) : Crlf cs (toCrlf cs) := by
  induction cs with
  | nil => exact .nil
  | cons c cs ih =>
    have hc : c ≠ '\r' := fun hc => h (hc ▸ List.mem_cons_self ..)
    have hcs : Crlf cs (toCrlf cs) := ih fun hmem => h (List.mem_cons_of_mem _ hmem)
    unfold toCrlf
    rw [List.flatMap_cons]
    by_cases hn : c = '\n'
    · subst hn
      exact .lineFeed hcs
    · rw [if_neg hn]
      exact .char hn hc hcs

/-- The respelling of a text is the one that `toCrlf` gives. -/
theorem eq_toCrlf (h : Crlf cs cs') : cs' = toCrlf cs := by
  induction h with
  | nil => rfl
  | char hn _ _ ih =>
    unfold toCrlf
    rw [List.flatMap_cons, if_neg hn, ih]
    rfl
  | lineFeed _ ih => rw [ih]; rfl

/-- Texts are respelled part by part. -/
theorem append (hf : Crlf front front') (h : Crlf cs cs') : Crlf (front ++ cs) (front' ++ cs') := by
  induction hf with
  | nil => exact h
  | char hn hr _ ih => exact .char hn hr ih
  | lineFeed _ ih => exact .lineFeed ih

/-- A character that is no line break is not respelled. -/
theorem singleton (hn : c ≠ '\n') (hr : c ≠ '\r') : Crlf [c] [c] := .char hn hr .nil

/-- No text is respelled as the empty one, nor the empty one as another. -/
theorem isEmpty_eq (h : Crlf cs cs') : cs'.isEmpty = cs.isEmpty := by cases h <;> rfl

/-- Both texts have line feeds, or none has. -/
theorem mem_iff (h : Crlf cs cs') : '\n' ∈ cs' ↔ '\n' ∈ cs := by
  induction h with
  | nil => exact Iff.rfl
  | char _ _ _ ih => rw [List.mem_cons, List.mem_cons, ih]
  | lineFeed _ _ => simp

/-- A run of characters is respelled, if its characters are told without regard to line breaks. -/
theorem takeWhile (h : Crlf cs cs') (hp : p '\r' = p '\n') :
    Crlf (cs.takeWhile p) (cs'.takeWhile p) := by
  induction h with
  | nil => exact .nil
  | @char c cs cs' hn hr _ ih =>
    rw [List.takeWhile_cons, List.takeWhile_cons]
    split
    · exact .char hn hr ih
    · exact .nil
  -- both characters of the line break are in the run, or none is
  | lineFeed _ ih =>
    rw [List.takeWhile_cons, List.takeWhile_cons, List.takeWhile_cons, hp]
    split
    · exact .lineFeed ih
    · exact .nil

/-- What is left behind the run is respelled too. -/
theorem dropWhile (h : Crlf cs cs') (hp : p '\r' = p '\n') :
    Crlf (cs.dropWhile p) (cs'.dropWhile p) := by
  induction h with
  | nil => exact .nil
  | @char c cs cs' hn hr h ih =>
    rw [List.dropWhile_cons, List.dropWhile_cons]
    split
    · exact ih
    · exact .char hn hr h
  | lineFeed h ih =>
    rw [List.dropWhile_cons, List.dropWhile_cons, List.dropWhile_cons, hp]
    split
    · exact ih
    · exact .lineFeed h

/-- A run of characters that are no line breaks is the same. -/
theorem takeWhile_eq (h : Crlf cs cs') (hr : p '\r' = false) (hn : p '\n' = false) :
    cs'.takeWhile p = cs.takeWhile p := by
  induction h with
  | nil => rfl
  | char _ _ _ ih => rw [List.takeWhile_cons, List.takeWhile_cons, ih]
  | lineFeed _ _ =>
    rw [List.takeWhile_cons_of_neg (by rw [hr]; decide),
      List.takeWhile_cons_of_neg (by rw [hn]; decide)]

/-- Two texts begin with the same character, or neither begins with it. -/
theorem cons_cases (h : Crlf cs cs') (hn : c ≠ '\n') (hr : c ≠ '\r') :
    (∃ tail tail', cs = c :: tail ∧ cs' = c :: tail' ∧ Crlf tail tail') ∨
      ((∀ tail, cs ≠ c :: tail) ∧ ∀ tail, cs' ≠ c :: tail) := by
  cases h with
  | nil => exact .inr ⟨nofun, nofun⟩
  | @char d tail tail' _ _ h =>
    by_cases hd : d = c
    · subst hd
      exact .inl ⟨tail, tail', rfl, rfl, h⟩
    · exact .inr ⟨fun _ heq => hd (List.cons.inj heq).1, fun _ heq => hd (List.cons.inj heq).1⟩
  | lineFeed =>
    exact .inr ⟨fun _ heq => hn (List.cons.inj heq).1.symm,
      fun _ heq => hr (List.cons.inj heq).1.symm⟩

/-- A character that is no line break is taken from both texts, or from none. -/
theorem takeIf (h : Crlf cs cs') (hr : p '\r' = false) (hn : p '\n' = false) :
    (takeIf p cs').1 = (takeIf p cs).1 ∧ Crlf (takeIf p cs).2 (Stencil.takeIf p cs').2 := by
  cases h with
  | nil => exact ⟨rfl, .nil⟩
  | @char c cs cs' hcn hcr h =>
    rw [Stencil.takeIf, Stencil.takeIf]
    by_cases hc : p c = true
    · rw [if_pos hc, if_pos hc]
      exact ⟨rfl, h⟩
    · rw [if_neg hc, if_neg hc]
      exact ⟨rfl, .char hcn hcr h⟩
  | lineFeed h =>
    rw [Stencil.takeIf, Stencil.takeIf, if_neg (by rw [hr]; decide), if_neg (by rw [hn]; decide)]
    exact ⟨rfl, .lineFeed h⟩

/-! #### Searching -/

variable {needle : List Char}

/-- Both texts begin with a mark that holds no line break, or none does. -/
theorem isPrefixOf? (h : Crlf cs cs') (hn : '\n' ∉ needle) (hr : '\r' ∉ needle) :
    Option.Rel Crlf (needle.isPrefixOf? cs) (needle.isPrefixOf? cs') := by
  induction needle generalizing cs cs' with
  | nil => exact .some h
  | cons d needle ih =>
    cases h with
    | nil => exact .none
    | @char c cs cs' _ _ h =>
      change Option.Rel Crlf (if d == c then needle.isPrefixOf? cs else none)
        (if d == c then needle.isPrefixOf? cs' else none)
      split
      · exact ih h (fun hmem => hn (List.mem_cons_of_mem _ hmem))
          fun hmem => hr (List.mem_cons_of_mem _ hmem)
      · exact .none
    -- a mark cannot match half of a line break
    | @lineFeed cs cs' h =>
      have hdn : d ≠ '\n' := fun hd => hn (hd ▸ List.mem_cons_self ..)
      have hdr : d ≠ '\r' := fun hd => hr (hd ▸ List.mem_cons_self ..)
      change Option.Rel Crlf (if d == '\n' then needle.isPrefixOf? cs else none)
        (if d == '\r' then needle.isPrefixOf? ('\n' :: cs') else none)
      rw [if_neg (by rwa [beq_iff_eq]), if_neg (by rwa [beq_iff_eq])]
      exact .none

/-- A mark does not match a text that begins with another character. -/
theorem isPrefixOf?_cons_eq_none {d : Char} (hc : c ≠ d) (tail : List Char) :
    (d :: needle).isPrefixOf? (c :: tail) = none := by
  change (if d == c then needle.isPrefixOf? tail else none) = none
  rw [if_neg (by rw [beq_iff_eq]; exact Ne.symm hc)]

/-- Both texts are cut at the same place. -/
theorem cut {d : Char} (h : Crlf cs cs') (hn : '\n' ∉ d :: needle) (hr : '\r' ∉ d :: needle) :
    Option.Rel (fun a a' => Crlf a.1 a'.1 ∧ Crlf a.2 a'.2) (Text.cut (d :: needle) cs)
      (Text.cut (d :: needle) cs') := by
  have hdn : '\n' ≠ d := fun hd => hn (hd ▸ List.mem_cons_self ..)
  have hdr : '\r' ≠ d := fun hd => hr (hd ▸ List.mem_cons_self ..)
  induction h with
  | nil => exact .none
  -- the mark is here in both texts, or it is looked for behind the character
  | @char c cs cs' hcn hcr h ih =>
    have hprefix := isPrefixOf? (.char hcn hcr h) hn hr
    rw [Text.cut, Text.cut]
    generalize (d :: needle).isPrefixOf? (c :: cs) = found at hprefix
    generalize (d :: needle).isPrefixOf? (c :: cs') = found' at hprefix
    cases hprefix with
    | some hrest => exact .some ⟨.nil, hrest⟩
    | none =>
      generalize Text.cut (d :: needle) cs = found at ih
      generalize Text.cut (d :: needle) cs' = found' at ih
      cases ih with
      | none => exact .none
      | some ih => exact .some ⟨.char hcn hcr ih.1, ih.2⟩
  -- the mark is neither in front of the line feed nor within the line break
  | @lineFeed cs cs' h ih =>
    rw [Text.cut, Text.cut, Text.cut, isPrefixOf?_cons_eq_none hdn,
      isPrefixOf?_cons_eq_none hdn, isPrefixOf?_cons_eq_none hdr]
    generalize Text.cut (d :: needle) cs = found at ih
    generalize Text.cut (d :: needle) cs' = found' at ih
    cases ih with
    | none => exact .none
    | some ih => exact .some ⟨.lineFeed ih.1, ih.2⟩

end Crlf

/-! ### Results up to rows -/

/-- Two computations end alike but for the rows of their faults: well and with related results, or
with the same fault. -/
inductive AgreeUpToRows {α β : Type} (r : α → β → Prop) :
    Except (ParseFault × Nat) α → Except (ParseFault × Nat) β → Prop where
  | ok {a : α} {b : β} : r a b → AgreeUpToRows r (.ok a) (.ok b)
  | error (fault : ParseFault) (n n' : Nat) :
      AgreeUpToRows r (.error (fault, n)) (.error (fault, n'))

/-- How two computations end that agree up to rows. -/
theorem AgreeUpToRows.inv {α β : Type} {r : α → β → Prop} {x : Except (ParseFault × Nat) α}
    {y : Except (ParseFault × Nat) β} (h : AgreeUpToRows r x y) :
    (∃ a b, x = .ok a ∧ y = .ok b ∧ r a b) ∨
      ∃ fault n n', x = .error (fault, n) ∧ y = .error (fault, n') := by
  cases h with
  | ok h => exact .inl ⟨_, _, rfl, rfl, h⟩
  | error fault n n' => exact .inr ⟨fault, n, n', rfl, rfl⟩

/-- What two scanners find is related, and so is what follows it. -/
def ScansTo {α : Type} (r : α → α → Prop) (x y : α × List Char × Nat) : Prop :=
  r x.1 y.1 ∧ Crlf x.2.1 y.2.1

/-! ### Parameters -/

/-- The same beginning in front of what is found. -/
theorem AgreeUpToRows.prepend {front front' : List Char} (hfront : Crlf front front')
    {x y : Except (ParseFault × Nat) (List Char × List Char × Nat)}
    (h : AgreeUpToRows (ScansTo Crlf) x y) :
    AgreeUpToRows (ScansTo Crlf) (prepend front x) (prepend front' y) := by
  cases h with
  | ok h => exact .ok ⟨hfront.append h.1, h.2⟩
  | error fault n n' => exact .error fault n n'

section Parameters

variable {q c : Char} {quote : Option Char} {depth rows : Nat} {cs : List Char}

/-- One character of a string literal. -/
theorem scanParameters_quoted (hc : c ≠ '\\') :
    scanParameters (some q) depth rows (c :: cs) =
      prepend [c] (scanParameters (if c = q then none else some q) depth
        (if c = '\n' then rows + 1 else rows) cs) := by
  rw [scanParameters.eq_def]
  exact if_neg hc

/-- The two characters of an escape. -/
theorem scanParameters_escaped (e : Char) :
    scanParameters (some q) depth rows ('\\' :: e :: cs) =
      prepend ['\\', e] (scanParameters (some q) depth rows cs) := by
  rw [scanParameters.eq_def]
  exact if_pos rfl

/-- One character outside of string literals. -/
theorem scanParameters_plain (hc : ¬ (c = ')' ∧ depth = 0)) :
    scanParameters none depth rows (c :: cs) =
      prepend [c] (scanParameters (if c = '\x22' ∨ c = '\x27' then some c else none)
        (if c = '(' then depth + 1 else if c = ')' then depth - 1 else depth)
        (if c = '\n' then rows + 1 else rows) cs) := by
  rw [scanParameters.eq_def]
  exact if_neg hc

/-- A line break in parameters, of one character or of two. -/
theorem scanParameters_lineBreak (hq : ∀ q ∈ quote, isQuote q) (hc : c = '\n' ∨ c = '\r')
    (depth rows : Nat) (cs : List Char) :
    ∃ n, scanParameters quote depth rows (c :: cs) =
      prepend [c] (scanParameters quote depth n cs) := by
  cases quote with
  | none =>
    have hclose : ¬ (c = ')' ∧ depth = 0) := by rcases hc with rfl | rfl <;> simp
    rw [scanParameters_plain hclose]
    rcases hc with rfl | rfl <;> exact ⟨_, rfl⟩
  | some q =>
    have hescape : c ≠ '\\' := by rcases hc with rfl | rfl <;> decide
    have hne : c ≠ q := by
      rcases hq q rfl with rfl | rfl <;> rcases hc with rfl | rfl <;> decide
    rw [scanParameters_quoted hescape, if_neg hne]
    exact ⟨_, rfl⟩

/-- A whole line break in parameters. -/
theorem scanParameters_crlf (hq : ∀ q ∈ quote, isQuote q) (depth rows : Nat) (cs : List Char) :
    ∃ n, scanParameters quote depth rows ('\r' :: '\n' :: cs) =
      prepend ['\r', '\n'] (scanParameters quote depth n cs) := by
  obtain ⟨m, hreturn⟩ := scanParameters_lineBreak hq (.inr rfl) depth rows ('\n' :: cs)
  obtain ⟨n, hfeed⟩ := scanParameters_lineBreak hq (.inl rfl) depth m cs
  exact ⟨n, by rw [hreturn, hfeed, prepend_prepend]; rfl⟩

end Parameters

/-- **Parameters.** A line break may be escaped in a string literal. Then the character behind the
backslash is another one, but it is passed over like any other. -/
theorem Crlf.scanParameters {quote : Option Char} (hq : ∀ q ∈ quote, isQuote q) {depth rows : Nat}
    {cs cs' : List Char} (h : Crlf cs cs') (rows' : Nat) :
    AgreeUpToRows (ScansTo Crlf) (scanParameters quote depth rows cs)
      (scanParameters quote depth rows' cs') := by
  fun_induction Stencil.scanParameters quote depth rows cs generalizing cs' rows' with
  -- the text ends in a literal, outside of literals, or behind a backslash
  | case1 depth rows q =>
    cases h
    exact .error _ _ _
  | case2 depth rows =>
    cases h
    exact .error _ _ _
  | case3 depth rows q =>
    cases h with
    | char _ _ h =>
      cases h
      exact .error _ _ _
  | case4 depth rows q e cs ih =>
    cases h with
    | char _ _ h =>
      cases h with
      -- the escaped character is no line break, so it is the same in both texts
      | char hn hr h =>
        rw [scanParameters_escaped]
        exact (ih hq h rows').prepend (.char (by decide) (by decide) (.singleton hn hr))
      -- the backslash escapes the line feed here and the carriage return there
      | lineFeed h =>
        rw [scanParameters_escaped]
        obtain ⟨n, hbreak⟩ := scanParameters_lineBreak hq (.inl rfl) depth rows' _
        rw [hbreak, prepend_prepend]
        exact (ih hq h n).prepend (.char (by decide) (by decide) (.lineFeed .nil))
  | case5 depth rows c cs q hc next count =>
    rename_i ih
    -- The literal ends at a quote, which is no line break.
    have hnext : ∀ d ∈ (if c = q then none else some q), isQuote d := by
      intro d hd
      split at hd
      · cases hd
      · exact hq d hd
    cases h with
    -- a character in a string literal, which may close it
    | char hn hr h =>
      rw [scanParameters_quoted hc]
      exact (ih hnext h _).prepend (.singleton hn hr)
    -- a line break in a string literal does not close it
    | lineFeed h =>
      have hne : '\n' ≠ q := by rcases hq q rfl with rfl | rfl <;> decide
      obtain ⟨n, hbreak⟩ := scanParameters_crlf hq depth rows' _
      have hsame : next = some q := if_neg hne
      rw [hbreak]
      rw [hsame] at ih ⊢
      exact (ih hq h n).prepend (.lineFeed .nil)
  | case6 depth rows c cs hclose =>
    -- the parenthesis that closes the parameters
    obtain ⟨rfl, rfl⟩ := hclose
    cases h with
    | char _ _ h =>
      rw [scanParameters.eq_def]
      exact .ok ⟨.nil, h⟩
  | case7 depth rows c cs hclose next nested count =>
    rename_i ih
    -- a character outside of literals, which may open one
    cases h with
    | char hn hr h =>
      have hnext : ∀ d ∈ (if c = '\x22' ∨ c = '\x27' then some c else none), isQuote d := by
        intro d hd
        split at hd
        · rename_i hquote
          obtain rfl := Option.mem_some.mp hd
          exact hquote
        · cases hd
      rw [scanParameters_plain hclose]
      exact (ih hnext h _).prepend (.singleton hn hr)
    -- a line break outside of literals
    | lineFeed h =>
      obtain ⟨n, hbreak⟩ := scanParameters_crlf hq depth rows' _
      rw [hbreak]
      exact (ih hq h n).prepend (.lineFeed .nil)

/-! ### Tags and pieces -/

/-- A tag with its parameters respelled. -/
def Tag.toCrlf : Tag → Tag
  | directive id parameters =>
    directive id (parameters.map fun p => String.ofList (Stencil.toCrlf p.toList))
  | call name ifDefined parameters =>
    call name ifDefined (String.ofList (Stencil.toCrlf parameters.toList))
  | define name parameters => define name (String.ofList (Stencil.toCrlf parameters.toList))

/-- A piece with its text or its parameters respelled. -/
def Piece.toCrlf : Piece → Piece
  | text chars => text (Stencil.toCrlf chars)
  | lineComment => lineComment
  | blockComment => blockComment
  | verbatim chars => verbatim (Stencil.toCrlf chars)
  | tag t => tag t.toCrlf

/-- A piece without carriage returns in its text, and the piece with respelled text. -/
inductive Piece.Crlf : Piece → Piece → Prop
  | text {chars chars' : List Char} : Stencil.Crlf chars chars' → Crlf (.text chars) (.text chars')
  | lineComment : Crlf .lineComment .lineComment
  | blockComment : Crlf .blockComment .blockComment
  | verbatim {chars chars' : List Char} : Stencil.Crlf chars chars' →
      Crlf (.verbatim chars) (.verbatim chars')
  | tag (t : Tag) : Crlf (.tag t) (.tag t.toCrlf)

/-- Two cuts end alike but for rows. -/
abbrev CutsAlike : Cut → Cut → Prop := AgreeUpToRows (ScansTo Piece.Crlf)

namespace Crlf

variable {cs cs' : List Char}

/-- A tag is respelled in its parameters. -/
theorem scanTag (tag : String → Tag)
    (htag : ∀ p, (tag (String.ofList p)).toCrlf = tag (String.ofList (toCrlf p)))
    (h : Crlf cs cs') : CutsAlike (scanTag tag cs) (Stencil.scanTag tag cs') := by
  have hscan : AgreeUpToRows (ScansTo Crlf) (Stencil.scanParameters none 0 0 cs)
      (Stencil.scanParameters none 0 0 cs') :=
    h.scanParameters (fun q hq => absurd hq (Option.not_mem_none q)) 0
  unfold Stencil.scanTag
  rcases hscan.inv with
    ⟨⟨parameters, rest, n⟩, ⟨parameters', rest', n'⟩, hx, hy, hparameters, hrest⟩ |
    ⟨fault, n, n', hx, hy⟩
  -- the parameters that are found determine the tag, and its respelling is the other one
  · have hspelled : parameters' = toCrlf parameters := hparameters.eq_toCrlf
    subst hspelled
    rw [hx, hy]
    refine .ok ⟨?_, hrest⟩
    show Piece.Crlf (.tag (tag (String.ofList parameters))) (.tag (tag (String.ofList _)))
    rw [← htag]
    exact .tag _
  · rw [hx, hy]
    exact .error fault n n'

/-- Parameters behind blanks, or the lack of them. -/
theorem scanArguments {tag : String → Tag} {missing missing' : Cut}
    (htag : ∀ p, (tag (String.ofList p)).toCrlf = tag (String.ofList (toCrlf p)))
    (hmissing : CutsAlike missing missing') (h : Crlf cs cs') :
    CutsAlike
      (match cs.dropWhile isSpace with
        | '(' :: rest => Stencil.scanTag tag rest
        | _ => missing)
      (match cs'.dropWhile isSpace with
        | '(' :: rest => Stencil.scanTag tag rest
        | _ => missing') := by
  have hrest : Crlf (cs.dropWhile isSpace) (cs'.dropWhile isSpace) := h.dropWhile rfl
  rcases hrest.cons_cases (c := '(') (by decide) (by decide) with
    ⟨tail, tail', heq, heq', htail⟩ | ⟨hne, hne'⟩
  · rw [heq, heq']
    exact htail.scanTag tag htag
  · split
    · rename_i heq
      exact absurd heq (hne _)
    · exact hmissing

/-! #### Constructs -/

/-- A text that can be respelled has no carriage returns. -/
theorem not_mem (h : Crlf cs cs') : '\r' ∉ cs := by
  induction h with
  | nil => exact List.not_mem_nil
  | char _ hr _ ih => exact List.not_mem_cons_of_ne_of_not_mem (Ne.symm hr) ih
  | lineFeed _ ih => exact List.not_mem_cons_of_ne_of_not_mem (by decide) ih

/-- The first lines of two texts: there is no other line, or the second text has a carriage return
behind its first line. -/
theorem firstLine (h : Crlf cs cs') :
    (cs.dropWhile (· != '\n') = [] ∧ cs'.dropWhile (· != '\n') = [] ∧
      cs'.takeWhile (· != '\n') = cs.takeWhile (· != '\n')) ∨
    ∃ after after', Crlf after after' ∧ cs.dropWhile (· != '\n') = '\n' :: after ∧
      cs'.dropWhile (· != '\n') = '\n' :: after' ∧
      cs'.takeWhile (· != '\n') = cs.takeWhile (· != '\n') ++ ['\r'] := by
  induction h with
  | nil => exact .inl ⟨rfl, rfl, rfl⟩
  | @char c cs cs' hn _ _ ih =>
    have hc : (c != '\n') = true := bne_iff_ne.mpr hn
    rw [List.dropWhile_cons_of_pos (p := (· != '\n')) hc,
      List.dropWhile_cons_of_pos (p := (· != '\n')) hc,
      List.takeWhile_cons_of_pos (p := (· != '\n')) hc,
      List.takeWhile_cons_of_pos (p := (· != '\n')) hc]
    rcases ih with ⟨hcs, hcs', hline⟩ | ⟨after, after', h, hcs, hcs', hline⟩
    · exact .inl ⟨hcs, hcs', congrArg (c :: ·) hline⟩
    · exact .inr ⟨after, after', h, hcs, hcs', congrArg (c :: ·) hline⟩
  -- the first line ends here, which the carriage return is a part of on the other side
  | @lineFeed cs cs' h _ => exact .inr ⟨cs, cs', h, rfl, rfl, rfl⟩

/-- A comment up to the end of the line leaves the line break whole. -/
theorem scanLineComment (h : Crlf cs cs') :
    CutsAlike (scanLineComment cs) (Stencil.scanLineComment cs') := by
  have hlast : (cs.takeWhile (· != '\n')).getLast? ≠ some '\r' := fun hlast =>
    h.not_mem ((List.takeWhile_prefix _).subset (List.mem_of_getLast? hlast))
  unfold Stencil.scanLineComment
  dsimp only
  rcases h.firstLine with ⟨hcs, hcs', hline⟩ | ⟨after, after', h, hcs, hcs', hline⟩
  · rw [hcs, hcs', hline, if_neg hlast]
    exact .ok ⟨.lineComment, .nil⟩
  · rw [hcs, hcs', hline, if_neg hlast, if_pos List.getLast?_concat]
    exact .ok ⟨.lineComment, .lineFeed h⟩

/-- A mark that holds no line break closes a piece at the same place in both texts. -/
theorem scanTo (h : Crlf cs cs') {mark what : String} {d : Char} {needle : List Char}
    (hmark : mark.toList = d :: needle) (hn : '\n' ∉ d :: needle) (hr : '\r' ∉ d :: needle)
    {piece : List Char → Piece}
    (hpiece : ∀ {body body'}, Crlf body body' → Piece.Crlf (piece body) (piece body')) :
    CutsAlike (Stencil.scanTo mark what piece cs) (Stencil.scanTo mark what piece cs') := by
  have hcut : Option.Rel _ (Text.cut (d :: needle) cs) (Text.cut (d :: needle) cs') := h.cut hn hr
  unfold Stencil.scanTo
  rw [hmark]
  generalize Text.cut (d :: needle) cs = x at hcut
  generalize Text.cut (d :: needle) cs' = y at hcut
  cases hcut with
  | none => exact .error _ _ _
  | some hcut => exact .ok ⟨hpiece hcut.1, hcut.2⟩

/-- Calls of functions are found alike, for their names hold no line breaks. -/
theorem scanCall (h : Crlf cs cs') : CutsAlike (scanCall cs) (Stencil.scanCall cs') := by
  have hname : cs'.takeWhile isTagChar = cs.takeWhile isTagChar := h.takeWhile_eq rfl rfl
  obtain ⟨hmark, hrest⟩ :=
    (h.dropWhile (p := isTagChar) rfl).takeIf (p := (· == '?')) rfl rfl
  unfold Stencil.scanCall
  rw [hname]
  dsimp only
  rw [hmark]
  split
  · exact .error _ _ _
  · exact hrest.scanArguments (fun p => by simp [Tag.toCrlf]) (.error _ _ _)

/-- Definitions are found alike. -/
theorem scanDefine (h : Crlf cs cs') : CutsAlike (scanDefine cs) (Stencil.scanDefine cs') := by
  have hrest : Crlf (cs.dropWhile isSpace) (cs'.dropWhile isSpace) := h.dropWhile rfl
  have hname := hrest.takeWhile_eq (p := isTagChar) rfl rfl
  have hbehind := hrest.dropWhile (p := isTagChar) rfl
  unfold Stencil.scanDefine
  dsimp only
  rw [hname]
  split
  · exact .error _ _ _
  · exact hbehind.scanArguments (fun p => by simp [Tag.toCrlf]) (.error _ _ _)

/-- Directives are found alike. -/
theorem scanDirective (h : Crlf cs cs') :
    CutsAlike (scanDirective cs) (Stencil.scanDirective cs') := by
  have hword : cs'.takeWhile isTagChar = cs.takeWhile isTagChar := h.takeWhile_eq rfl rfl
  have hrest : Crlf (cs.dropWhile isTagChar) (cs'.dropWhile isTagChar) := h.dropWhile rfl
  unfold Stencil.scanDirective
  rw [hword]
  dsimp only
  generalize String.ofList (cs.takeWhile isTagChar) = word
  split
  · exact .ok ⟨.tag (.directive word none), hrest⟩
  · split
    · exact hrest.scanDefine
    -- behind `call` there may be a question mark
    · obtain ⟨hmark, hbehind⟩ := hrest.takeIf (p := fun c => word = "call" && c == '?')
        (by simp) (by simp)
      rw [hmark]
      exact hbehind.scanArguments (fun p => by simp [Tag.toCrlf])
        (.ok ⟨.text (.singleton (by decide) (by decide)), h⟩)

/-- A `#` that begins no construct. -/
theorem lone (h : Crlf cs cs') :
    CutsAlike (.ok (.text ['#'], cs, 0)) (.ok (.text ['#'], cs', 0)) :=
  .ok ⟨.text (.singleton (by decide) (by decide)), h⟩

/-- Constructs are found alike. -/
theorem scanConstruct (h : Crlf cs cs') :
    -- a `#` in front of a line break begins nothing
    CutsAlike (scanConstruct cs) (Stencil.scanConstruct cs') := by
  cases h with
  | nil => exact Crlf.nil.lone
  | lineFeed h => exact h.lineFeed.lone
  | @char c cs cs' hn hr h =>
    by_cases hstart : isTagStart c = true
    · rw [scanConstruct_of_isTagStart hstart, scanConstruct_of_isTagStart hstart]
      exact (Crlf.char hn hr h).scanDirective
    by_cases hhash : c = '#'
    · subst hhash
      exact h.scanLineComment
    by_cases houtput : c = '('
    · subst houtput
      exact h.scanTag (fun p => .directive "output" (some p)) fun p => by simp [Tag.toCrlf]
    by_cases hcall : c = '@'
    · subst hcall
      exact h.scanCall
    -- The other two marks have two characters.
    have hlone {tail tail' : List Char} (htail : Crlf tail tail')
        (hcomment : c = '-' → (∀ t, tail ≠ '-' :: t) ∧ ∀ t, tail' ≠ '-' :: t)
        (hblock : c = '[' → (∀ t, tail ≠ '[' :: t) ∧ ∀ t, tail' ≠ '[' :: t) :
        CutsAlike (Stencil.scanConstruct (c :: tail)) (Stencil.scanConstruct (c :: tail')) := by
      have ho : ¬ Opens (c :: tail) := fun ho => hstart (ho.name hhash
        (fun t hc => (hcomment hc).1 t) (fun t hc => (hblock hc).1 t) houtput hcall).1
      have ho' : ¬ Opens (c :: tail') := fun ho => hstart (ho.name hhash
        (fun t hc => (hcomment hc).2 t) (fun t hc => (hblock hc).2 t) houtput hcall).1
      rw [scanConstruct_lone ho, scanConstruct_lone ho']
      exact (Crlf.char hn hr htail).lone
    by_cases hcomment : c = '-'
    · subst hcomment
      rcases h.cons_cases (c := '-') (by decide) (by decide) with
        ⟨tail, tail', rfl, rfl, htail⟩ | hne
      · exact htail.scanTo rfl (by decide) (by decide) fun _ => .blockComment
      · exact hlone h (fun _ => hne) (fun hc => absurd hc (by decide))
    by_cases hblock : c = '['
    · subst hblock
      rcases h.cons_cases (c := '[') (by decide) (by decide) with
        ⟨tail, tail', rfl, rfl, htail⟩ | hne
      · exact htail.scanTo rfl (by decide) (by decide) .verbatim
      · exact hlone h (fun hc => absurd hc (by decide)) (fun _ => hne)
    exact hlone h (fun hc => absurd hc hcomment) (fun hc => absurd hc hblock)

/-- The first pieces of two texts. -/
theorem scanPiece {c c' : Char} (h : Crlf (c :: cs) (c' :: cs')) :
    CutsAlike (scanPiece c cs) (Stencil.scanPiece c' cs') := by
  -- a run of text ends at the next `#`, and a line break is no `#`
  by_cases hc : c = '#'
  · subst hc
    cases h with
    | char _ _ h => exact h.scanConstruct
  · have hc' : c' ≠ '#' := by
      cases h with
      | char => exact hc
      | lineFeed => decide
    have hp : (c != '#') = true := bne_iff_ne.mpr hc
    have hp' : (c' != '#') = true := bne_iff_ne.mpr hc'
    have hrun := h.takeWhile (p := (· != '#')) rfl
    have hrest := h.dropWhile (p := (· != '#')) rfl
    rw [List.takeWhile_cons_of_pos (p := (· != '#')) hp,
      List.takeWhile_cons_of_pos (p := (· != '#')) hp'] at hrun
    rw [List.dropWhile_cons_of_pos (p := (· != '#')) hp,
      List.dropWhile_cons_of_pos (p := (· != '#')) hp'] at hrest
    rw [scanPiece_of_ne hc, scanPiece_of_ne hc']
    exact .ok ⟨.text hrun, hrest⟩

end Crlf

/-! ### Whole templates -/

/-- A fault in the first piece is one of the text. -/
theorem cutFrom_of_error {row n : Nat} {c : Char} {cs : List Char} {fault : ParseFault}
    (h : scanPiece c cs = .error (fault, n)) :
    cutFrom row (c :: cs) = .error (fault, row + n) := by
  rw [cutFrom]
  split
  · rename_i h'
    obtain ⟨rfl, rfl⟩ := Prod.mk.inj (Except.error.inj (h.symm.trans h'))
    rfl
  · rename_i h'
    cases h.symm.trans h'

/-- The first piece of a text stands in front of the others. -/
theorem cutFrom_of_ok {row n : Nat} {c : Char} {cs rest : List Char} {piece : Piece}
    (h : scanPiece c cs = .ok (piece, rest, n)) :
    cutFrom row (c :: cs) = (cutFrom (row + n) rest).map (⟨piece, row⟩ :: ·) := by
  rw [cutFrom]
  split
  · rename_i h'
    cases h.symm.trans h'
  · rename_i h'
    obtain ⟨rfl, hrest⟩ := Prod.mk.inj (Except.ok.inj (h.symm.trans h'))
    obtain ⟨rfl, rfl⟩ := Prod.mk.inj hrest
    cases cutFrom (row + n) rest <;> rfl

/-- Pieces that are related, in any rows. -/
abbrev PiecesCrlf : List PlacedPiece → List PlacedPiece → Prop :=
  List.Forall₂ fun p p' => Piece.Crlf p.piece p'.piece

/-- **Cutting.** The two texts are cut into related pieces, or with the same fault. -/
theorem Crlf.cutFrom {text text' : List Char} (h : Crlf text text') (row row' : Nat) :
    AgreeUpToRows PiecesCrlf (cutFrom row text) (Stencil.cutFrom row' text') := by
  -- by the length of what is left, since a piece may be any part of the text
  induction hn : text.length using Nat.strong_induction_on generalizing text text' row row' with
  | _ n ih =>
    subst hn
    cases text with
    | nil =>
      cases h
      rw [Stencil.cutFrom.eq_def, Stencil.cutFrom.eq_def]
      exact .ok .nil
    | cons c cs =>
      obtain ⟨c', cs', rfl⟩ : ∃ c' cs', text' = c' :: cs' := by
        cases h <;> exact ⟨_, _, rfl⟩
      rcases h.scanPiece.inv with
        ⟨⟨piece, rest, rows⟩, ⟨piece', rest', rows'⟩, hx, hy, hpiece⟩ | ⟨fault, n, n', hx, hy⟩
      -- both texts have a first piece, and what is behind it is shorter
      · have hlength : rest.length < (c :: cs).length :=
          Nat.lt_succ_of_le (scanPiece_rest_length hx)
        rw [cutFrom_of_ok hx, cutFrom_of_ok hy]
        rcases (ih rest.length hlength hpiece.2 (row + rows) (row' + rows') rfl).inv with
          ⟨pieces, pieces', hrest, hrest', htail⟩ | ⟨fault, n, n', hrest, hrest'⟩
        · rw [hrest, hrest']
          exact .ok (.cons hpiece.1 htail)
        · rw [hrest, hrest']
          exact .error fault n n'
      · rw [cutFrom_of_error hx, cutFrom_of_error hy]
        exact .error _ _ _

/-! ### Lines -/

/-- A text item without carriage returns and the item with respelled text, or a tag and the tag with
respelled parameters, in any rows. -/
inductive Item.Crlf : Item → Item → Prop
  | text {chars chars' : List Char} (row row' : Nat) : Stencil.Crlf chars chars' →
      Crlf (.text chars row) (.text chars' row')
  | tag (t : Tag) (row row' : Nat) : Crlf (.tag t row) (.tag t.toCrlf row')

/-- Items that are related, one by one. -/
abbrev ItemsCrlf : List Item → List Item → Prop := List.Forall₂ Item.Crlf

/-- Related items have related pieces. -/
theorem Item.Crlf.piece_eq {i i' : Item} (h : i.Crlf i') : i'.piece = i.piece.toCrlf := by
  cases h with
  | text row row' h => exact congrArg Piece.text h.eq_toCrlf
  | tag => rfl

/-- Related lists of items have related pieces, one by one. -/
theorem ItemsCrlf.map_piece_eq {items items' : List Item} (h : ItemsCrlf items items') :
    items'.map Item.piece = items.map fun i => i.piece.toCrlf := by
  induction h with
  | nil => rfl
  | cons hi _ ih => rw [List.map_cons, List.map_cons, hi.piece_eq, ih]

namespace Crlf

variable {cs cs' : List Char}

/-- The line break behind blanks is skipped, be it one character or two. -/
theorem skipLine (h : Crlf cs cs') : Crlf (skipLine cs).1 (Stencil.skipLine cs').1 := by
  have hrest : Crlf (cs.dropWhile isSpace) (cs'.dropWhile isSpace) := h.dropWhile rfl
  unfold Stencil.skipLine
  generalize cs.dropWhile isSpace = rest at hrest
  generalize cs'.dropWhile isSpace = rest' at hrest
  cases hrest with
  | nil => exact .nil
  | lineFeed hrest => exact hrest
  -- another character stands behind the blanks, so nothing is skipped
  | char hn hr hrest =>
    split
    · rename_i heq
      exact absurd (List.cons.inj heq).1 hn
    · rename_i heq
      exact absurd (List.cons.inj heq).1 hr
    · split
      · rename_i heq
        exact absurd (List.cons.inj heq).1 hn
      · rename_i heq
        exact absurd (List.cons.inj heq).1 hr
      · exact .char hn hr hrest

/-- A carriage return leaves a line as it is, and a line feed begins a new one. -/
theorem cleanAfter (h : Crlf cs cs') (clean : Bool) :
    Layer.cleanAfter clean cs' = Layer.cleanAfter clean cs := by
  unfold Layer.cleanAfter
  induction h generalizing clean with
  | nil => rfl
  | char _ _ _ ih => exact ih _
  | lineFeed _ ih => exact ih true

/-- The lines of a text that ends behind its last line feed, or in front of it. -/
theorem keepLines_append (front cs : List Char) :
    Stencil.keepLines (front ++ cs) =
      if '\n' ∈ cs then front ++ Stencil.keepLines cs else Stencil.keepLines front := by
  -- from the back there is no line feed up to the front exactly if there is none
  have hempty : (cs.reverse.dropWhile (· != '\n')).isEmpty = true ↔ '\n' ∉ cs := by
    rw [List.isEmpty_iff, List.dropWhile_eq_nil_iff]
    constructor
    · intro hall hmem
      simpa using hall '\n' (List.mem_reverse.mpr hmem)
    · intro hmem c hc
      rw [bne_iff_ne]
      rintro rfl
      exact hmem (List.mem_reverse.mp hc)
  unfold Stencil.keepLines
  rw [List.reverse_append, List.dropWhile_append]
  by_cases hmem : '\n' ∈ cs
  · rw [if_pos hmem, if_neg fun h => hempty.mp h hmem, List.reverse_append, List.reverse_reverse]
  · rw [if_neg hmem, if_pos (hempty.mpr hmem)]

/-- Both texts are cut behind their last line feed. -/
theorem keepLines (h : Crlf cs cs') : Crlf (keepLines cs) (Stencil.keepLines cs') := by
  induction h with
  | nil => exact .nil
  | @char c cs cs' hn hr h ih =>
    rw [← List.singleton_append, ← List.singleton_append (l := cs'), keepLines_append,
      keepLines_append]
    -- a character is kept if a line feed follows it
    by_cases hmem : '\n' ∈ cs
    · rw [if_pos hmem, if_pos (h.mem_iff.mpr hmem)]
      exact .char hn hr ih
    · have hnone : Stencil.keepLines [c] = [] := by
        simp [Stencil.keepLines, hn]
      rw [if_neg hmem, if_neg fun hmem' => hmem (h.mem_iff.mp hmem'), hnone]
      exact .nil
  | @lineFeed cs cs' h ih =>
    rw [← List.singleton_append, show '\r' :: '\n' :: cs' = ['\r', '\n'] ++ cs' from rfl,
      keepLines_append, keepLines_append]
    -- the line break is kept in any case
    by_cases hmem : '\n' ∈ cs
    · rw [if_pos hmem, if_pos (h.mem_iff.mpr hmem)]
      exact .lineFeed ih
    · rw [if_neg hmem, if_neg fun hmem' => hmem (h.mem_iff.mp hmem')]
      exact .lineFeed .nil

end Crlf

/-- The next pieces leave a line blank, or they do not. -/
theorem PiecesCrlf.blankBefore_eq {pieces pieces' : List PlacedPiece}
    (h : PiecesCrlf pieces pieces') : blankBefore pieces' = blankBefore pieces := by
  cases h with
  | nil => rfl
  | @cons p p' rest rest' hp hrest =>
    obtain ⟨piece, row⟩ := p
    obtain ⟨piece', row'⟩ := p'
    dsimp only at hp
    cases hp with
    -- a text is followed by its blanks only, by a line break, or by another character
    | @text chars chars' h =>
      have hend := h.dropWhile (p := isSpace) rfl
      unfold blankBefore
      dsimp only
      generalize chars.dropWhile isSpace = tail at hend
      generalize chars'.dropWhile isSpace = tail' at hend
      cases hend with
      | nil => cases hrest <;> rfl
      | lineFeed => rfl
      | char hn hr =>
        split
        · rename_i heq
          cases heq
        · rename_i heq
          exact absurd (List.cons.inj heq).1 hn
        · rename_i heq
          exact absurd (List.cons.inj heq).1 hr
        · split
          · rename_i heq
            cases heq
          · rename_i heq
            exact absurd (List.cons.inj heq).1 hn
          · rename_i heq
            exact absurd (List.cons.inj heq).1 hr
          · rfl
    | _ => rfl

/-- The current line is dropped on both sides. -/
theorem ItemsCrlf.dropOpenLine {done done' : List Item} (h : ItemsCrlf done done') :
    ItemsCrlf (dropOpenLine done) (Stencil.dropOpenLine done') := by
  induction h with
  | nil => exact .nil
  | cons hi hrest ih =>
    cases hi with
    -- the line begins in this text, or in one before it
    | @text chars chars' row row' h =>
      unfold Stencil.dropOpenLine
      by_cases hn : '\n' ∈ chars
      · rw [if_pos hn, if_pos (h.mem_iff.mpr hn)]
        exact .cons (.text row row' h.keepLines) hrest
      · rw [if_neg hn, if_neg fun hmem => hn (h.mem_iff.mp hmem)]
        exact .cons (.text row row' .nil) ih
    | tag t row row' => exact .cons (.tag t row row') ih

namespace Layer

/-- Layers with related texts that are in the same state. -/
structure Crlf (l l' : Layer) : Prop where
  done : ItemsCrlf l.done l'.done
  pending : Stencil.Crlf l.pending l'.pending
  clean : l'.clean = l.clean
  skipping : l'.skipping = l.skipping

namespace Crlf

variable {l l' : Layer} {chars chars' : List Char}

/-- Related texts are pushed. -/
theorem push (h : l.Crlf l') (hchars : Stencil.Crlf chars chars') (row row' : Nat) :
    (l.push chars row).Crlf (l'.push chars' row') where
  done := h.done
  pending := h.pending.append hchars
  clean := by
    show cleanAfter l'.clean chars' = cleanAfter l.clean chars
    rw [h.clean, hchars.cleanAfter]
  skipping := h.skipping

/-- The pending text becomes an item on both sides. -/
theorem flush (h : l.Crlf l') : l.flush.Crlf l'.flush := by
  unfold Layer.flush
  rw [h.pending.isEmpty_eq]
  split
  · exact h
  · exact ⟨.cons (.text _ _ h.pending) h.done, .nil, h.clean, h.skipping⟩

/-- The start of the line is deleted on both sides. -/
theorem deleteLineStart (h : l.Crlf l') : l.deleteLineStart.Crlf l'.deleteLineStart := by
  unfold Layer.deleteLineStart
  by_cases hn : '\n' ∈ l.pending
  · rw [if_pos hn, if_pos (h.pending.mem_iff.mpr hn)]
    exact ⟨h.done, h.pending.keepLines, h.clean, h.skipping⟩
  · rw [if_neg hn, if_neg fun hmem => hn (h.pending.mem_iff.mp hmem)]
    exact ⟨ItemsCrlf.dropOpenLine h.done, .nil, h.clean, h.skipping⟩

/-- The line is trimmed on both sides, or on none. -/
theorem trimLine (h : l.Crlf l') (blank : Bool) : (l.trimLine blank).Crlf (l'.trimLine blank) := by
  unfold Layer.trimLine
  rw [h.clean]
  split
  · exact ⟨h.deleteLineStart.done, h.deleteLineStart.pending, rfl, rfl⟩
  · exact h

/-- A verbatim block takes its line on both sides, or on none. -/
theorem pushVerbatim (h : l.Crlf l') (hchars : Stencil.Crlf chars chars') (row row' : Nat)
    (blank : Bool) :
    (l.pushVerbatim chars row blank).Crlf (l'.pushVerbatim chars' row' blank) := by
  unfold Layer.pushVerbatim
  rw [h.clean]
  split
  · have hpush := h.deleteLineStart.push hchars row row'
    exact ⟨hpush.done, hpush.pending, rfl, rfl⟩
  · exact h.push hchars row row'

/-- A tag takes its line on both sides, or on none, for both tags have one name. -/
theorem pushTag (h : l.Crlf l') (keep : List String) (t : Tag) (row row' : Nat) (blank : Bool) :
    (l.pushTag keep t row blank).Crlf (l'.pushTag keep t.toCrlf row' blank) := by
  have hid : t.toCrlf.id = t.id := by cases t <;> rfl
  have htag : Crlf { l.flush with done := .tag t row :: l.flush.done }
      { l'.flush with done := .tag t.toCrlf row' :: l'.flush.done } :=
    ⟨.cons (.tag t row row') h.flush.done, h.flush.pending, h.flush.clean, h.flush.skipping⟩
  unfold Layer.pushTag
  rw [hid]
  dsimp only
  split
  · exact ⟨htag.done, htag.pending, rfl, htag.skipping⟩
  · exact htag.trimLine blank

/-- Related pieces are added. -/
theorem add (h : l.Crlf l') (keep : List String) {p p' : PlacedPiece}
    (hp : Piece.Crlf p.piece p'.piece) (blank : Bool) :
    (l.add keep p blank).Crlf (l'.add keep p' blank) := by
  obtain ⟨piece, row⟩ := p
  obtain ⟨piece', row'⟩ := p'
  dsimp only at hp
  unfold Layer.add
  cases hp with
  | @text chars chars' hchars =>
    dsimp only
    rw [h.skipping]
    split
    · have hpush := h.push hchars.skipLine (row + (skipLine chars).2) (row' + (skipLine chars').2)
      exact ⟨hpush.done, hpush.pending, hpush.clean, rfl⟩
    · exact h.push hchars row row'
  | lineComment | blockComment => exact h.trimLine blank
  | verbatim hchars => exact h.pushVerbatim hchars row row' blank
  | tag t => exact h.pushTag keep t row row' blank

/-- Related pieces are added one by one. -/
theorem addAll (h : l.Crlf l') (keep : List String) {pieces pieces' : List PlacedPiece}
    (hpieces : PiecesCrlf pieces pieces') :
    (l.addAll keep pieces).Crlf (l'.addAll keep pieces') := by
  induction hpieces generalizing l l' with
  | nil => exact h
  | @cons p p' rest rest' hp hrest ih =>
    unfold Layer.addAll
    rw [PiecesCrlf.blankBefore_eq hrest]
    exact ih (h.add keep hp _)

end Crlf

end Layer

/-! ### Items -/

/-- Items of related texts are related. -/
theorem Crlf.itemsOf {text text' : List Char} (h : Crlf text text') (keep : List String) :
    AgreeUpToRows ItemsCrlf (itemsOf keep text) (Stencil.itemsOf keep text') := by
  unfold Stencil.itemsOf cutTemplate
  rcases (h.cutFrom 1 1).inv with
    ⟨pieces, pieces', hcut, hcut', hpieces⟩ | ⟨fault, n, n', hcut, hcut'⟩
  · have hlayer := (⟨.nil, .nil, rfl, rfl⟩ : Layer.Crlf {} {}).addAll keep hpieces
    rw [hcut, hcut']
    exact .ok (List.rel_reverse hlayer.flush.done)
  · rw [hcut, hcut']
    exact .error fault n n'

/-- **Line endings do not change structure.** For every template text without carriage returns, and
the text with a carriage return in front of every line feed: both have items, or both have the same
fault. The items of the second text are those of the first one, with texts and parameters
respelled in the same way, except for the rows. -/
theorem itemsOf_toCrlf (keep : List String) {text : List Char} (h : '\r' ∉ text) :
    AgreeUpToRows (fun items items' => items'.map Item.piece = items.map fun i => i.piece.toCrlf)
      (itemsOf keep text) (itemsOf keep (toCrlf text)) := by
  rcases ((Crlf.of_not_mem h).itemsOf keep).inv with
    ⟨items, items', hx, hy, hitems⟩ | ⟨fault, n, n', hx, hy⟩
  · rw [hx, hy]
    exact .ok (ItemsCrlf.map_piece_eq hitems)
  · rw [hx, hy]
    exact .error fault n n'

/-- Line breaks behind a comment, behind a backslash in a string literal, in a verbatim block, and on
lines that are taken away. -/
theorem itemsOf_toCrlf_constructs :
    let text := "a ## b\n#(\"c\\\nd\")\n  #if(x)\n#[[e\nf]]#\n#end\n".toList
    '\r' ∉ text ∧
      AgreeUpToRows (fun items items' => items'.map Item.piece = items.map fun i => i.piece.toCrlf)
        (itemsOf ["output"] text) (itemsOf ["output"] (toCrlf text)) :=
  ⟨by decide, itemsOf_toCrlf ["output"] (by decide)⟩

end Stencil
