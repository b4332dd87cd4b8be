import Stencil.Proofs.Template.Layout

/-!
# Lines that hold only constructs

A line of blanks, comments and tags (`ConstructLine`), none of which keeps its line, leaves nothing
of itself but its tags (`ConstructLine.lays`). That it leaves what stands before and behind it alone is
a matter of the line breaks around it.

* A construct does not look beyond a line feed that ends the text behind it (`Construct.extend`), so
  a text of complete lines reads, and is laid out, before what follows it (`Lays.append`).
* Behind such a text a line begins (`Page.Fresh`), although the line break in front of it may have gone
  with a line before: nothing stands on the line that could be deleted (`Lays.fresh`). A verbatim block
  would break this, since it joins the line behind it to its content.

Main definitions: `EndsLine`, `BlockFree`, `ConstructLine`. Main statements: `Construct.extend`,
`Lays.append`, `Lays.fresh`, `construct_line_invisible`.
-/

namespace Stencil

/-! ### Texts that end in a line feed -/

/-- A text that ends in a line feed. -/
def EndsLine (text : List Char) : Prop := text.getLast? = some '\n'

namespace EndsLine

variable {text front rest run more : List Char}

theorem mem (h : EndsLine text) : '\n' ∈ text := List.mem_of_getLast? h

/-- What is left of a text that ends in a line feed ends in it too, unless nothing is left. -/
theorem of_append (h : EndsLine (front ++ rest)) : rest = [] ∨ EndsLine rest := by
  rcases eq_or_ne rest [] with rfl | hne
  · exact .inl rfl
  · refine .inr ?_
    unfold EndsLine at h ⊢
    rwa [List.getLast?_append_of_ne_nil _ hne] at h

/-- A run without a line feed that a longer text begins with is one that the text begins with. -/
theorem split (h : EndsLine text) (hrun : '\n' ∉ run) (heq : text ++ more = run ++ rest) :
    ∃ tail, text = run ++ tail ∧ rest = tail ++ more ∧ EndsLine tail := by
  rcases List.append_eq_append_iff.1 heq with ⟨tail, rfl, -⟩ | ⟨tail, rfl, rfl⟩
  · exact absurd (List.mem_append_left _ h.mem) hrun
  · refine ⟨tail, rfl, rfl, h.of_append.resolve_left ?_⟩
    rintro rfl
    rw [List.append_nil] at h
    exact hrun h.mem

/-- What follows a text that ends a line does not change its first character. -/
theorem head? (h : EndsLine text) : (text ++ more).head? = text.head? := by
  cases text with
  | nil => cases h
  | cons c cs => rfl

end EndsLine

/-! ### Constructs on lines that are complete -/

section Extending

variable {cs rest more : List Char}

/-- Arguments end in a closing parenthesis. -/
theorem Arguments.front {p : List Char} (h : Arguments cs p rest) :
    ∃ front, cs = front ++ ')' :: rest := by
  cases h with
  | @mk spaces => exact ⟨spaces ++ '(' :: p, by simp⟩

theorem AllSpaces.not_mem {spaces : List Char} (h : AllSpaces spaces) : '\n' ∉ spaces :=
  fun hmem => absurd (h _ hmem) (by decide)

theorem AllTagChars.not_mem {word : List Char} (h : AllTagChars word) : '\n' ∉ word :=
  fun hmem => absurd (h _ hmem) (by decide)

/-- A construct does not end in a line feed. -/
theorem Construct.front {piece : Piece} (h : Construct cs piece rest) :
    ∃ front, cs = front ++ rest ∧ front.getLast? ≠ some '\n' := by
  -- most constructs end in a fixed character, which is not a line feed
  have closed {front : List Char} (c : Char) (hc : c ≠ '\n') (heq : cs = front ++ c :: rest) :
      ∃ front, cs = front ++ rest ∧ front.getLast? ≠ some '\n' := by
    refine ⟨front ++ [c], by rw [heq, List.append_assoc, List.singleton_append], ?_⟩
    rw [List.getLast?_concat]
    exact fun h => hc (Option.some.inj h)
  cases h with
  | lone => exact ⟨[], rfl, nofun⟩
  -- a line comment ends in front of the line break
  | @lineComment body _ hends =>
    refine ⟨'#' :: body, rfl, fun hlast => ?_⟩
    rcases List.mem_cons.1 (List.mem_of_getLast? hlast) with h | h
    · cases h
    · exact hends.1 h
  | @blockComment cs' body _ hfirst =>
    obtain ⟨rfl, -⟩ := hfirst
    exact @closed ('-' :: '-' :: (body ++ ['-', '-'])) '#' (by decide) (by simp)
  | @verbatim cs' body _ hfirst =>
    obtain ⟨rfl, -⟩ := hfirst
    exact @closed ('[' :: '[' :: (body ++ [']', ']'])) '#' (by decide) (by simp)
  | tag htag =>
    cases htag with
    | @output p => exact @closed ('(' :: p) ')' (by decide) rfl
    | @call name after p _ mark _ _ _ hafter =>
      obtain ⟨front, rfl⟩ := hafter.front
      exact @closed ('@' :: (name ++ (mark.toList ++ front))) ')' (by decide) (by simp)
    | plain hword hrun =>
      exact ⟨_, rfl, fun hlast =>
        AllTagChars.not_mem hrun.all (List.mem_of_getLast? hlast)⟩
    | @define spaces name after p _ _ _ _ _ hafter =>
      obtain ⟨front, rfl⟩ := hafter.front
      exact @closed ("define".toList ++ (spaces ++ (name ++ front))) ')' (by decide) (by simp)
    | @named c word after p _ mark _ _ _ _ _ hafter =>
      obtain ⟨front, rfl⟩ := hafter.front
      exact @closed (c :: (word ++ (mark.toList ++ front))) ')' (by decide) (by simp)

/-- What is left behind a construct ends in a line feed if the whole text does. -/
theorem Construct.endsLine {piece : Piece} (h : Construct cs piece rest) (hcs : EndsLine cs) :
    EndsLine rest := by
  obtain ⟨front, rfl, hlast⟩ := h.front
  refine hcs.of_append.resolve_left ?_
  rintro rfl
  rw [List.append_nil] at hcs
  exact hlast hcs

/-- What opens a construct in a text of complete lines opens it within this text. -/
theorem Opens.of_append (hcs : EndsLine cs) (h : Opens (cs ++ more)) : Opens cs := by
  -- every opener is a fixed text without line feeds, so it ends before the first line does
  have hfront : ∀ needle : List Char, '\n' ∉ needle → needle <+: cs ++ more → needle <+: cs := by
    rintro needle hneedle ⟨tail, htail⟩
    obtain ⟨tail, rfl, -, -⟩ := hcs.split hneedle htail.symm
    exact List.prefix_append needle tail
  rcases h with h | h | h | h | h | ⟨hstart, hname⟩
  · exact .inl (hfront _ (by decide) h)
  · exact .inr (.inl (hfront _ (by decide) h))
  · exact .inr (.inr (.inl (hfront _ (by decide) h)))
  · exact .inr (.inr (.inr (.inl (hfront _ (by decide) h))))
  · exact .inr (.inr (.inr (.inr (.inl (hfront _ (by decide) h)))))
  -- the last opener is no fixed text but a word and what stands behind it
  · refine .inr (.inr (.inr (.inr (.inr ⟨?_, ?_⟩))))
    · rwa [hcs.head?] at hstart
    · obtain ⟨word, after, hword, hrun, hname⟩ := hname
      obtain ⟨tail, rfl, rfl, htail⟩ := hcs.split (AllTagChars.not_mem hrun.all) hword
      refine ⟨word, tail, rfl, ⟨hrun.all, fun c hc => hrun.ends c (by rwa [htail.head?])⟩,
        hname.imp id (Or.imp id ?_)⟩
      rintro ⟨mark, spaces, last, hspaces, hmark, hafter⟩
      -- between the name and the parenthesis stand a question mark and spaces at most
      have hplain : '\n' ∉ mark.toList ++ (spaces ++ ['(']) := by
        rw [List.mem_append, List.mem_append, not_or, not_or]
        refine ⟨fun hmem => ?_, hspaces.not_mem, by decide⟩
        have hquestion := (hmark _ (Option.mem_toList.1 hmem)).2
        exact absurd hquestion (by decide)
      have hsplit : tail ++ more = mark.toList ++ (spaces ++ ['(']) ++ last := by
        rw [hafter]
        simp
      obtain ⟨last, rfl, -, -⟩ := htail.split hplain hsplit
      exact ⟨mark, spaces, last, hspaces, hmark, by simp⟩

/-- Arguments stay what they are whatever follows. -/
theorem Arguments.extend {p : List Char} (h : Arguments cs p rest) (more : List Char) :
    Arguments (cs ++ more) p (rest ++ more) := by
  cases h with
  | mk hspaces hbalanced =>
    have hextended := @Arguments.mk _ _ (rest ++ more) hspaces hbalanced
    simpa using hextended

/-- A tag that ends within a line stays what it is whatever follows this line. -/
theorem TagReads.extend {tag : Tag} (h : TagReads cs tag rest) (hrest : EndsLine rest)
    (more : List Char) : TagReads (cs ++ more) tag (rest ++ more) := by
  cases h with
  | output hbalanced =>
    have hextended := @TagReads.output _ (rest ++ more) hbalanced
    simpa using hextended
  | call hne hname hmark hafter =>
    simpa using TagReads.call hne hname hmark (hafter.extend more)
  -- a word without parameters ends where its characters do, and that is within the line
  | @plain word _ hword hrun =>
    have hrun' : IsRun isTagChar word (rest ++ more) :=
      ⟨hrun.all, fun c hc => hrun.ends c (by rwa [hrest.head?] at hc)⟩
    simpa using TagReads.plain hword hrun'
  | define hne hspaces hname hall hafter =>
    simpa using TagReads.define hne hspaces hname hall (hafter.extend more)
  | named hstart hall hplain hdefine hmark hafter =>
    simpa using TagReads.named hstart hall hplain hdefine hmark (hafter.extend more)

/-- The first place of a mark in a text is the first one in every longer text. -/
theorem FirstAt.extend {needle text before after : List Char}
    (h : FirstAt needle text before after) (more : List Char) :
    FirstAt needle (text ++ more) before (after ++ more) := by
  obtain ⟨rfl, hfirst⟩ := h
  refine ⟨by simp, fun front back heq => Nat.le_of_not_lt fun hlt => ?_⟩
  -- An earlier occurrence would end before the text does.
  have hlength : (front ++ needle).length ≤ (before ++ needle ++ after).length := by
    simp only [List.length_append]
    omega
  obtain ⟨back, hback⟩ : front ++ needle <+: before ++ needle ++ after :=
    List.prefix_of_prefix_length_le ⟨back, heq.symm⟩ (List.prefix_append _ _) hlength
  exact absurd (hfirst front back hback.symm) (Nat.not_le_of_lt hlt)

/-- What stands at the end of a line stands there whatever follows the line. -/
theorem AtLineEnd.extend {after : List Char} (h : AtLineEnd after) (hends : EndsLine after)
    (more : List Char) : AtLineEnd (after ++ more) := fun c hc => h c (by rwa [hends.head?] at hc)

/-- A comment that ends within a line ends there whatever follows the line. -/
theorem EndsComment.extend {body after : List Char} (h : EndsComment body after)
    (hends : EndsLine after) (more : List Char) : EndsComment body (after ++ more) := by
  refine ⟨h.1, h.2.imp (And.imp_left fun hline => hline.extend hends more) ?_⟩
  rintro ⟨tail, rfl, hline⟩
  have htail : EndsLine tail := by
    rw [← List.singleton_append] at hends
    refine hends.of_append.resolve_left ?_
    rintro rfl
    cases hends
  exact ⟨tail ++ more, rfl, hline.extend htail more⟩

/-- **Constructs do not look beyond a line feed** that ends the text behind them. -/
theorem Construct.extend {piece : Piece} (h : Construct cs piece rest) (hcs : EndsLine cs)
    (more : List Char) : Construct (cs ++ more) piece (rest ++ more) := by
  have hrest := h.endsLine hcs
  cases h with
  | lone hopens => exact .lone fun h => hopens (h.of_append hcs)
  | lineComment hends =>
    rw [List.cons_append, List.append_assoc]
    exact .lineComment (hends.extend hrest more)
  | blockComment hfirst => exact .blockComment (hfirst.extend more)
  | verbatim hfirst => exact .verbatim (hfirst.extend more)
  | tag htag => exact .tag (htag.extend hrest more)

end Extending

/-! ### The rest of a line that is complete -/

namespace EndsLine

variable {text more : List Char}

/-- A line break that a longer text begins with is one that the text begins with. -/
theorem lineBreak (h : EndsLine text) {after : List Char} (hbreak : LineBreak (text ++ more) after) :
    ∃ rest, after = rest ++ more ∧ LineBreak text rest := by
  rcases text with _ | ⟨c, _ | ⟨d, text⟩⟩
  · cases h
  · obtain rfl : c = '\n' := Option.some.inj h
    cases hbreak
    exact ⟨[], rfl, .lf []⟩
  · rw [List.cons_append, List.cons_append] at hbreak
    cases hbreak with
    | lf => exact ⟨d :: text, rfl, .lf _⟩
    | crlf => exact ⟨text, rfl, .crlf _⟩

/-- The rest of a line that is complete is skipped up to the next line. -/
theorem skipLine_append (h : EndsLine text) (hblank : blankAhead text = true) (more : List Char) :
    blankAhead (text ++ more) = true ∧ (skipLine (text ++ more)).1 = (skipLine text).1 ++ more := by
  obtain ⟨spaces, rest, after, rfl, hspaces, hbreak⟩ := exists_lineBreak_of_blankAhead hblank
  have hmore : LineBreak (rest ++ more) (after ++ more) := by
    cases hbreak with
    | none =>
      rw [List.append_nil] at h
      exact absurd h.mem hspaces.not_mem
    | lf => exact .lf _
    | crlf => exact .crlf _
  rw [(blankAhead_of_lineBreak hspaces hbreak).2, List.append_assoc]
  exact blankAhead_of_lineBreak hspaces hmore

/-- Whether only blanks follow on a line that is complete does not depend on the next line. -/
theorem blankAhead_append (h : EndsLine text) (more : List Char) :
    blankAhead (text ++ more) = blankAhead text := by
  rw [Bool.eq_iff_iff]
  refine ⟨fun hblank => ?_, fun hblank => (h.skipLine_append hblank more).1⟩
  obtain ⟨spaces, rest, after, heq, hspaces, hbreak⟩ := exists_lineBreak_of_blankAhead hblank
  obtain ⟨tail, rfl, rfl, htail⟩ := h.split hspaces.not_mem heq
  obtain ⟨_, -, hbreak⟩ := htail.lineBreak hbreak
  exact (blankAhead_of_lineBreak hspaces hbreak).1

end EndsLine

/-- A text that ends where a line begins: an empty one, or one that ends in a line feed. -/
def ToLineStart (text : List Char) : Prop := text = [] ∨ EndsLine text

namespace ToLineStart

variable {c : Char} {cs : List Char}

/-- Behind a character, the text still goes to the start of a line. -/
theorem tail (h : ToLineStart (c :: cs)) : ToLineStart cs := by
  have hends : EndsLine ([c] ++ cs) := h.resolve_left (List.cons_ne_nil c cs)
  exact hends.of_append

/-- Behind a `#`, the text ends a line, for the `#` is no line feed. -/
theorem behind_hash (h : ToLineStart ('#' :: cs)) : EndsLine cs := by
  refine h.tail.resolve_left ?_
  rintro rfl
  rcases h with h | h <;> cases h

end ToLineStart

/-- Where a complete line is passed over, what is left is a text of complete lines. -/
theorem EndsLine.skipLine {text : List Char} (h : EndsLine text) :
    ToLineStart (skipLine text).1 := by
  obtain ⟨front, hfront⟩ := skipLine_suffix text
  rw [← hfront] at h
  exact h.of_append

/-! ### Layouts of texts of complete lines -/

variable {keep : List String} {g g' : Page} {text more : List Char}

/-- **A text of complete lines is laid out before what follows it.** -/
theorem Lays.append {g'' : Page} (h : Lays keep g text g') (htext : ToLineStart text)
    (h' : Lays keep g' more g'') : Lays keep g (text ++ more) g'' := by
  induction h with
  | nil => exact h'
  | char hc _ ih => exact .char hc (ih htext.tail h')
  -- the construct ends within the text, and so does the line it takes with it
  | @take _ _ cs rest _ hconstruct htakes _ ih =>
    have hcs := htext.behind_hash
    have hrest := hconstruct.endsLine hcs
    have hblank : blankAhead rest = true :=
      (Bool.and_eq_true_iff.1 (Bool.and_eq_true_iff.1 htakes).1).2
    have hlays := ih hrest.skipLine h'
    rw [← (hrest.skipLine_append hblank more).2] at hlays
    rw [← hrest.blankAhead_append more] at htakes
    exact .take (hconstruct.extend hcs more) htakes hlays
  | @stay _ _ cs rest _ hconstruct hstays _ ih =>
    have hcs := htext.behind_hash
    have hrest := hconstruct.endsLine hcs
    rw [← hrest.blankAhead_append more] at hstays
    exact .stay (hconstruct.extend hcs more) hstays (ih (.inr hrest) h')

/-! ### Pages at the start of a line -/

/-- A text without verbatim blocks. -/
inductive BlockFree : List Char → Prop
  | nil : BlockFree []
  | char {c : Char} {cs : List Char} : c ≠ '#' → BlockFree cs → BlockFree (c :: cs)
  | construct {cs rest : List Char} {piece : Piece} : Construct cs piece rest →
      (∀ chars, piece ≠ .verbatim chars) → BlockFree rest → BlockFree ('#' :: cs)

namespace BlockFree

/-- Characters that are no `#` do not matter for verbatim blocks. -/
theorem literal {run rest : List Char} (hrun : ∀ c ∈ run, c ≠ '#') :
    BlockFree (run ++ rest) ↔ BlockFree rest := by
  induction run with
  | nil => exact Iff.rfl
  | cons c run ih =>
    have hc : c ≠ '#' := hrun c List.mem_cons_self
    rw [List.cons_append, ← ih fun d hd => hrun d (List.mem_cons_of_mem c hd)]
    refine ⟨fun h => ?_, .char hc⟩
    cases h with
    | char _ h => exact h
    | construct => exact absurd rfl hc

/-- The construct at the head of a text without verbatim blocks is none, and none follows. -/
theorem inv {cs rest : List Char} {piece : Piece} (h : BlockFree ('#' :: cs))
    (hconstruct : Construct cs piece rest) :
    (∀ chars, piece ≠ .verbatim chars) ∧ BlockFree rest := by
  cases h with
  | char hc => exact absurd rfl hc
  | construct hconstruct' hpiece hrest =>
    obtain ⟨rfl, rfl⟩ := hconstruct.unique hconstruct'
    exact ⟨hpiece, hrest⟩

/-- What follows a line has no verbatim blocks either. -/
theorem skipLine {rest : List Char} (h : BlockFree rest) (hblank : blankAhead rest = true) :
    BlockFree (skipLine rest).1 := by
  obtain ⟨spaces, rest, after, rfl, hspaces, hbreak⟩ := exists_lineBreak_of_blankAhead hblank
  rw [(blankAhead_of_lineBreak hspaces hbreak).2]
  have hplain : ∀ c ∈ spaces, c ≠ '#' := by
    rintro c hc rfl
    exact absurd (hspaces _ hc) (by decide)
  rw [literal hplain] at h
  cases hbreak with
  | none => exact h
  | lf => exact (@literal ['\n'] _ (by simp)).1 h
  | crlf => exact (@literal ['\r', '\n'] _ (by simp)).1 h

end BlockFree

/-- A text that is cut into other pieces than verbatim blocks has no verbatim blocks. -/
theorem blockFree_of_cutFrom {row : Nat} {pieces : List PlacedPiece}
    (h : cutFrom row text = .ok pieces)
    (hblocks : ∀ p ∈ pieces, ∀ chars, p.piece ≠ .verbatim chars) : BlockFree text := by
  fun_induction cutFrom row text generalizing pieces with
  | case1 => exact .nil
  | case2 | case3 => cases h
  | case4 row c cs piece rest rows hs tail hr ih =>
    cases h
    have hrest : BlockFree rest := ih hr fun p hp => hblocks p (List.mem_cons_of_mem _ hp)
    -- the piece is a construct behind a `#`, or a run of characters up to the next `#`
    by_cases hc : c = '#'
    · subst hc
      exact .construct (scanConstruct_eq_ok_iff.1 ⟨rows, hs⟩) (hblocks _ List.mem_cons_self) hrest
    · obtain ⟨run, htext, -, -, hplain, -⟩ := exists_run_of_scanPiece hc hs
      rw [htext]
      exact (BlockFree.literal hplain).2 hrest

/-- A page at the start of a line, with nothing on the line. -/
structure Page.Fresh (g : Page) : Prop where
  clean : g.clean = true
  settled : dropLine g.regions = g.regions

/-- A line feed makes a fresh line. -/
theorem Page.fresh_lineFeed (g : Page) : (g.push ['\n']).Fresh where
  clean := rfl
  settled := by
    unfold Page.push
    rw [List.map_singleton, dropLine_concat_char, if_pos rfl]

/-- A construct without a text of its own leaves nothing on the line that it takes. -/
theorem Page.fresh_take (g : Page) {piece : Piece} (htakes : piece.takesLine keep = true)
    (hpiece : ∀ chars, piece ≠ .verbatim chars) : (g.take piece).Fresh where
  clean := rfl
  settled := by
    unfold Page.take
    cases piece with
    | text => cases htakes
    | verbatim chars => exact absurd rfl (hpiece chars)
    | lineComment | blockComment =>
      rw [Piece.regions, List.append_nil, dropLine_dropLine]
    | tag t =>
      rw [Piece.regions, dropLine_concat_tag, dropLine_dropLine]

/-- **Behind a text of complete lines a line begins**, on which nothing stands. -/
theorem Lays.fresh (h : Lays keep g text g') (hfree : BlockFree text) (htext : EndsLine text) :
    g'.Fresh := by
  induction h with
  | nil => cases htext
  -- the last character is a line feed, which leaves a fresh line
  | @char g _ c cs hc h ih =>
    rcases ToLineStart.tail (.inr htext) with rfl | hcs
    · obtain rfl : c = '\n' := Option.some.inj htext
      cases h
      exact g.fresh_lineFeed
    · exact ih ((@BlockFree.literal [c] cs (by simpa using hc)).1 hfree) hcs
  -- a construct that takes its line along leaves a fresh line if the text ends with this line
  | @take g _ cs rest piece hconstruct htakes h ih =>
    have hrest := hconstruct.endsLine (ToLineStart.behind_hash (.inr htext))
    obtain ⟨hclean, htakesLine⟩ := Bool.and_eq_true_iff.1 htakes
    have hblank : blankAhead rest = true := (Bool.and_eq_true_iff.1 hclean).2
    obtain ⟨hpiece, hfree⟩ := hfree.inv hconstruct
    rcases hrest.skipLine with hnil | hnext
    · rw [hnil] at h
      cases h
      exact g.fresh_take htakesLine hpiece
    · exact ih (hfree.skipLine hblank) hnext
  | stay hconstruct _ _ ih =>
    have hrest := hconstruct.endsLine (ToLineStart.behind_hash (.inr htext))
    exact ih (hfree.inv hconstruct).2 hrest

/-! ### Lines of constructs -/

/-- The tags that a piece is. -/
def Piece.tags : Piece → List Tag
  | .tag t => [t]
  | .text _ | .lineComment | .blockComment | .verbatim _ => []

/-- Whether a piece is a comment, or a tag that does not keep its line. -/
def Piece.Vanishes (keep : List String) : Piece → Prop
  | .lineComment | .blockComment => True
  | .tag t => t.id ∉ keep
  | .text _ | .verbatim _ => False

/-- `ConstructLine keep line tags`: a line, with its line break, is made of one or more comments and
tags that do not keep their line, with blanks around them, and `tags` are its tags. -/
inductive ConstructLine (keep : List String) : List Char → List Tag → Prop
  | blank {c : Char} {line : List Char} {tags : List Tag} : isSpace c = true →
      ConstructLine keep line tags → ConstructLine keep (c :: line) tags
  | last {cs spaces rest : List Char} {piece : Piece} : Construct cs piece (spaces ++ rest) →
      piece.Vanishes keep → AllSpaces spaces → rest = ['\n'] ∨ rest = ['\r', '\n'] →
      ConstructLine keep ('#' :: cs) piece.tags
  | more {cs rest : List Char} {piece : Piece} {tags : List Tag} : Construct cs piece rest →
      piece.Vanishes keep → ConstructLine keep rest tags →
      ConstructLine keep ('#' :: cs) (piece.tags ++ tags)

/-- The part of a page that a piece without text adds to. -/
theorem Piece.Vanishes.spec {piece : Piece} (h : piece.Vanishes keep) :
    piece.takesLine keep = true ∧ piece.regions = piece.tags.map .tag ∧
      ∀ g : Page, g.clean = true →
        g.stay keep piece = ⟨g.regions ++ piece.tags.map .tag, true⟩ := by
  cases piece with
  | text | verbatim => exact h.elim
  | lineComment | blockComment =>
    refine ⟨rfl, rfl, fun g hclean => ?_⟩
    rw [tags, List.map_nil, List.append_nil, ← hclean]
    rfl
  | tag t =>
    have hkeep : t.id ∉ keep := h
    refine ⟨decide_eq_true hkeep, rfl, fun g hclean => ?_⟩
    rw [Page.stay, hclean, decide_eq_true hkeep]
    rfl

/-- Tags are not dropped with the blanks of their line. -/
theorem dropLine_tags (rs : List Region) (tags : List Tag) :
    dropLine (rs ++ tags.map .tag) = dropLine rs ++ tags.map .tag := by
  induction tags using List.reverseRecOn with
  | nil => rw [List.map_nil, List.append_nil, List.append_nil]
  | append_singleton tags t ih =>
    rw [List.map_append, List.map_singleton, ← List.append_assoc, dropLine_concat_tag, ih,
      List.append_assoc]

namespace ConstructLine

variable {line : List Char} {tags : List Tag}

/-- A line of constructs ends a line. -/
theorem endsLine (h : ConstructLine keep line tags) : EndsLine line := by
  have prepend {front rest : List Char} (hrest : EndsLine rest) : EndsLine (front ++ rest) := by
    unfold EndsLine at hrest ⊢
    rw [List.getLast?_append, hrest]
    rfl
  -- only the last construct of the line matters, which is followed by blanks and a line break
  induction h with
  | @blank c line _ _ _ ih => exact @prepend [c] line ih
  | @last cs spaces rest _ hconstruct _ _ hbreak =>
    obtain ⟨front, rfl, -⟩ := hconstruct.front
    have hrest : EndsLine rest := by
      rcases hbreak with rfl | rfl <;> rfl
    exact @prepend ('#' :: front) _ (prepend hrest)
  | @more cs rest _ _ hconstruct _ _ ih =>
    obtain ⟨front, rfl, -⟩ := hconstruct.front
    exact @prepend ('#' :: front) _ ih

/-- There is a construct ahead. -/
theorem blankAhead (h : ConstructLine keep line tags) : blankAhead line = false := by
  induction h with
  | @blank c line _ hc _ ih =>
    unfold Stencil.blankAhead at ih ⊢
    rwa [List.dropWhile_cons_of_pos hc]
  | last | more => rfl

/-- **A line of constructs leaves its tags behind**, and what stands in front of it on the line goes
with it. -/
theorem lays (h : ConstructLine keep line tags) (hclean : g.clean = true)
    (h' : Lays keep ⟨dropLine g.regions ++ tags.map .tag, true⟩ more g') :
    Lays keep g (line ++ more) g' := by
  induction h generalizing g with
  -- a blank is a character of the page, and it goes with the line since nothing else stands there
  | @blank c line tags hc _ ih =>
    have hplain : c ≠ '#' ∧ c ≠ '\n' := by
      constructor <;> (rintro rfl; exact absurd hc (by decide))
    have hpush : (g.push [c]).clean = true := by
      change (if c = '\n' then true else if isSpace c || c == '\r' then g.clean else false) = true
      rw [if_neg hplain.2, hc, hclean]
      rfl
    refine .char hplain.1 (ih hpush ?_)
    change Lays keep ⟨dropLine (g.regions ++ [.char c]) ++ _, true⟩ more g'
    rwa [dropLine_concat_char, if_neg hplain.2]
  -- the last construct takes the line along, its own blanks and the line break included
  | @last cs spaces rest piece hconstruct hvanishes hspaces hbreak =>
    obtain ⟨htakesLine, hregions, -⟩ := hvanishes.spec
    have hends := (last hconstruct hvanishes hspaces hbreak).endsLine
    have hbreak' : LineBreak (rest ++ more) more := by
      rcases hbreak with rfl | rfl
      · exact .lf more
      · exact .crlf more
    obtain ⟨hblank, hskip⟩ := blankAhead_of_lineBreak hspaces hbreak'
    have hextended := hconstruct.extend (ToLineStart.behind_hash (.inr hends)) more
    rw [List.append_assoc] at hextended
    refine .take hextended ?_ ?_
    · unfold Page.takes
      rw [hclean, hblank, htakesLine]
      rfl
    · rw [hskip]
      unfold Page.take
      rwa [hregions]
  -- a construct ahead keeps the others from taking the line, so they stay on it
  | @more cs rest piece tags hconstruct hvanishes hrest ih =>
    obtain ⟨-, hregions, hstay⟩ := hvanishes.spec
    have hends := (ConstructLine.more hconstruct hvanishes hrest).endsLine
    refine .stay (hconstruct.extend (ToLineStart.behind_hash (.inr hends)) _) ?_ ?_
    · unfold Page.takes
      rw [hrest.endsLine.blankAhead_append, hrest.blankAhead, Bool.and_false, Bool.false_and]
    · rw [hstay g hclean]
      refine ih rfl ?_
      rwa [dropLine_tags, List.append_assoc, ← List.map_append]

end ConstructLine

/-! ### Readings of texts of complete lines -/

/-- Texts have items exactly if they have a reading. -/
theorem exists_itemsOf_iff (keep : List String) {text : List Char} :
    (∃ items, itemsOf keep text = .ok items) ↔ ∃ rs, Reads text rs := by
  constructor
  · rintro ⟨items, h⟩
    unfold itemsOf at h
    -- texts that cannot be cut into pieces have no items
    cases hcut : cutTemplate text with
    | error fault =>
      rw [hcut] at h
      cases h
    | ok pieces => exact ⟨_, reads_of_cutFrom hcut⟩
  · rintro ⟨rs, h⟩
    obtain ⟨pieces, hcut, -⟩ := exists_cutFrom_of_reads h 1
    refine ⟨(Layer.addAll keep {} pieces).items, ?_⟩
    unfold itemsOf cutTemplate
    rw [hcut]
    rfl

variable {rs rs' : List Region}

/-- A text of complete lines is read before what follows it. -/
theorem Reads.append {text : List Char} (h : Reads text rs) (htext : ToLineStart text)
    (h' : Reads more rs') : Reads (text ++ more) (rs ++ rs') := by
  induction h with
  | nil => exact h'
  | char hc _ ih => exact .char hc (ih htext.tail)
  | construct hconstruct _ ih =>
    have hcs := htext.behind_hash
    rw [List.append_assoc]
    exact .construct (hconstruct.extend hcs more) (ih (.inr (hconstruct.endsLine hcs)))

/-- What stands behind a text of complete lines has a reading of its own. -/
theorem Reads.of_append {text : List Char} (h : Reads text rs) (htext : ToLineStart text)
    (h' : Reads (text ++ more) rs') : ∃ rs, Reads more rs := by
  induction h generalizing rs' with
  | nil => exact ⟨rs', h'⟩
  -- both readings take the same step, since a construct in the longer text is one in the shorter
  | char hc _ ih =>
    cases h' with
    | char _ h' => exact ih htext.tail h'
    | construct => exact absurd rfl hc
  | construct hconstruct _ ih =>
    have hcs := htext.behind_hash
    cases h' with
    | char hc => exact absurd rfl hc
    | construct hconstruct' h' =>
      obtain ⟨rfl, rfl⟩ := (hconstruct.extend hcs more).unique hconstruct'
      exact ih (.inr (hconstruct.endsLine hcs)) h'

/-- A line of constructs reads. -/
theorem ConstructLine.reads {line : List Char} {tags : List Tag}
    (h : ConstructLine keep line tags) : ∃ rs, Reads line rs := by
  induction h with
  | @blank c _ _ hc _ ih =>
    have hplain : c ≠ '#' := by
      rintro rfl
      exact absurd hc (by decide)
    obtain ⟨rs, ih⟩ := ih
    exact ⟨_, .char hplain ih⟩
  | @last cs spaces rest _ hconstruct _ hspaces hbreak =>
    have hplain : ∀ c ∈ spaces ++ rest, c ≠ '#' := by
      rintro c hc rfl
      rcases List.mem_append.1 hc with hc | hc
      · exact absurd (hspaces _ hc) (by decide)
      · rcases hbreak with rfl | rfl <;> exact absurd hc (by decide)
    have hrest := Reads.literal hplain .nil
    rw [List.append_nil] at hrest
    exact ⟨_, .construct hconstruct hrest⟩
  | more hconstruct _ _ ih =>
    obtain ⟨rs, ih⟩ := ih
    exact ⟨_, .construct hconstruct ih⟩

/-! ### Lines of constructs among others -/

/-- **Lines of constructs are invisible.** Let `pre` be a text of complete lines, or empty, that is
cut into other pieces than verbatim blocks, and let `line` be a line that holds one or more comments
and tags that do not keep their line, and blanks around them. If `pre ++ post` has items, so do `post`
and the text with the line between the two. Up to rows and empty texts, and up to where a text is cut
in two, the items of the one text are those of `pre` and of `post`, and those of the other have the
tags of the line between them. -/
theorem construct_line_invisible {pre line post : List Char} {pieces : List PlacedPiece}
    {tags : List Tag} {whole : List Item} (hpre : ToLineStart pre)
    (hcut : cutTemplate pre = .ok pieces)
    (hblocks : ∀ p ∈ pieces, ∀ chars, p.piece ≠ .verbatim chars)
    (hline : ConstructLine keep line tags) (hwhole : itemsOf keep (pre ++ post) = .ok whole) :
    ∃ front back items, itemsOf keep pre = .ok front ∧ itemsOf keep post = .ok back ∧
      itemsOf keep (pre ++ (line ++ post)) = .ok items ∧
      plainPieces whole =
        joined (front.flatMap Item.regions ++ back.flatMap Item.regions) ∧
      plainPieces items =
        joined (front.flatMap Item.regions ++ (tags.map .tag ++ back.flatMap Item.regions)) := by
  have hreads := reads_of_cutFrom hcut
  -- All three texts have items.
  obtain ⟨_, hwholeReads⟩ := (exists_itemsOf_iff keep).1 ⟨whole, hwhole⟩
  obtain ⟨_, hpostReads⟩ := hreads.of_append hpre hwholeReads
  obtain ⟨_, hlineReads⟩ := hline.reads
  obtain ⟨front, hfront⟩ := (exists_itemsOf_iff keep).2 ⟨_, hreads⟩
  obtain ⟨back, hback⟩ := (exists_itemsOf_iff keep).2 ⟨_, hpostReads⟩
  obtain ⟨items, hitems⟩ := (exists_itemsOf_iff keep).2
    ⟨_, hreads.append hpre (hlineReads.append (.inr hline.endsLine) hpostReads)⟩
  refine ⟨front, back, items, hfront, hback, hitems, ?_⟩
  -- A line begins behind `pre`, and what follows is laid out behind its regions.
  obtain ⟨g, hlays, hregions⟩ := lays_of_itemsOf hfront
  obtain ⟨g', hlays', hregions'⟩ := lays_of_itemsOf hback
  have hfresh : g.Fresh := by
    rcases hpre with rfl | hpre
    · cases hlays
      exact ⟨rfl, rfl⟩
    · exact hlays.fresh (blockFree_of_cutFrom hcut hblocks) hpre
  have hbase : dropLine (g.regions ++ tags.map .tag) = g.regions ++ tags.map .tag := by
    rw [dropLine_tags, hfresh.settled]
  have hempty (base : List Region) : ({} : Page).behind base = ⟨base, true⟩ :=
    congrArg (Page.mk · true) (List.append_nil base)
  have hwholeLays : Lays keep {} (pre ++ post) (g'.behind g.regions) := by
    refine hlays.append hpre ?_
    have hbehind := hlays'.behind hfresh.settled
    rwa [hempty, ← hfresh.clean] at hbehind
  have hitemsLays : Lays keep {} (pre ++ (line ++ post))
      (g'.behind (g.regions ++ tags.map .tag)) := by
    refine hlays.append hpre (hline.lays hfresh.clean ?_)
    have hbehind := hlays'.behind hbase
    rw [hfresh.settled]
    rwa [hempty] at hbehind
  rw [plainPieces_of_lays hwhole hwholeLays, plainPieces_of_lays hitems hitemsLays, ← hregions,
    ← hregions', ← List.append_assoc]
  exact ⟨rfl, rfl⟩

/-- Two tags and a comment, on a line between two lines whose blanks all stay. -/
theorem construct_line_invisible_tags :
    let keep := ["output"]
    let line := "\t#if(x) #-- c --##end \r\n".toList
    ∃ front back items, itemsOf keep "a \n".toList = .ok front ∧
      itemsOf keep " b".toList = .ok back ∧
      itemsOf keep ("a \n".toList ++ (line ++ " b".toList)) = .ok items ∧
      plainPieces items = [.text "a \n".toList, .tag (.directive "if" (some "x")),
        .tag (.directive "end" none), .text " b".toList] := by
  intro keep line
  have hcut : cutTemplate "a \n".toList = .ok [⟨.text "a \n".toList, 1⟩] := by cbv
  have hwhole : itemsOf keep ("a \n".toList ++ " b".toList) = .ok [.text "a \n b".toList 1] := by
    cbv
  have hline : ConstructLine keep line
      [.directive "if" (some "x"), .directive "end" none] := by
    have hend : Construct "end \r\n".toList (.tag (.directive "end" none)) " \r\n".toList :=
      scanConstruct_eq_ok_iff.1 ⟨0, by with_unfolding_all rfl⟩
    have hcomment : Construct "-- c --##end \r\n".toList .blockComment "#end \r\n".toList :=
      scanConstruct_eq_ok_iff.1 ⟨0, by with_unfolding_all rfl⟩
    have hif : Construct "if(x) #-- c --##end \r\n".toList (.tag (.directive "if" (some "x")))
        " #-- c --##end \r\n".toList := scanConstruct_eq_ok_iff.1 ⟨0, by with_unfolding_all rfl⟩
    have hspace : AllSpaces [' '] := by
      intro c hc
      rw [List.mem_singleton.1 hc]
      rfl
    have hlast := @ConstructLine.last keep _ [' '] ['\r', '\n'] _ hend
      (show "end" ∉ keep by decide) hspace (.inr rfl)
    exact .blank rfl (.more hif (show "if" ∉ keep by decide) (.blank rfl (.more hcomment trivial hlast)))
  have hends : EndsLine "a \n".toList := by
    unfold EndsLine
    decide
  have hblocks : ∀ p ∈ [PlacedPiece.mk (.text "a \n".toList) 1], ∀ chars,
      p.piece ≠ .verbatim chars := by
    intro p hp chars h
    rw [List.mem_singleton.1 hp] at h
    cases h
  obtain ⟨front, back, items, hfront, hback, hitems, -, hjoined⟩ :=
    construct_line_invisible (.inr hends) hcut hblocks hline hwhole
  have hfront' : itemsOf keep "a \n".toList = .ok [.text "a \n".toList 1] := by cbv
  have hback' : itemsOf keep " b".toList = .ok [.text " b".toList 1] := by cbv
  obtain rfl := Except.ok.inj (hfront.symm.trans hfront')
  obtain rfl := Except.ok.inj (hback.symm.trans hback')
  exact ⟨_, _, items, hfront, hback, hitems, hjoined⟩

end Stencil
