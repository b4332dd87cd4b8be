import Mathlib.Data.List.Chain
import Stencil.Proofs.Template.Trimming

/-!
# Laying out, character by character

How the lines of a text are laid out, written down without pieces, items and pending texts. A
**page** is what is left of the layout state: the regions that have been laid out, and whether the
current line is clean. `Lays keep g text g'` says that the page `g` becomes `g'` when the text is laid
out on it.

* A literal character is put on the page.
* A construct **takes** its line if the line is clean up to it and blank behind it, and if it is none
  that keeps its line: what stands on the line so far is deleted (`dropLine`), and the rest of the
  line, with its line break, is passed over. Any other construct **stays** on its line.

What the layout does is exactly this (`lays_of_itemsOf`, `Lays.unique`).

Main definitions: `Page`, `Lays`. Main statements: `lays_of_cutFrom`, `Lays.unique`,
`Lays.behind` (what stands in front of a line that is settled has no part in its layout).
-/

namespace Stencil

/-! ### Deleting the start of a line -/

/-- Deletes the characters behind the last line feed, the last region first. -/
def dropLineBack : List Region → List Region
  | [] => []
  | .char c :: rest => if c = '\n' then .char c :: rest else dropLineBack rest
  | .tag t :: rest => .tag t :: dropLineBack rest

/-- Deletes the characters behind the last line feed. Tags stay. -/
def dropLine (rs : List Region) : List Region := (dropLineBack rs.reverse).reverse

/-- Of nothing, nothing is deleted. -/
@[simp] theorem dropLine_nil : dropLine [] = [] := rfl

/-- The deletion ends at a line feed, and goes on behind any other character. -/
@[simp] theorem dropLine_concat_char (rs : List Region) (c : Char) :
    dropLine (rs ++ [.char c]) = if c = '\n' then rs ++ [.char c] else dropLine rs := by
  rw [dropLine, List.reverse_append, List.reverse_singleton, List.singleton_append, dropLineBack]
  split
  · rw [List.reverse_cons, List.reverse_reverse]
  · rfl

/-- A tag stays. -/
@[simp] theorem dropLine_concat_tag (rs : List Region) (t : Tag) :
    dropLine (rs ++ [.tag t]) = dropLine rs ++ [.tag t] := by
  rw [dropLine, List.reverse_append, List.reverse_singleton, List.singleton_append, dropLineBack,
    List.reverse_cons, dropLine]

/-- A line that is deleted has nothing more to delete. -/
theorem dropLine_dropLine (rs : List Region) : dropLine (dropLine rs) = dropLine rs := by
  induction rs using List.reverseRecOn with
  | nil => rfl
  | append_singleton rs r ih =>
    cases r with
    | char c =>
      rw [dropLine_concat_char]
      split
      · rename_i hc
        rw [dropLine_concat_char, if_pos hc]
      · exact ih
    | tag t => rw [dropLine_concat_tag, dropLine_concat_tag, ih]

/-- Regions of which nothing would be deleted stay in front of any others. -/
theorem dropLine_append {base : List Region} (hbase : dropLine base = base) (rs : List Region) :
    dropLine (base ++ rs) = base ++ dropLine rs := by
  induction rs using List.reverseRecOn with
  | nil => rw [List.append_nil, hbase, dropLine_nil, List.append_nil]
  | append_singleton rs r ih =>
    rw [← List.append_assoc]
    cases r with
    | char c =>
      rw [dropLine_concat_char, dropLine_concat_char, ih]
      split
      · rw [List.append_assoc]
      · rfl
    | tag t => rw [dropLine_concat_tag, dropLine_concat_tag, ih, List.append_assoc]

/-- The deletion ends in characters with a line feed, and goes through all others. -/
theorem dropLine_chars (rs : List Region) (chars : List Char) :
    dropLine (rs ++ chars.map .char) =
      if '\n' ∈ chars then rs ++ (keepLines chars).map .char else dropLine rs := by
  induction chars using List.reverseRecOn with
  | nil => simp
  | append_singleton chars c ih =>
    rw [List.map_append, List.map_singleton, ← List.append_assoc, dropLine_concat_char, ih]
    by_cases hc : c = '\n'
    · simp [hc, keepLines]
    · simp [hc, Ne.symm hc, keepLines]

/-- Deleting the start of a line from items deletes it from their regions. -/
theorem regionsOf_dropOpenLine (done : List Item) :
    regionsOf (dropOpenLine done) = dropLine (regionsOf done) := by
  induction done with
  | nil => rfl
  | cons item rest ih =>
    cases item with
    | text chars row =>
      rw [dropOpenLine, regionsOf_cons, Item.regions, dropLine_chars]
      split
      · rw [regionsOf_cons, Item.regions]
      · rw [regionsOf_cons, Item.regions, List.map_nil, List.append_nil, ih]
    | tag tag row =>
      rw [dropOpenLine, regionsOf_cons, regionsOf_cons, Item.regions, dropLine_concat_tag, ih]

/-- Deleting the start of a line of a layer deletes it from its regions. -/
theorem Layer.regions_deleteLineStart (l : Layer) : l.deleteLineStart.regions = dropLine l.regions := by
  rw [regions, stack_deleteLineStart, regionsOf_dropOpenLine, regions]

/-! ### The rest of a line -/

/-- Whether only blanks stand up to the end of the line. -/
def blankAhead (text : List Char) : Bool :=
  match text.dropWhile isSpace with
  | [] => true
  | '\n' :: _ => true
  | '\r' :: '\n' :: _ => true
  | _ => false

/-- `LineBreak rest after`: `rest` is a line break with `after` behind it, or nothing at all. -/
inductive LineBreak : List Char → List Char → Prop
  | none : LineBreak [] []
  | lf (after : List Char) : LineBreak ('\n' :: after) after
  | crlf (after : List Char) : LineBreak ('\r' :: '\n' :: after) after

theorem LineBreak.dropWhile {rest after : List Char} (h : LineBreak rest after) :
    rest.dropWhile isSpace = rest := by cases h <;> rfl

/-- Only blanks are ahead of a line break with spaces in front, and behind the line stands what
follows the break. -/
theorem blankAhead_of_lineBreak {spaces rest after : List Char} (hspaces : AllSpaces spaces)
    (h : LineBreak rest after) :
    blankAhead (spaces ++ rest) = true ∧ (skipLine (spaces ++ rest)).1 = after := by
  unfold blankAhead skipLine
  rw [List.dropWhile_append_of_pos hspaces, h.dropWhile]
  cases h <;> exact ⟨rfl, rfl⟩

/-- Where only blanks are ahead, there are spaces and a line break behind them. -/
theorem exists_lineBreak_of_blankAhead {text : List Char} (h : blankAhead text = true) :
    ∃ spaces rest after, text = spaces ++ rest ∧ AllSpaces spaces ∧ LineBreak rest after := by
  refine ⟨text.takeWhile isSpace, text.dropWhile isSpace, (skipLine text).1,
    List.takeWhile_append_dropWhile.symm, (isRun_span isSpace text).all, ?_⟩
  unfold blankAhead at h
  unfold skipLine
  split at h
  · rename_i heq
    rw [heq]
    exact .none
  · rename_i heq
    rw [heq]
    exact .lf _
  · rename_i heq
    rw [heq]
    exact .crlf _
  · cases h

/-- A construct is ahead, so not only blanks are. -/
theorem blankAhead_hash (text : List Char) : blankAhead ('#' :: text) = false := rfl

/-- A run of literal text decides about the rest of its line, unless it is blank. -/
theorem blankAhead_append {run rest : List Char} (hrest : ∀ c ∈ rest.head?, c = '#') :
    blankAhead (run ++ rest) =
      match run.dropWhile isSpace with
      | [] => rest.isEmpty
      | '\n' :: _ => true
      | '\r' :: '\n' :: _ => true
      | _ => false := by
  unfold blankAhead
  rw [List.dropWhile_append]
  -- by the first two characters behind the blanks of the run, on which the answer depends
  rcases run.dropWhile isSpace with _ | ⟨c, cs⟩
  -- the run is blank: a construct or the end of the text follows it
  · rcases rest with _ | ⟨d, rest⟩
    · rfl
    · obtain rfl : d = '#' := hrest d rfl
      rfl
  -- one character is left of the run: a carriage return alone does not end the line
  · rcases cs with _ | ⟨d, cs⟩
    · rcases rest with _ | ⟨d, rest⟩
      · rfl
      · obtain rfl : d = '#' := hrest d rfl
        simp only [List.isEmpty_cons, Bool.false_eq_true, if_false, List.singleton_append]
        split <;> simp_all
    -- two characters are left, and the rest does not matter
    · simp only [List.isEmpty_cons, Bool.false_eq_true, if_false, List.cons_append]
      split <;> simp_all

/-- A line is skipped from the front. -/
theorem skipLine_suffix (chars : List Char) : (skipLine chars).1 <:+ chars := by
  have hdrop : chars.dropWhile isSpace <:+ chars := List.dropWhile_suffix _
  unfold skipLine
  split
  · rename_i heq
    rw [heq] at hdrop
    exact (List.suffix_cons _ _).trans hdrop
  · rename_i heq
    rw [heq] at hdrop
    exact ((List.suffix_cons _ _).trans (List.suffix_cons _ _)).trans hdrop
  · exact hdrop

/-- The rest of a line that is literal text is skipped in this text. -/
theorem skipLine_append {run rest : List Char} (hrest : ∀ c ∈ rest.head?, c = '#')
    (hblank : blankAhead (run ++ rest) = true) :
    (skipLine (run ++ rest)).1 = (skipLine run).1 ++ rest := by
  rw [blankAhead_append hrest] at hblank
  unfold skipLine
  rw [List.dropWhile_append]
  split at hblank
  -- the run is blank, so the text ends with it
  · rename_i heq
    obtain rfl : rest = [] := List.isEmpty_iff.1 hblank
    rw [heq]
    rfl
  · rename_i heq
    rw [heq]
    rfl
  · rename_i heq
    rw [heq]
    rfl
  · cases hblank

/-- **The rest of a line.** Whether only blanks follow on a line can be told from the text as well as
from the pieces that it is cut into. -/
theorem blankBefore_of_cutFrom {row : Nat} {text : List Char} {pieces : List PlacedPiece}
    (h : cutFrom row text = .ok pieces) : blankBefore pieces = blankAhead text := by
  cases text with
  | nil =>
    rw [cutFrom] at h
    cases h
    rfl
  | cons c cs =>
    obtain ⟨piece, rest, n, tail, hs, htail, rfl⟩ := cutFrom_cons_eq_ok_iff.1 h
    -- a construct is ahead, as a piece that is no text
    by_cases hc : c = '#'
    · subst hc
      rw [blankAhead_hash]
      cases scanConstruct_eq_ok_iff.1 ⟨n, hs⟩ <;> rfl
    -- a run of characters is the first piece, and the next piece begins with a construct, if any
    · obtain ⟨run, htext, rfl, -, -, hrest⟩ := exists_run_of_scanPiece hc hs
      -- there are no more pieces exactly if there is no more text
      have hempty : tail.isEmpty = rest.isEmpty := by
        cases rest with
        | nil =>
          rw [cutFrom] at htail
          cases htail
          rfl
        | cons d rest =>
          obtain ⟨_, _, _, _, -, -, rfl⟩ := cutFrom_cons_eq_ok_iff.1 htail
          rfl
      rw [htext, blankAhead_append hrest, ← hempty]
      rfl

/-! ### Pages -/

/-- What is laid out so far. -/
structure Page where
  regions : List Region := []
  /-- Whether only blanks and constructs stand on the line so far. -/
  clean : Bool := true
deriving DecidableEq, Repr

namespace Page

/-- Puts literal text on a page. -/
def push (g : Page) (chars : List Char) : Page :=
  ⟨g.regions ++ chars.map .char, Layer.cleanAfter g.clean chars⟩

/-- Whether a piece takes its line, where `blank` tells whether only blanks follow it there. -/
def takes (keep : List String) (g : Page) (piece : Piece) (blank : Bool) : Bool :=
  g.clean && blank && piece.takesLine keep

/-- A piece that takes its line. -/
def take (g : Page) (piece : Piece) : Page := ⟨dropLine g.regions ++ piece.regions, true⟩

/-- A piece that stays on its line. -/
def stay (keep : List String) (g : Page) : Piece → Page
  | .text chars | .verbatim chars => g.push chars
  | .lineComment | .blockComment => g
  | .tag t => ⟨g.regions ++ [.tag t], g.clean && t.id ∉ keep⟩

/-- Nothing put on a page leaves it as it is. -/
@[simp] theorem push_nil (g : Page) : g.push [] = g := by
  rw [push, List.map_nil, List.append_nil]
  rfl

/-- Text is put on a page part by part. -/
theorem push_append (g : Page) (front chars : List Char) :
    g.push (front ++ chars) = (g.push front).push chars := by
  unfold push Layer.cleanAfter
  rw [List.map_append, List.append_assoc, List.foldl_append]

end Page

/-- The page of a layer. -/
def Layer.page (l : Layer) : Page := ⟨l.regions, l.clean⟩

/-- `Lays keep g text g'`: laying out `text` on the page `g` gives the page `g'`. -/
inductive Lays (keep : List String) : Page → List Char → Page → Prop
  | nil (g : Page) : Lays keep g [] g
  | char {g g' : Page} {c : Char} {cs : List Char} :
      c ≠ '#' → Lays keep (g.push [c]) cs g' → Lays keep g (c :: cs) g'
  | take {g g' : Page} {cs rest : List Char} {piece : Piece} :
      Construct cs piece rest → g.takes keep piece (blankAhead rest) = true →
      Lays keep (g.take piece) (skipLine rest).1 g' → Lays keep g ('#' :: cs) g'
  | stay {g g' : Page} {cs rest : List Char} {piece : Piece} :
      Construct cs piece rest → g.takes keep piece (blankAhead rest) = false →
      Lays keep (g.stay keep piece) rest g' → Lays keep g ('#' :: cs) g'

variable {keep : List String} {g g' : Page} {text : List Char}

/-- A run of characters is put on the page at once. -/
theorem Lays.literal {run cs : List Char} (hrun : ∀ c ∈ run, c ≠ '#')
    (h : Lays keep (g.push run) cs g') : Lays keep g (run ++ cs) g' := by
  induction run generalizing g with
  | nil => rwa [Page.push_nil] at h
  | cons c run ih =>
    rw [← List.singleton_append, Page.push_append] at h
    exact .char (hrun c List.mem_cons_self) (ih (fun d hd => hrun d (List.mem_cons_of_mem c hd)) h)

/-- A construct is spelled in one way. -/
theorem Construct.unique {cs rest rest' : List Char} {piece piece' : Piece}
    (h : Construct cs piece rest) (h' : Construct cs piece' rest') : piece = piece' ∧ rest = rest' := by
  obtain ⟨n, hs⟩ := scanConstruct_eq_ok_iff.2 h
  obtain ⟨n', hs'⟩ := scanConstruct_eq_ok_iff.2 h'
  rw [hs] at hs'
  simp only [Except.ok.injEq, Prod.mk.injEq] at hs'
  exact ⟨hs'.1, hs'.2.1⟩

/-- **A text has one layout.** -/
theorem Lays.unique {g'' : Page} (h : Lays keep g text g') (h' : Lays keep g text g'') :
    g' = g'' := by
  induction h with
  | nil => cases h'; rfl
  | char hc _ ih =>
    -- a character is no construct, and a construct takes its line or stays on it, but not both
    cases h' with
    | char _ h' => exact ih h'
    | take | stay => exact absurd rfl hc
  | take hconstruct htakes _ ih =>
    cases h' with
    | char hc => exact absurd rfl hc
    | take hconstruct' _ h' =>
      obtain ⟨rfl, rfl⟩ := hconstruct.unique hconstruct'
      exact ih h'
    | stay hconstruct' hstays =>
      obtain ⟨rfl, rfl⟩ := hconstruct.unique hconstruct'
      rw [htakes] at hstays
      cases hstays
  | stay hconstruct hstays _ ih =>
    cases h' with
    | char hc => exact absurd rfl hc
    | take hconstruct' htakes =>
      obtain ⟨rfl, rfl⟩ := hconstruct.unique hconstruct'
      rw [hstays] at htakes
      cases htakes
    | stay hconstruct' _ h' =>
      obtain ⟨rfl, rfl⟩ := hconstruct.unique hconstruct'
      exact ih h'

/-! ### The layout of a layer -/

namespace Layer

variable (l : Layer)

/-- The page of a layer that gets literal text. -/
@[simp] theorem page_push (chars : List Char) (row : Nat) :
    (l.push chars row).page = l.page.push chars := by
  rw [page, regions_push]
  rfl

/-- A line is taken with what is deleted of it, and with what comes behind the deletion. -/
theorem page_trimLine (blank : Bool) :
    (l.trimLine blank).page =
        (if l.clean && blank then ⟨dropLine l.regions, true⟩ else l.page) ∧
      (l.trimLine blank).skipping = (l.clean && blank || l.skipping) := by
  unfold trimLine
  split
  · rename_i htaken
    rw [htaken]
    exact ⟨congrArg (Page.mk · true) l.regions_deleteLineStart, rfl⟩
  · rename_i htaken
    rw [Bool.not_eq_true] at htaken
    rw [htaken]
    exact ⟨rfl, rfl⟩

/-- The layer with a tag behind its finished text. -/
def tagged (t : Tag) (row : Nat) : Layer := { l.flush with done := .tag t row :: l.flush.done }

/-- A tag is put on the page, which stays as clean as it was. -/
theorem tagged_spec (t : Tag) (row : Nat) :
    (l.tagged t row).page = ⟨l.regions ++ [.tag t], l.clean⟩ ∧
      (l.tagged t row).skipping = l.skipping := by
  have hflush : l.flush.clean = l.clean ∧ l.flush.skipping = l.skipping := by
    unfold flush
    split <;> exact ⟨rfl, rfl⟩
  refine ⟨?_, hflush.2⟩
  rw [← (stack_flush l).2, ← hflush.1]
  simp [page, tagged, regions, stack, Item.regions]

/-- A piece takes its line, or it stays on it. Behind a line that was taken, the rest of it is
skipped. -/
theorem page_add (keep : List String) (hskipping : l.skipping = false) (piece : Piece) (row : Nat)
    (blank : Bool) :
    let l' := l.add keep ⟨piece, row⟩ blank
    l'.page = (if l.page.takes keep piece blank then l.page.take piece
        else l.page.stay keep piece) ∧
      l'.skipping = l.page.takes keep piece blank := by
  intro l'
  cases piece with
  -- a text never takes a line
  | text chars =>
    have htext : l' = l.push chars row := by
      change (if l.skipping then _ else _) = _
      rw [hskipping]
      rfl
    have hstays : l.page.takes keep (.text chars) blank = false := Bool.and_false _
    rw [htext, hstays]
    exact ⟨l.page_push chars row, hskipping⟩
  -- a comment deletes the start of the line that it takes, and puts nothing on the page
  | lineComment | blockComment =>
    obtain ⟨hpage, hskips⟩ := l.page_trimLine blank
    rw [hskipping, Bool.or_false] at hskips
    unfold Page.takes Piece.takesLine Page.take
    rw [Bool.and_true]
    refine ⟨hpage.trans ?_, hskips⟩
    rw [Piece.regions, List.append_nil]
    rfl
  -- a verbatim block deletes the start of the line before its text is put on the page
  | verbatim chars =>
    unfold Page.takes Piece.takesLine
    rw [Bool.and_true]
    change (if l.clean && blank then _ else _ : Layer).page = (if l.clean && blank then _ else _) ∧
      (if l.clean && blank then _ else _ : Layer).skipping = (l.clean && blank)
    cases htaken : l.clean && blank with
    | true =>
      refine ⟨?_, rfl⟩
      change Page.mk (l.deleteLineStart.push chars row).regions true = _
      rw [regions_push, regions_deleteLineStart]
      rfl
    | false => exact ⟨l.page_push chars row, hskipping⟩
  -- a tag that is kept only stays, and any other one is trimmed like a comment
  | tag t =>
    obtain ⟨htagged, hskips⟩ := l.tagged_spec t row
    rw [hskipping] at hskips
    have hregions : (l.tagged t row).regions = l.regions ++ [.tag t] := congrArg Page.regions htagged
    have hclean : (l.tagged t row).clean = l.clean := congrArg Page.clean htagged
    have hadd : l' = if t.id ∈ keep then { l.tagged t row with clean := false }
        else (l.tagged t row).trimLine blank := rfl
    have htakes : l.page.takes keep (.tag t) blank = (l.clean && blank && decide (t.id ∉ keep)) := rfl
    have hstay : l.page.stay keep (.tag t) =
        ⟨l.regions ++ [.tag t], l.clean && decide (t.id ∉ keep)⟩ := rfl
    rw [hadd, htakes, hstay]
    by_cases hkeep : t.id ∈ keep
    · rw [if_pos hkeep, decide_eq_false (not_not_intro hkeep), Bool.and_false, Bool.and_false]
      exact ⟨congrArg (Page.mk · false) hregions, hskips⟩
    · obtain ⟨hpage, hskips'⟩ := (l.tagged t row).page_trimLine blank
      rw [hregions, dropLine_concat_tag, hclean, htagged] at hpage
      rw [hclean, hskips, Bool.or_false] at hskips'
      rw [if_neg hkeep, decide_eq_true hkeep, Bool.and_true, Bool.and_true]
      exact ⟨hpage, hskips'⟩

end Layer

/-- What is laid out of a text by a layer: all of it, or what is behind the line that is skipped. -/
def Layer.ahead (l : Layer) (text : List Char) : List Char :=
  if l.skipping then (skipLine text).1 else text

/-- What is ahead is a part of the text. -/
theorem Layer.ahead_subset (l : Layer) (text : List Char) : l.ahead text ⊆ text := by
  unfold ahead
  split
  · exact (skipLine_suffix text).subset
  · exact List.Subset.refl text

/-- Literal text is put on the page, apart from the rest of a line that is skipped. -/
theorem Layer.page_addText (l : Layer) (keep : List String) (chars : List Char) (row : Nat)
    (blank : Bool) :
    (l.add keep ⟨.text chars, row⟩ blank).page = l.page.push (l.ahead chars) ∧
      (l.add keep ⟨.text chars, row⟩ blank).skipping = false := by
  unfold Layer.add Layer.ahead
  cases hskipping : l.skipping with
  | true => exact ⟨l.page_push _ _, rfl⟩
  | false => exact ⟨l.page_push _ _, hskipping⟩

/-- **The layout is the one that is written down.** A layer that skips a line only where a line ends
lays out the pieces of a text as the text is laid out on its page. -/
theorem lays_of_cutFrom {row : Nat} {pieces : List PlacedPiece} (h : cutFrom row text = .ok pieces)
    {l : Layer} (hline : l.skipping = true → blankAhead text = true) :
    Lays keep l.page (l.ahead text) (l.addAll keep pieces).page := by
  fun_induction cutFrom row text generalizing pieces l with
  | case1 =>
    cases h
    unfold Layer.ahead
    split <;> exact .nil _
  | case2 | case3 => cases h
  | case4 row c cs piece rest rows hs tail hr ih =>
    cases h
    by_cases hc : c = '#'
    -- a construct: no line is being skipped, since a construct is ahead on it
    · subst hc
      have hconstruct := scanConstruct_eq_ok_iff.1 ⟨rows, hs⟩
      have hskipping : l.skipping = false := by
        rw [← Bool.not_eq_true]
        exact fun hskips => Bool.false_ne_true (hline hskips)
      obtain ⟨hpage, hskips⟩ := l.page_add keep hskipping piece row (blankBefore tail)
      change Lays keep l.page (l.ahead _) (Layer.addAll keep (l.add keep _ _) tail).page
      generalize l.add keep ⟨piece, row⟩ (blankBefore tail) = next at hpage hskips ⊢
      rw [blankBefore_of_cutFrom hr] at hpage hskips
      -- if the construct takes its line, only blanks are ahead on it
      have hrest : Lays keep next.page (next.ahead rest) (next.addAll keep tail).page := by
        refine ih hr fun htaken => ?_
        rw [hskips] at htaken
        exact (Bool.and_eq_true_iff.1 (Bool.and_eq_true_iff.1 htaken).1).2
      unfold Layer.ahead at hrest ⊢
      rw [hpage, hskips] at hrest
      rw [hskipping]
      cases htakes : l.page.takes keep piece (blankAhead rest) with
      | true =>
        rw [htakes] at hrest
        exact .take hconstruct htakes hrest
      | false =>
        rw [htakes] at hrest
        exact .stay hconstruct htakes hrest
    -- a run of characters: what is skipped is in it, and the next piece is a construct
    · obtain ⟨run, htext, rfl, -, hplain, hends⟩ := exists_run_of_scanPiece hc hs
      rw [htext] at hline ⊢
      obtain ⟨hpage, hskips⟩ := l.page_addText keep run row (blankBefore tail)
      change Lays keep l.page (l.ahead _) (Layer.addAll keep (l.add keep _ _) tail).page
      generalize l.add keep ⟨.text run, row⟩ (blankBefore tail) = next at hpage hskips ⊢
      -- no line is skipped behind a text
      have hrest : Lays keep next.page (next.ahead rest) (next.addAll keep tail).page := by
        refine ih hr fun htaken => ?_
        rw [hskips] at htaken
        cases htaken
      have hahead : l.ahead (run ++ rest) = l.ahead run ++ rest := by
        unfold Layer.ahead
        split
        · rename_i hskipping
          exact skipLine_append hends (hline hskipping)
        · rfl
      have hnext : next.ahead rest = rest := by
        unfold Layer.ahead
        rw [hskips]
        rfl
      rw [hpage, hnext] at hrest
      rw [hahead]
      exact Lays.literal (fun d hd => hplain d (l.ahead_subset run hd)) hrest

/-- The items of a text have the regions of its layout. -/
theorem lays_of_itemsOf {items : List Item} (h : itemsOf keep text = .ok items) :
    ∃ g, Lays keep {} text g ∧ g.regions = items.flatMap Item.regions := by
  unfold itemsOf cutTemplate at h
  cases hcut : cutFrom 1 text with
  | error fault =>
    rw [hcut] at h
    cases h
  | ok pieces =>
    rw [hcut] at h
    cases h
    have hlays : Lays keep ({} : Layer).page (({} : Layer).ahead text)
        (Layer.addAll keep {} pieces).page := lays_of_cutFrom hcut nofun
    exact ⟨_, hlays, (Layer.regions_items _).symm⟩

/-! ### What stands in front -/

/-- A page with regions in front. -/
def Page.behind (base : List Region) (g : Page) : Page := ⟨base ++ g.regions, g.clean⟩

/-- **The layout of a text does not reach back** over regions of which nothing would be deleted. -/
theorem Lays.behind {base : List Region} (hbase : dropLine base = base)
    (h : Lays keep g text g') : Lays keep (g.behind base) text (g'.behind base) := by
  induction h with
  | nil g => exact .nil _
  -- each step commutes with the regions in front, since no deletion gets to them
  | @char g _ c _ hc _ ih =>
    have hpush : (g.push [c]).behind base = (g.behind base).push [c] := by
      unfold Page.behind Page.push
      rw [List.append_assoc]
    rw [hpush] at ih
    exact .char hc ih
  | @take g _ _ _ piece hconstruct htakes _ ih =>
    have htake : (g.take piece).behind base = (g.behind base).take piece := by
      unfold Page.behind Page.take
      rw [dropLine_append hbase, List.append_assoc]
    rw [htake] at ih
    exact .take hconstruct htakes ih
  | @stay g _ _ _ piece hconstruct hstays _ ih =>
    have hstay : (g.stay keep piece).behind base = (g.behind base).stay keep piece := by
      unfold Page.behind
      cases piece <;> simp [Page.stay, Page.push]
    rw [hstay] at ih
    exact .stay hconstruct hstays ih

/-! ### Items up to their rows -/

/-- An item without its row. -/
def Item.piece : Item → Piece
  | .text chars _ => .text chars
  | .tag t _ => .tag t

/-- Whether an item is a text. -/
def Item.isText : Item → Bool
  | .text .. => true
  | .tag .. => false

/-- Items up to their rows, without the texts that trimming has emptied. -/
def plainPieces (items : List Item) : List Piece := (items.map Item.piece).filter (· ≠ .text [])

/-- Regions with neighbouring characters joined to texts. -/
def joined : List Region → List Piece
  | [] => []
  | .tag t :: rest => .tag t :: joined rest
  | .char c :: rest =>
    match joined rest with
    | .text chars :: more => .text (c :: chars) :: more
    | pieces => .text [c] :: pieces

/-- Characters with no more text behind them are one text. -/
theorem joined_chars {chars : List Char} (hchars : chars ≠ []) {rest : List Region}
    (hrest : ∀ cs more, joined rest ≠ .text cs :: more) :
    joined (chars.map .char ++ rest) = .text chars :: joined rest := by
  induction chars with
  | nil => exact absurd rfl hchars
  | cons c chars ih =>
    rw [List.map_cons, List.cons_append, joined]
    rcases eq_or_ne chars [] with rfl | hne
    · rw [List.map_nil, List.nil_append]
      split
      · rename_i heq
        exact absurd heq (hrest _ _)
      · rfl
    · rw [ih hne]

/-- Items no two of which are texts that stand side by side. -/
def Alternating (items : List Item) : Prop :=
  (items.map Item.isText).IsChain fun a b => (a && b) = false

/-- **Items are their regions**, up to rows and empty texts, if no two texts stand side by side. -/
theorem plainPieces_eq_joined {items : List Item} (h : Alternating items) :
    plainPieces items = joined (items.flatMap Item.regions) := by
  induction items with
  | nil => rfl
  | cons item rest ih =>
    obtain ⟨hhead, hrest⟩ := List.isChain_cons.1 h
    cases item with
    | tag t row => exact congrArg (.tag t :: ·) (ih hrest)
    | text chars row =>
      -- a text that is empty is left out, and it has no characters
      rcases eq_or_ne chars [] with rfl | hne
      · exact ih hrest
      -- any other text is one run of characters, for no text follows it
      · have hplain : plainPieces (.text chars row :: rest) = .text chars :: plainPieces rest :=
          List.filter_cons_of_pos (decide_eq_true fun heq => hne (Piece.text.inj heq))
        have hstart : ∀ cs more, joined (rest.flatMap Item.regions) ≠ .text cs :: more := by
          intro cs more
          cases rest with
          | nil => nofun
          | cons next rest =>
            cases next with
            | text => cases hhead true rfl
            | tag => nofun
        rw [hplain, ih hrest]
        exact (joined_chars hne hstart).symm

/-- The finished items of a layer alternate, and a text that is to come may follow them. -/
structure Layer.Alternates (l : Layer) : Prop where
  done : (l.done.map Item.isText).IsChain fun a b => (a && b) = false
  last : (l.done.map Item.isText).head? ≠ some true

namespace Layer

variable {l : Layer}

/-- Deleting the start of a line empties texts, it removes none. -/
theorem map_isText_dropOpenLine (done : List Item) :
    (dropOpenLine done).map Item.isText = done.map Item.isText := by
  induction done with
  | nil => rfl
  | cons item rest ih =>
    cases item with
    | text chars row =>
      unfold dropOpenLine
      split
      · rfl
      · exact congrArg (true :: ·) ih
    | tag t row => exact congrArg (false :: ·) ih

theorem Alternates.of_shape {l' : Layer} (h : l.Alternates)
    (hshape : l'.done.map Item.isText = l.done.map Item.isText) : l'.Alternates :=
  ⟨hshape ▸ h.done, hshape ▸ h.last⟩

/-- Deleting the start of a line changes no kinds. -/
theorem Alternates.deleteLineStart (h : l.Alternates) : l.deleteLineStart.Alternates := by
  unfold Layer.deleteLineStart
  split
  · exact h.of_shape rfl
  · exact h.of_shape (map_isText_dropOpenLine l.done)

/-- Neither does trimming a line. -/
theorem Alternates.trimLine (h : l.Alternates) (blank : Bool) : (l.trimLine blank).Alternates := by
  unfold Layer.trimLine
  split
  · exact h.deleteLineStart.of_shape rfl
  · exact h

/-- The finished items with the text that was growing. -/
theorem Alternates.flush (h : l.Alternates) :
    (l.flush.done.map Item.isText).IsChain fun a b => (a && b) = false := by
  unfold Layer.flush
  split
  · exact h.done
  · refine List.isChain_cons.2 ⟨fun b hb => ?_, h.done⟩
    cases b with
    | true => exact absurd hb h.last
    | false => rfl

/-- A piece keeps the items alternating: only a tag ends an item. -/
theorem Alternates.add (h : l.Alternates) (keep : List String) (p : PlacedPiece) (blank : Bool) :
    (l.add keep p blank).Alternates := by
  obtain ⟨piece, row⟩ := p
  cases piece with
  | text chars =>
    change (if l.skipping then _ else _ : Layer).Alternates
    split
    · exact h.of_shape rfl
    · exact h.of_shape rfl
  | lineComment | blockComment => exact h.trimLine blank
  | verbatim chars =>
    change (if l.clean && blank then _ else _ : Layer).Alternates
    split
    · exact h.deleteLineStart.of_shape rfl
    · exact h.of_shape rfl
  | tag t =>
    have htagged : (l.tagged t row).Alternates :=
      ⟨List.isChain_cons.2 ⟨fun _ _ => rfl, h.flush⟩, nofun⟩
    change (if t.id ∈ keep then { l.tagged t row with clean := false }
      else (l.tagged t row).trimLine blank).Alternates
    split
    · exact htagged.of_shape rfl
    · exact htagged.trimLine blank

/-- So do all pieces of a text. -/
theorem Alternates.addAll (h : l.Alternates) (keep : List String) (pieces : List PlacedPiece) :
    (l.addAll keep pieces).Alternates := by
  induction pieces generalizing l with
  | nil => exact h
  | cons p rest ih => exact ih (h.add keep p (blankBefore rest))

end Layer

/-- **The items of a text are its layout**, up to rows and empty texts. -/
theorem plainPieces_of_lays {items : List Item} (h : itemsOf keep text = .ok items)
    (hlays : Lays keep {} text g) : plainPieces items = joined g.regions := by
  obtain ⟨g', hlays', hregions⟩ := lays_of_itemsOf h
  rw [hlays.unique hlays', hregions]
  refine plainPieces_eq_joined ?_
  unfold itemsOf at h
  cases hcut : cutTemplate text with
  | error fault =>
    rw [hcut] at h
    cases h
  | ok pieces =>
    rw [hcut] at h
    cases h
    have hempty : ({} : Layer).Alternates := ⟨.nil, nofun⟩
    have halternates := hempty.addAll keep pieces
    unfold Alternating Layer.items
    rw [List.map_reverse, List.isChain_reverse]
    refine halternates.flush.imp fun a b hab => ?_
    rwa [Bool.and_comm]

end Stencil
