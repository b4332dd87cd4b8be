import Stencil.Proofs.Template.Reading

/-!
# What trimming lines takes away

Laying out the lines of a template deletes blanks and line breaks, and is meant to delete nothing
else. A character that is neither is **solid**, and so is every tag. The main statement compares
the solid regions of a text, as it reads, with those of the items that it is laid out as
(`solids_items`): what the items have is always among them, in order, and it is all of them
exactly if the template does not **spill**.

A template spills through a verbatim block. When a block stands alone on its line, its line break
goes with the closing mark, and the line that follows is joined to the last line of its content,
while it counts as clean. If this last line has solid characters (`LineState.glued`), the next
construct that takes its line away takes them too, unless a line feed that stays or other text
comes first. `spills` follows these two facts about a line through the pieces of a text.

The invariant is `Layer.Tracks`: the state of the line tells whether a clean line has solid
characters in front of it, which is what deleting the start of the line would delete
(`Layer.openLine`).
-/

namespace Stencil

/-! ### Solid characters -/

/-- Whether a character is none of those that trimming is about: space, tab, carriage return and
line feed. -/
def isSolid (c : Char) : Bool := !(isSpace c || c == '\r' || c == '\n')

/-- Whether a region is a tag or a solid character. -/
def Region.isSolid : Region → Bool
  | char c => Stencil.isSolid c
  | tag _ => true

/-- The solid regions among some regions. -/
def solids (rs : List Region) : List Region := rs.filter Region.isSolid

/-- Solid regions, one part after the other. -/
@[simp] theorem solids_append (a b : List Region) : solids (a ++ b) = solids a ++ solids b :=
  List.filter_append ..

/-- The solid regions of characters are the solid ones among them. -/
@[simp] theorem solids_chars (chars : List Char) :
    solids (chars.map .char) = (chars.filter isSolid).map .char := by
  rw [solids, List.filter_map]
  rfl

/-- `Keeps lost before after`: the regions `after` have lost none of the solid regions `before`,
or some of them, but have no others and no other order. -/
structure Keeps (lost : Bool) (before after : List Region) : Prop where
  sublist : List.Sublist (solids after) (solids before)
  eq_iff : solids after = solids before ↔ lost = false

/-- Nothing is lost between regions with the same solid ones. -/
theorem Keeps.of_eq {before after : List Region} (h : solids after = solids before) :
    Keeps false before after :=
  ⟨h ▸ List.Sublist.refl _, by simp [h]⟩

/-- What is lost in two steps is lost in one of them. -/
theorem Keeps.trans {lost₁ lost₂ : Bool} {a b c : List Region} (h₁ : Keeps lost₁ a b)
    (h₂ : Keeps lost₂ b c) : Keeps (lost₁ || lost₂) a c where
  sublist := h₂.sublist.trans h₁.sublist
  eq_iff := by
    rw [Bool.or_eq_false_iff, ← h₁.eq_iff, ← h₂.eq_iff]
    constructor
    · intro h
      have hb : solids b = solids a := h₁.sublist.antisymm (h ▸ h₂.sublist)
      exact ⟨hb, h.trans hb.symm⟩
    · rintro ⟨hb, hc⟩
      exact hc.trans hb

/-- Regions behind are kept. -/
theorem Keeps.append_right {lost : Bool} {before after : List Region} (h : Keeps lost before after)
    (rs : List Region) : Keeps lost (before ++ rs) (after ++ rs) where
  sublist := by
    rw [solids_append, solids_append]
    exact h.sublist.append (List.Sublist.refl _)
  eq_iff := by
    rw [solids_append, solids_append, List.append_left_inj]
    exact h.eq_iff

/-- Regions in front are kept. -/
theorem Keeps.append_left {lost : Bool} {before after : List Region} (rs : List Region)
    (h : Keeps lost before after) : Keeps lost (rs ++ before) (rs ++ after) where
  sublist := by
    rw [solids_append, solids_append]
    exact (List.Sublist.refl _).append h.sublist
  eq_iff := by
    rw [solids_append, solids_append, List.append_right_inj]
    exact h.eq_iff

/-! ### Open lines -/

/-- What stands behind the last line feed of a text. -/
def lastLine (chars : List Char) : List Char := (chars.reverse.takeWhile (· != '\n')).reverse

/-- The kept lines and the last line make up the text. -/
theorem keepLines_append_lastLine (chars : List Char) : keepLines chars ++ lastLine chars = chars := by
  rw [keepLines, lastLine, ← List.reverse_append, List.takeWhile_append_dropWhile,
    List.reverse_reverse]

/-- A text without a line feed is its last line. -/
theorem lastLine_of_not_mem {chars : List Char} (h : '\n' ∉ chars) : lastLine chars = chars := by
  rw [lastLine, List.takeWhile_eq_self_iff.2, List.reverse_reverse]
  intro c hc
  rw [bne_iff_ne]
  rintro rfl
  exact h (List.mem_reverse.1 hc)

/-- A line feed begins another last line. -/
@[simp] theorem lastLine_concat (chars : List Char) (c : Char) :
    lastLine (chars ++ [c]) = if c = '\n' then [] else lastLine chars ++ [c] := by
  by_cases hc : c = '\n' <;> simp [lastLine, hc]

/-- The last line of two texts is in the second one, or it begins in the first. -/
theorem lastLine_append (front chars : List Char) :
    lastLine (front ++ chars) =
      if '\n' ∈ chars then lastLine chars else lastLine front ++ chars := by
  induction chars using List.reverseRecOn with
  | nil => simp
  | append_singleton chars c ih =>
    rw [← List.append_assoc, lastLine_concat, lastLine_concat, ih]
    by_cases hc : c = '\n'
    · simp [hc]
    · by_cases hm : '\n' ∈ chars <;> simp [hc, hm, Ne.symm hc]

/-- The line feed that ends the kept lines is kept. -/
theorem mem_keepLines {chars : List Char} (h : '\n' ∈ chars) : '\n' ∈ keepLines chars := by
  have hm := h
  rw [← keepLines_append_lastLine chars, List.mem_append] at hm
  refine hm.resolve_right fun hl => ?_
  have := List.mem_takeWhile_imp (List.mem_reverse.1 hl)
  simp at this

/-- Nothing stands behind the last line feed of a text that was cut there. -/
theorem lastLine_keepLines (chars : List Char) : lastLine (keepLines chars) = [] := by
  have hwhole := lastLine_append (keepLines chars) (lastLine chars)
  have hnot : '\n' ∉ lastLine chars := fun hl => by
    simpa using List.mem_takeWhile_imp (List.mem_reverse.1 hl)
  rw [keepLines_append_lastLine, if_neg hnot] at hwhole
  simpa using hwhole

/-- What deleting the start of a line deletes from items, the last one first. -/
def openLineOf : List Item → List Char
  | [] => []
  | .text chars _ :: rest => if '\n' ∈ chars then lastLine chars else openLineOf rest ++ chars
  | .tag .. :: rest => openLineOf rest

/-- The regions of items, the last one first. -/
def regionsOf (done : List Item) : List Region := done.reverse.flatMap Item.regions

/-- The regions of items, the last one first. -/
@[simp] theorem regionsOf_cons (item : Item) (done : List Item) :
    regionsOf (item :: done) = regionsOf done ++ item.regions := by
  simp [regionsOf]

/-- A line that is deleted has nothing more on it. -/
@[simp] theorem openLineOf_dropOpenLine (done : List Item) :
    openLineOf (dropOpenLine done) = [] := by
  induction done with
  | nil => rfl
  | cons item rest ih =>
    cases item with
    | text chars row =>
      rw [dropOpenLine]
      -- a text with a line feed loses what is behind the last one, and ends the line
      split
      · rename_i h
        rw [openLineOf, if_pos (mem_keepLines h), lastLine_keepLines]
      · rw [openLineOf, if_neg (by simp), ih, List.append_nil]
    | tag tag row => exact ih

/-- Cutting the end of a text off loses what is solid in it. -/
theorem keeps_of_append (front back : List Char) :
    Keeps (back.any isSolid) ((front ++ back).map .char) (front.map .char) where
  sublist := by simp
  eq_iff := by simp [List.filter_eq_nil_iff]

/-- **Deleting the start of a line.** The solid characters that it loses are those of the open
line. -/
theorem keeps_dropOpenLine (done : List Item) :
    Keeps ((openLineOf done).any isSolid) (regionsOf done) (regionsOf (dropOpenLine done)) := by
  induction done with
  | nil => exact .of_eq rfl
  | cons item rest ih =>
    cases item with
    | text chars row =>
      -- A line feed in the text stops the deletion; without one all of the text is on the line.
      rw [dropOpenLine, openLineOf, regionsOf_cons]
      split
      · have hcut : Keeps ((lastLine chars).any isSolid) (chars.map .char)
            ((keepLines chars).map .char) := by
          have := keeps_of_append (keepLines chars) (lastLine chars)
          rwa [keepLines_append_lastLine] at this
        rw [regionsOf_cons]
        exact hcut.append_left _
      · have hcut : Keeps (chars.any isSolid) (chars.map .char) [] :=
          keeps_of_append [] chars
        rw [List.any_append, Bool.or_comm, regionsOf_cons]
        exact (hcut.append_left _).trans (ih.append_right _)
    | tag tag row =>
      rw [dropOpenLine, openLineOf, regionsOf_cons, regionsOf_cons]
      exact ih.append_right _

/-! ### The layer -/

namespace Layer

/-- The items of a layer with the growing text in front, the last one first. -/
def stack (l : Layer) : List Item := .text l.pending l.pendingRow :: l.done

/-- What deleting the start of the current line deletes. -/
def openLine (l : Layer) : List Char := openLineOf l.stack

/-- The regions that have been laid out. -/
def regions (l : Layer) : List Region := regionsOf l.stack

/-- The open line behind a text goes on with it, or begins in it. -/
theorem openLine_push (l : Layer) (chars : List Char) (row : Nat) :
    (l.push chars row).openLine =
      if '\n' ∈ chars then lastLine chars else l.openLine ++ chars := by
  simp only [openLine, stack, openLineOf, push_pending, push_done, List.mem_append, lastLine_append]
  by_cases hc : '\n' ∈ chars
  · simp [hc]
  · by_cases hp : '\n' ∈ l.pending <;> simp [hc, hp]

/-- A text adds its characters. -/
@[simp] theorem regions_push (l : Layer) (chars : List Char) (row : Nat) :
    (l.push chars row).regions = l.regions ++ chars.map .char := by
  simp [regions, stack, Item.regions]

/-- Finishing the pending text changes neither the open line nor the regions. -/
theorem stack_flush (l : Layer) :
    l.flush.openLine = l.openLine ∧ l.flush.regions = l.regions := by
  unfold flush
  split
  · exact ⟨rfl, rfl⟩
  · exact ⟨by simp [openLine, stack, openLineOf], by simp [regions, stack, Item.regions]⟩

/-- The start of a line is deleted from the items with the pending text. -/
theorem stack_deleteLineStart (l : Layer) : l.deleteLineStart.stack = dropOpenLine l.stack := by
  unfold deleteLineStart
  rw [stack, stack, dropOpenLine]
  split <;> rfl

/-- A line that is deleted has nothing more on it. -/
@[simp] theorem openLine_deleteLineStart (l : Layer) : l.deleteLineStart.openLine = [] := by
  rw [openLine, stack_deleteLineStart, openLineOf_dropOpenLine]

/-- Deleting the start of a line loses what is solid on it. -/
theorem keeps_deleteLineStart (l : Layer) :
    Keeps (l.openLine.any isSolid) l.regions l.deleteLineStart.regions := by
  rw [openLine, regions, regions, stack_deleteLineStart]
  exact keeps_dropOpenLine l.stack

theorem regions_items (l : Layer) : l.items.flatMap Item.regions = l.regions := by
  rw [← (stack_flush l).2, items, regions, stack, flush_pending, regionsOf_cons]
  simp [regionsOf, Item.regions]

/-- Behind a text, a line is clean if nothing solid stands on it. -/
theorem cleanAfter_eq (clean : Bool) (chars : List Char) :
    cleanAfter clean chars =
      if '\n' ∈ chars then !(lastLine chars).any isSolid else clean && !chars.any isSolid := by
  induction chars using List.reverseRecOn with
  | nil => simp [cleanAfter]
  | append_singleton chars c ih =>
    have hstep : cleanAfter clean (chars ++ [c]) =
        if c = '\n' then true
        else if isSpace c || c == '\r' then cleanAfter clean chars else false := by
      rw [cleanAfter, List.foldl_append]
      rfl
    rw [hstep, ih, lastLine_concat]
    -- a line feed leaves a clean line, and a solid character an unclean one
    by_cases hn : c = '\n'
    · simp [hn]
    · have hsolid : isSolid c = !(isSpace c || c == '\r') := by simp [isSolid, hn]
      by_cases hm : '\n' ∈ chars <;> cases hs : isSpace c || c == '\r' <;>
        simp [hn, hm, hs, hsolid, Ne.symm hn]

end Layer

/-- Skipping the blanks at the front of a text and a line break behind them skips nothing
solid. -/
theorem filter_skipLine (chars : List Char) :
    (skipLine chars).1.filter isSolid = chars.filter isSolid := by
  -- blanks are not solid
  have hblank : ∀ c ∈ chars.takeWhile isSpace, ¬ isSolid c = true := by
    intro c hc
    simp [isSolid, List.mem_takeWhile_imp hc]
  have hdrop : (chars.dropWhile isSpace).filter isSolid = chars.filter isSolid := by
    conv_rhs => rw [← List.takeWhile_append_dropWhile (p := isSpace) (l := chars)]
    rw [List.filter_append, List.filter_eq_nil_iff.2 hblank, List.nil_append]
  rw [← hdrop, skipLine]
  split
  · rename_i heq
    rw [heq]
    rfl
  · rename_i heq
    rw [heq]
    rfl
  · rfl

/-! ### Which lines spill -/

/-- What decides about the lines that a construct takes away. -/
structure LineState where
  /-- Whether only blanks and constructs stand on the line so far. -/
  clean : Bool := true
  /-- Whether the blanks and the line break that follow are to be skipped. -/
  skipping : Bool := false
  /-- Whether the line is joined to a last line of content that is solid. Only the lines that are
  clean are asked. -/
  glued : Bool := false
deriving DecidableEq, Repr

/-- Whether a piece takes the line away that it stands alone on. -/
def Piece.takesLine (keep : List String) : Piece → Bool
  | text _ => false
  | tag t => t.id ∉ keep
  | lineComment | blockComment | verbatim _ => true

/-- The text that a piece lays out, on a line in state `s`. -/
def Piece.laid (s : LineState) : Piece → List Char
  | text chars => if s.skipping then (skipLine chars).1 else chars
  | verbatim chars => chars
  | lineComment | blockComment | tag _ => []

namespace LineState

/-- Whether a piece takes its line away. -/
def taken (keep : List String) (s : LineState) (p : Piece) (blank : Bool) : Bool :=
  s.clean && blank && p.takesLine keep

/-- The state of the line behind a piece. -/
def next (keep : List String) (s : LineState) (p : Piece) (blank : Bool) : LineState :=
  let chars := p.laid s
  if s.taken keep p blank then ⟨true, true, (lastLine chars).any isSolid⟩
  else
    match p with
    | .tag t => if t.id ∈ keep then { s with clean := false } else s
    | .text _ => ⟨Layer.cleanAfter s.clean chars, false, s.glued && '\n' ∉ chars⟩
    | .verbatim _ => { s with
        clean := Layer.cleanAfter s.clean chars
        glued := s.glued && '\n' ∉ chars }
    | .lineComment | .blockComment => s

/-- Whether some piece takes away a line that is joined to solid content. -/
def spills (keep : List String) (s : LineState) : List PlacedPiece → Bool
  | [] => false
  | p :: rest =>
    let blank := blankBefore rest
    s.taken keep p.piece blank && s.glued || (s.next keep p.piece blank).spills keep rest

end LineState

/-! ### The invariant -/

namespace Layer

/-- **The state of a line is what the layout knows about it.** Besides its two flags, a state
tells of a clean line whether it has something solid in front. -/
structure Tracks (l : Layer) (s : LineState) : Prop where
  clean : l.clean = s.clean
  skipping : l.skipping = s.skipping
  glued : s.clean = true → l.openLine.any isSolid = s.glued

variable {keep : List String} {l : Layer} {s : LineState}

/-- A text tracks with the line that it goes on with or begins. -/
theorem Tracks.push (h : l.Tracks s) (chars : List Char) (row : Nat) :
    (l.push chars row).Tracks { s with
      clean := cleanAfter s.clean chars
      glued := s.glued && '\n' ∉ chars } where
  clean := by rw [← h.clean]; rfl
  skipping := h.skipping
  glued := by
    intro hclean
    simp only [cleanAfter_eq] at hclean
    rw [openLine_push]
    -- A line feed starts a line of its own. Without one the text only goes on with a clean line.
    by_cases hn : '\n' ∈ chars
    · simpa [hn] using hclean
    · simp only [hn, if_false, Bool.and_eq_true] at hclean
      rw [if_neg hn, List.any_append, h.glued hclean.1]
      have hsolid : chars.any isSolid = false := by simpa using hclean.2
      rw [hsolid, Bool.or_false, decide_eq_true hn, Bool.and_true]

/-- Finishing the pending text changes no line. -/
theorem Tracks.flush (h : l.Tracks s) : l.flush.Tracks s where
  clean := by rw [← h.clean, Layer.flush]; split <;> rfl
  skipping := by rw [← h.skipping, Layer.flush]; split <;> rfl
  glued := by rw [(stack_flush l).1]; exact h.glued

/-- Taking a clean line away loses the solid characters in front of it, and leaves a clean line
with nothing in front. -/
theorem Tracks.keeps_deleteLineStart (h : l.Tracks s) (hclean : s.clean = true) :
    Keeps s.glued l.regions l.deleteLineStart.regions := by
  rw [← h.glued hclean]
  exact Layer.keeps_deleteLineStart l

/-- What comes to an emptied line is all that stands in front of the next one. -/
theorem tracks_deleteLineStart_push (l : Layer) (chars : List Char) (row : Nat) :
    { l.deleteLineStart.push chars row with clean := true, skipping := true : Layer }.Tracks
      ⟨true, true, (lastLine chars).any isSolid⟩ where
  clean := rfl
  skipping := rfl
  glued := by
    intro _
    change (l.deleteLineStart.push chars row).openLine.any isSolid = _
    rw [openLine_push, openLine_deleteLineStart]
    split
    -- nothing is left behind the last line feed that could be solid
    · rfl
    · rename_i hn
      rw [List.nil_append, lastLine_of_not_mem hn]

/-- An emptied line has nothing in front. -/
theorem tracks_deleteLineStart (l : Layer) :
    { l.deleteLineStart with clean := true, skipping := true : Layer }.Tracks ⟨true, true, false⟩ where
  clean := rfl
  skipping := rfl
  glued := by
    intro _
    change l.deleteLineStart.openLine.any isSolid = false
    rw [openLine_deleteLineStart]
    rfl

/-- A piece without a text of its own, which takes its line away or leaves it. -/
theorem Tracks.trimLine (h : l.Tracks s) (blank : Bool) :
    (l.trimLine blank).Tracks (if s.clean && blank then ⟨true, true, false⟩ else s) ∧
      Keeps (s.clean && blank && s.glued) l.regions (l.trimLine blank).regions := by
  rw [Layer.trimLine, h.clean]
  cases htaken : s.clean && blank with
  | false => exact ⟨h, .of_eq rfl⟩
  | true =>
    have hclean : s.clean = true := (Bool.and_eq_true_iff.1 htaken).1
    refine ⟨tracks_deleteLineStart l, ?_⟩
    rw [Bool.true_and]
    exact h.keeps_deleteLineStart hclean

/-- A verbatim block tracks, and spills if it takes a glued line. -/
theorem Tracks.pushVerbatim (h : l.Tracks s) (chars : List Char) (row : Nat) (blank : Bool) :
    (l.pushVerbatim chars row blank).Tracks (s.next keep (.verbatim chars) blank) ∧
      Keeps (s.taken keep (.verbatim chars) blank && s.glued) (l.regions ++ chars.map .char)
        (l.pushVerbatim chars row blank).regions := by
  rw [Layer.pushVerbatim, LineState.next, LineState.taken, Piece.takesLine, Bool.and_true, h.clean]
  cases htaken : s.clean && blank with
  | false => exact ⟨h.push chars row, .of_eq (by simp)⟩
  | true =>
    have hclean : s.clean = true := (Bool.and_eq_true_iff.1 htaken).1
    refine ⟨tracks_deleteLineStart_push l chars row, ?_⟩
    change Keeps _ _ (l.deleteLineStart.push chars row).regions
    rw [regions_push, Bool.true_and]
    exact (h.keeps_deleteLineStart hclean).append_right _

/-- A tag tracks, and spills if it takes a glued line. -/
theorem Tracks.pushTag (h : l.Tracks s) (tag : Tag) (row : Nat) (blank : Bool) :
    (l.pushTag keep tag row blank).Tracks (s.next keep (.tag tag) blank) ∧
      Keeps (s.taken keep (.tag tag) blank && s.glued) (l.regions ++ [.tag tag])
        (l.pushTag keep tag row blank).regions := by
  have hadd : Tracks { l.flush with done := .tag tag row :: l.flush.done } s := by
    refine ⟨h.flush.clean, h.flush.skipping, fun hclean => ?_⟩
    rw [← h.flush.glued hclean]
    simp [openLine, stack, openLineOf]
  have hregions : regions { l.flush with done := .tag tag row :: l.flush.done } =
      l.regions ++ [.tag tag] := by
    rw [← (stack_flush l).2]
    simp [regions, stack, Item.regions]
  simp only [Layer.pushTag, LineState.next, LineState.taken, Piece.takesLine]
  -- A tag of the configuration that stays on its line makes the line unclean.
  by_cases hk : tag.id ∈ keep
  · simp only [hk, not_true, decide_false, Bool.and_false, Bool.false_and, if_true]
    exact ⟨⟨rfl, hadd.skipping, by simp⟩, .of_eq (congrArg solids hregions)⟩
  · simp only [hk, not_false_iff, decide_true, Bool.and_true, if_false]
    rw [← hregions]
    exact hadd.trimLine blank

/-- A text tracks, and never spills. -/
theorem Tracks.pushText (h : l.Tracks s) (chars : List Char) (row : Nat) (blank : Bool) :
    (l.add keep ⟨.text chars, row⟩ blank).Tracks (s.next keep (.text chars) blank) ∧
      Keeps false (l.regions ++ chars.map .char) (l.add keep ⟨.text chars, row⟩ blank).regions := by
  simp only [Layer.add, LineState.next, LineState.taken, Piece.takesLine, Piece.laid, h.skipping,
    Bool.and_false, Bool.false_eq_true, if_false]
  -- Behind a line that was taken away, the rest of the line is skipped, which is not solid.
  by_cases hskip : s.skipping = true
  · have hpush := h.push (skipLine chars).1 (row + (skipLine chars).2)
    simp only [hskip, if_true]
    refine ⟨⟨hpush.clean, rfl, hpush.glued⟩, .of_eq ?_⟩
    change solids (l.push (skipLine chars).1 _).regions = _
    rw [regions_push, solids_append, solids_append, solids_chars, solids_chars, filter_skipLine]
  · have hpush := h.push chars row
    rw [Bool.not_eq_true] at hskip
    rw [hskip] at hpush
    simp only [hskip, Bool.false_eq_true, if_false]
    exact ⟨hpush, .of_eq (by rw [regions_push])⟩

/-- **One piece.** The state of the line goes on tracking the layout, and the layout keeps the
solid regions unless the piece takes away a line that is joined to solid content. -/
theorem Tracks.add (keep : List String) (h : l.Tracks s) (p : PlacedPiece) (blank : Bool) :
    (l.add keep p blank).Tracks (s.next keep p.piece blank) ∧
      Keeps (s.taken keep p.piece blank && s.glued) (l.regions ++ p.piece.regions)
        (l.add keep p blank).regions := by
  obtain ⟨piece, row⟩ := p
  cases piece with
  | text chars =>
    simpa [LineState.taken, Piece.takesLine, Piece.regions] using h.pushText chars row blank
  | lineComment | blockComment =>
    simpa [Layer.add, LineState.taken, LineState.next, Piece.takesLine, Piece.regions, Piece.laid,
      lastLine] using h.trimLine blank
  | verbatim chars => exact h.pushVerbatim chars row blank
  | tag tag => exact h.pushTag tag row blank

/-- **A whole text.** By induction on the pieces, the solid regions are kept unless some piece
spills. -/
theorem Tracks.addAll (keep : List String) (h : l.Tracks s) (pieces : List PlacedPiece) :
    Keeps (s.spills keep pieces) (l.regions ++ piecesRegions pieces)
      (l.addAll keep pieces).regions := by
  induction pieces generalizing l s with
  | nil => exact .of_eq (by simp [piecesRegions, Layer.addAll])
  | cons p rest ih =>
    have hstep := h.add keep p (blankBefore rest)
    have hrest := ih hstep.1
    have hfront := hstep.2.append_right (piecesRegions rest)
    rw [List.append_assoc] at hfront
    exact hfront.trans hrest

/-- At the start the line is clean and nothing is in front. -/
theorem tracks_empty : Tracks {} {} := ⟨rfl, rfl, fun _ => rfl⟩

end Layer

/-! ### Whole templates -/

/-- Whether laying out a template text takes away a line that is joined to the solid last line of
a verbatim block. -/
def Spills (keep : List String) (text : List Char) : Prop :=
  ∃ pieces, cutTemplate text = .ok pieces ∧ ({} : LineState).spills keep pieces = true

/-- **What laying out keeps.** The items of a template text have the solid regions of its reading,
in order, and no others. They have all of them exactly if the text does not spill. -/
theorem solids_items {keep : List String} {text : List Char} {items : List Item}
    (h : itemsOf keep text = .ok items) :
    ∃ regions, Reads text regions ∧
      List.Sublist (solids (items.flatMap Item.regions)) (solids regions) ∧
      (solids (items.flatMap Item.regions) = solids regions ↔ ¬ Spills keep text) := by
  -- the pieces that the items are laid out from
  obtain ⟨pieces, hp, rfl⟩ : ∃ pieces, cutTemplate text = .ok pieces ∧
      (Layer.addAll keep {} pieces).items = items := by
    rw [itemsOf] at h
    cases hp : cutTemplate text with
    | error e => simp [hp, Except.map] at h
    | ok pieces => exact ⟨pieces, rfl, by simpa [hp, Except.map] using h⟩
  have hkeeps := Layer.tracks_empty.addAll keep pieces
  have hspills : Spills keep text ↔ ({} : LineState).spills keep pieces = true := by
    simp [Spills, hp]
  refine ⟨piecesRegions pieces, reads_of_cutFrom hp, ?_⟩
  rw [Layer.regions_items, hspills, Bool.not_eq_true]
  exact ⟨hkeeps.sublist, hkeeps.eq_iff⟩

/-- A line feed between the block and the comment that takes its line away keeps the content. -/
theorem solids_items_block_apart :
    itemsOf [] "#[[abc]]#\n\n## c\n|".toList = .ok [.text "abc\n|".toList 1] ∧
      ∃ regions, Reads "#[[abc]]#\n\n## c\n|".toList regions ∧
        solids ([Item.text "abc\n|".toList 1].flatMap Item.regions) = solids regions := by
  have hcut : cutTemplate "#[[abc]]#\n\n## c\n|".toList = .ok
      [⟨.verbatim "abc".toList, 1⟩, ⟨.text "\n\n".toList, 1⟩, ⟨.lineComment, 3⟩,
        ⟨.text "\n|".toList, 3⟩] := by
    cbv
  have hitems : itemsOf [] "#[[abc]]#\n\n## c\n|".toList = .ok [.text "abc\n|".toList 1] := by
    rw [itemsOf, hcut]
    rfl
  obtain ⟨regions, hreads, -, heq⟩ := solids_items hitems
  refine ⟨hitems, regions, hreads, heq.2 ?_⟩
  rintro ⟨pieces, hp, hspills⟩
  rw [hcut] at hp
  obtain rfl := Except.ok.inj hp
  revert hspills
  decide

/-- A comment on the line behind a block takes the content of the block away. -/
theorem not_solids_items_eq :
    ¬ ∀ (keep : List String) (text : List Char) (items : List Item),
      itemsOf keep text = .ok items →
        ∃ regions, Reads text regions ∧ solids (items.flatMap Item.regions) = solids regions := by
  intro hall
  have hcut : cutTemplate "#[[abc]]#\n## c\n|".toList = .ok
      [⟨.verbatim "abc".toList, 1⟩, ⟨.text "\n".toList, 1⟩, ⟨.lineComment, 2⟩,
        ⟨.text "\n|".toList, 2⟩] := by
    cbv
  have hitems : itemsOf [] "#[[abc]]#\n## c\n|".toList = .ok [.text "|".toList 3] := by
    rw [itemsOf, hcut]
    rfl
  obtain ⟨regions, hreads, heq⟩ := hall _ _ _ hitems
  rw [hreads.unique (reads_of_cutFrom hcut)] at heq
  revert heq
  decide

end Stencil
