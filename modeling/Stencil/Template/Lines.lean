import Stencil.Template.Piece

/-!
# Lines of constructs

A line that holds nothing but constructs leaves no trace in the output: its blanks and its line
break are dropped with it. Literal text is laid out here accordingly.

* A line is **clean** up to a point if only spaces, tabs, carriage returns and constructs stand
  before it. A construct on a clean line, with only blanks up to the end of the line, takes the
  line away: the blanks before it are deleted, also from texts in front of earlier constructs on
  the same line, and the blanks and the line break after it are skipped.
* Some tags **keep** their line (`keep`); behind them a line is not clean.
* The content of a verbatim block is text like any other. Only the line that holds its closing
  mark can be taken away.

The result is a list of items: texts that are not empty when they are laid out, although later
trimming may empty them, and tags. Both carry their row.

Main definition: `itemsOf`. Main statement: `Layer.push_done` and its neighbours say what each
step adds to the items.
-/

namespace Stencil

/-- An item of a template: literal text, or a tag. -/
inductive Item where
  | text (chars : List Char) (row : Nat)
  | tag (tag : Tag) (row : Nat)
deriving DecidableEq, Repr

/-- The row of an item. -/
def Item.row : Item → Nat
  | text _ row => row
  | tag _ row => row

/-! ### Blank ends of lines -/

/-- Whether only blanks follow on the line, up to a line break or the end of the template. -/
def blankBefore : List PlacedPiece → Bool
  | [] => true
  | ⟨.text chars, _⟩ :: rest =>
    match chars.dropWhile isSpace with
    | [] => rest.isEmpty
    | '\n' :: _ => true
    | '\r' :: '\n' :: _ => true
    | _ => false
  | _ :: _ => false

/-- A text without the blanks at its front and the line break behind them, and the number of
line feeds that were dropped. -/
def skipLine (chars : List Char) : List Char × Nat :=
  match chars.dropWhile isSpace with
  | '\n' :: cs => (cs, 1)
  | '\r' :: '\n' :: cs => (cs, 1)
  | cs => (cs, 0)

/-- A text up to and including its last line feed. -/
def keepLines (chars : List Char) : List Char := (chars.reverse.dropWhile (· != '\n')).reverse

/-- Deletes what stands behind the last line feed of the texts among the items, last item
first. -/
def dropOpenLine : List Item → List Item
  | [] => []
  | .text chars row :: rest =>
    if '\n' ∈ chars then .text (keepLines chars) row :: rest
    else .text [] row :: dropOpenLine rest
  | .tag tag row :: rest => .tag tag row :: dropOpenLine rest

/-! ### Laying out -/

/-- What has been laid out so far. -/
structure Layer where
  /-- The finished items, last one first. -/
  done : List Item := []
  /-- The text that is still growing, and the row it begins in. -/
  pending : List Char := []
  pendingRow : Nat := 1
  /-- Whether only blanks and constructs stand on the line so far. -/
  clean : Bool := true
  /-- Whether the blanks and the line break that follow are to be skipped. -/
  skipping : Bool := false

namespace Layer

/-- Whether a line is clean behind a text that follows a line in state `clean`. -/
def cleanAfter (clean : Bool) (chars : List Char) : Bool :=
  chars.foldl (fun clean c =>
    if c = '\n' then true else if isSpace c || c == '\r' then clean else false) clean

/-- Adds literal text. -/
def push (l : Layer) (chars : List Char) (row : Nat) : Layer :=
  { l with
    pending := l.pending ++ chars
    pendingRow := if l.pending.isEmpty then row else l.pendingRow
    clean := cleanAfter l.clean chars }

/-- Finishes the growing text. -/
def flush (l : Layer) : Layer :=
  if l.pending.isEmpty then l
  else { l with done := .text l.pending l.pendingRow :: l.done, pending := [] }

/-- Deletes the blanks at the front of the current line. -/
def deleteLineStart (l : Layer) : Layer :=
  if '\n' ∈ l.pending then { l with pending := keepLines l.pending }
  else { l with pending := [], done := dropOpenLine l.done }

/-- Takes the current line away, if it is clean and `blank` behind. -/
def trimLine (l : Layer) (blank : Bool) : Layer :=
  if l.clean && blank then { l.deleteLineStart with clean := true, skipping := true } else l

/-- Adds the content of a verbatim block. -/
def pushVerbatim (l : Layer) (chars : List Char) (row : Nat) (blank : Bool) : Layer :=
  -- The blanks in front go before the content comes, which may have line feeds of its own.
  if l.clean && blank then
    { l.deleteLineStart.push chars row with clean := true, skipping := true }
  else l.push chars row

/-- Adds a tag. -/
def pushTag (keep : List String) (l : Layer) (tag : Tag) (row : Nat) (blank : Bool) : Layer :=
  let l := l.flush
  let l := { l with done := .tag tag row :: l.done }
  if tag.id ∈ keep then { l with clean := false } else l.trimLine blank

/-- Adds a piece, where `blank` tells whether only blanks follow it on its line. -/
def add (keep : List String) (l : Layer) (p : PlacedPiece) (blank : Bool) : Layer :=
  match p.piece with
  | .text chars =>
    if l.skipping then
      let (chars, rows) := skipLine chars
      { l.push chars (p.row + rows) with skipping := false }
    else l.push chars p.row
  | .lineComment | .blockComment => l.trimLine blank
  | .verbatim chars => l.pushVerbatim chars p.row blank
  | .tag tag => l.pushTag keep tag p.row blank

/-- Adds all pieces of a template. -/
def addAll (keep : List String) (l : Layer) : List PlacedPiece → Layer
  | [] => l
  | p :: rest => addAll keep (l.add keep p (blankBefore rest)) rest

/-- The items of a finished layout, in order. -/
def items (l : Layer) : List Item := l.flush.done.reverse

/-- Literal text grows the pending text and leaves the finished items alone. -/
@[simp] theorem push_done (l : Layer) (chars : List Char) (row : Nat) :
    (l.push chars row).done = l.done := rfl

/-- Characters that are pushed are pending behind those that are there. -/
@[simp] theorem push_pending (l : Layer) (chars : List Char) (row : Nat) :
    (l.push chars row).pending = l.pending ++ chars := rfl

/-- Finishing the text leaves none behind. -/
@[simp] theorem flush_pending (l : Layer) : l.flush.pending = [] := by
  unfold flush
  split
  · rename_i h
    exact List.isEmpty_iff.1 h
  · rfl

end Layer

/-- The items of a template, in which the tags with an id in `keep` keep their lines. -/
def itemsOf (keep : List String) (text : List Char) :
    Except (ParseFault × Nat) (List Item) :=
  (cutTemplate text).map fun pieces => (Layer.addAll keep {} pieces).items

end Stencil
