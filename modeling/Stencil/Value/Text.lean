import Stencil.Number.Layout
import Stencil.Value.Heap

/-!
# The text of a value

Every value has a text: the one that string concatenation, `toString()` and map keys use. Lists
and ranges are written `[a, b]`, maps `{k=v, k=v}`, with the texts of what they hold inside.

A text is read from all lists and maps that the value holds. A map that is locked for a write cannot
be read, so a write has to know whether the text of its key is read from the map.

Main definitions: `Heap.text`, `Heap.textReads`.
-/

namespace Stencil

/-- A range as a list of its elements. -/
def IntRange.text (r : IntRange) : String :=
  "[" ++ ", ".intercalate (r.toList.map fun i => Decimal.ofInt i.toInt) ++ "]"

/-- The text of a loop status. -/
def LoopStatus.text (s : LoopStatus) : String :=
  "LoopStatus(index=" ++ Decimal.ofNat s.index ++ ", count=" ++ Decimal.ofNat s.count ++ ")"

namespace Heap

variable (h : Heap)

/-- The text of a value, in which lists and maps are followed to a given depth. -/
def textTo : Nat → Value → String
  | _, .null => "null"
  | _, .bool b => if b then "true" else "false"
  | _, .int i => Decimal.ofInt i.toInt
  | _, .long l => Decimal.ofInt l.toInt
  | _, .float f => singleText f
  | _, .double d => doubleText d
  | _, .str s => s
  | _, .range r => r.text
  | _, .iter _ => "<iterator>"
  | _, .status id => (h.status id).text
  | _, .object id => (h.object id).text
  | 0, .list _ => "[...]"
  | 0, .map _ => "\x7b...\x7d"
  | depth + 1, .list id =>
    "[" ++ ", ".intercalate ((h.list id).toList.map (textTo depth)) ++ "]"
  | depth + 1, .map id =>
    "\x7b" ++
      ", ".intercalate ((h.map id).entries.map fun e => e.1 ++ "=" ++ textTo depth e.2) ++ "\x7d"

/-- The text of a value. It goes all the way down, unless the value is inside itself. -/
def text (v : Value) : String := h.textTo h.depth v

/-- Whether the text of a value, to a given depth, is read from a map. -/
def readsTo (id : MapId) : Nat → Value → Bool
  | depth + 1, .list items => (h.list items).any (readsTo id depth)
  | depth + 1, .map entries =>
    entries == id || (h.map entries).entries.any fun e => readsTo id depth e.2
  | _, _ => false

/-- Whether the text of a value is read from a map: the value is the map or holds it. -/
def textReads (v : Value) (id : MapId) : Bool := h.readsTo id h.depth v

end Heap

end Stencil
