import Stencil.Value.Text

/-!
# Walking over a value

A loop over a value takes one item after the other. A walk is what is left of it:

* over a **list**, the items it had when the loop began, so that the body may change the list;
* over a **map**, one new map with the fields `key` and `value` per entry;
* over **null**, nothing; over any other single value, that value;
* over a **range**, the index of the next element, since ranges are never written out;
* over a **one-shot iterator**, whatever the iterator still gives.

Main definitions: `Walk.ofValue`, `Walk.next?`.
-/

namespace Stencil

/-- What a loop has yet to walk over. -/
inductive Walk where
  | items (rest : List Value) (size : Nat)
  | range (range : IntRange) (next : Nat)
  | iterator (id : IterId)
deriving Inhabited

namespace Walk

/-- A walk over items. -/
def ofItems (items : List Value) : Walk := .items items items.length

/-- The map that stands for an entry of a map. -/
def entryOf (h : Heap) (key : String) (value : Value) : Value × Heap :=
  h.newMap (.ofList [("key", .str key), ("value", value)])

/-- The maps that stand for the entries of a map. -/
def entriesOf : List (String × Value) → Heap → List Value × Heap
  | [], h => ([], h)
  | (key, value) :: rest, h =>
    let (entry, h) := entryOf h key value
    let (entries, h) := entriesOf rest h
    (entry :: entries, h)

/-- The walk over a value. -/
def ofValue (v : Value) (h : Heap) : Walk × Heap :=
  match v with
  | .iter id => (.iterator id, h)
  | .range r => (.range r 0, h)
  | .null => (ofItems [], h)
  | .list id => (ofItems (h.list id).toList, h)
  | .map id =>
    let (entries, h) := entriesOf (h.map id).entries h
    (ofItems entries, h)
  | _ => (ofItems [v], h)

/-- The number of items in all, where it is known. -/
def size? : Walk → Option Nat
  | .items _ size => some size
  | .range r _ => some r.size
  | .iterator _ => none

/-- Whether there is an item left. -/
def hasNext (h : Heap) : Walk → Bool
  | .items rest _ => !rest.isEmpty
  | .range r next => next < r.size
  | .iterator id => !(h.remaining id).isEmpty

/-- The next item, and the walk behind it. -/
def next? (walk : Walk) (h : Heap) : Option (Value × Walk) × Heap :=
  match walk with
  | .items (v :: rest) size => (some (v, .items rest size), h)
  | .items [] _ => (none, h)
  | .range r next =>
    match r.get? next with
    | some element => (some (.int element, .range r (next + 1)), h)
    | none => (none, h)
  | .iterator id =>
    match h.next? id with
    | some (v, h) => (some (v, .iterator id), h)
    | none => (none, h)

end Walk

end Stencil
