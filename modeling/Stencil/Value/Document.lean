import Stencil.Json.Number
import Stencil.Value.Text

/-!
# Values as documents

A value has a document, and a document has a value. Lists and ranges are arrays, maps are objects,
and iterators, loop statuses and host objects appear as strings with their text. Numbers that no
numeral can spell are null.

Read back, an integer gets the narrowest kind that holds it. Of members with one name the last
value stays, at the place of the first. Arrays and objects may be nested up to `maxNesting` deep.

Main definitions: `Heap.document`, `Json.toValue?`.
-/

namespace Stencil

/-! ### From values to documents -/

/-- The document of a number, which is null without a numeral. -/
def Json.ofNumeral? : Option Numeral → Json
  | some n => .number n
  | none => .null

/-- The document of a value, in which lists and maps are followed to a given depth. -/
def Heap.documentTo (h : Heap) : Nat → Value → Json
  | _, .null => .null
  | _, .bool b => .bool b
  | _, .int i => .ofInt i.toInt
  | _, .long l => .ofInt l.toInt
  | _, .float f => .ofNumeral? (singleNumeral? f)
  | _, .double d => .ofNumeral? (doubleNumeral? d)
  | _, .str s => .ofString s
  | _, .range r => .array (r.toList.map fun i => .ofInt i.toInt)
  | 0, .list _ => .array []
  | 0, .map _ => .object []
  | depth + 1, .list id => .array ((h.list id).toList.map (h.documentTo depth))
  | depth + 1, .map id =>
    .ofMembers ((h.map id).entries.map fun e => (e.1, h.documentTo depth e.2))
  | _, .iter id => .ofString (h.text (.iter id))
  | _, .status id => .ofString (h.text (.status id))
  | _, .object id => .ofString (h.text (.object id))

/-- The document of a value. -/
def Heap.document (h : Heap) (v : Value) : Json := h.documentTo h.depth v

/-! ### From documents to values -/

/-- An integer as a value of the narrowest kind. -/
def Value.ofInt (i : Int) : Value :=
  if fitsInt i then .int (Int32.ofInt i)
  else if fitsLong i then .long (Int64.ofInt i)
  else .double (doubleOfDecimal i.natAbs 0)

/-- The value of a number of a document. -/
def DocumentNumber.toValue : DocumentNumber → Value
  | natural n => .ofInt n
  | negative i => .ofInt i
  | real x => .double x

namespace Json

/-- How deep arrays and objects may be nested. -/
def maxNesting : Nat := 127

mutual

/-- The value of a document that may be nested up to a given depth. -/
def toValueTo? : Nat → Json → Heap → Option (Value × Heap)
  | _, null, h => some (.null, h)
  | _, bool b, h => some (.bool b, h)
  | _, number n, h => n.number?.map fun x => (x.toValue, h)
  | _, string text, h => text.map fun s => (.str s, h)
  | 0, array _, _ => none
  | 0, object _, _ => none
  | depth + 1, array items, h => do
    let (values, h) ← itemValues? depth items h
    return h.newList values.toArray
  | depth + 1, object members, h => do
    let (entries, h) ← memberValues? depth members h
    return h.newMap (.ofList entries)

/-- The values of the items of an array. -/
def itemValues? : Nat → List Json → Heap → Option (List Value × Heap)
  | _, [], h => some ([], h)
  | depth, item :: rest, h => do
    let (v, h) ← toValueTo? depth item h
    let (vs, h) ← itemValues? depth rest h
    return (v :: vs, h)

/-- The names and values of the members of an object. -/
def memberValues? : Nat → List (Option String × Json) → Heap →
    Option (List (String × Value) × Heap)
  | _, [], h => some ([], h)
  | depth, (name, value) :: rest, h => do
    let name ← name
    let (v, h) ← toValueTo? depth value h
    let (entries, h) ← memberValues? depth rest h
    return ((name, v) :: entries, h)

end

/-- The value of a document. -/
def toValue? (j : Json) (h : Heap) : Option (Value × Heap) := j.toValueTo? maxNesting h

end Json

end Stencil
