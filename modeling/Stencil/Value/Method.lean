import Stencil.Error
import Stencil.Text.Case
import Stencil.Text.Blank
import Stencil.Text.Search
import Stencil.Value.Equality
import Stencil.Value.Text

/-!
# Methods of values

The methods that expressions may call on a value, `name.toUpperCase()`, `items.add(x)` and so
on, one family per kind of value. A call has three outcomes:

* there is **no such method** — also when the number of arguments fits none, except for strings,
  which name the arity they expect;
* the method **fails** with a `MethodFault`;
* it **answers** with a value, and may have changed the list or map it was called on.

Strings are sequences of characters here: lengths, indexes and slices count characters. A range
answers the reading methods of a list from its bounds.

Main definition: `Heap.callMethod`.
-/

namespace Stencil

/-- An operation of the host: it takes values, may change the heap, and answers or fails in its
own words. -/
abbrev Operation := List Value → Heap → Except String Value × Heap

/-- The outcome of a method: `none` if there is no such method. -/
abbrev MethodResult := Option (Except MethodFault Value)

/-! ### Arguments -/

/-- A string argument. -/
def Value.expectString (name : String) (v : Value) : Except MethodFault (List Char) :=
  match v.asString? with
  | some s => .ok s.toList
  | none => .error (.notString name v.typeName)

/-- An index argument. -/
def Heap.expectIndex (h : Heap) (name : String) (v : Value) : Except MethodFault Nat :=
  match v.asIndex? with
  | some i => .ok i
  | none => .error (.notIndex name (h.text v))

/-- A string value of characters. -/
def Value.ofChars (cs : List Char) : Value := .str (String.ofList cs)

/-! ### Strings -/

/-- The string methods without arguments. -/
def plainStringMethod? (s : List Char) : String → Option Value
  | "length" => some (.ofNat s.length)
  | "isEmpty" => some (.bool s.isEmpty)
  | "toUpperCase" => some (.ofChars (Text.upperCase s))
  | "toLowerCase" => some (.ofChars (Text.lowerCase s))
  | "trim" => some (.ofChars (Text.trim s))
  | _ => none

/-- The names of the string methods that look for a text. -/
def searchNames : List String :=
  ["contains", "startsWith", "endsWith", "indexOf", "lastIndexOf", "split"]

/-- The string methods that look for a text. The answer is a value, or for `split` the items of
a new list. -/
def searchMethod (s needle : List Char) : String → Value ⊕ List (List Char)
  | "contains" => .inl (.bool (Text.contains needle s))
  | "startsWith" => .inl (.bool (needle.isPrefixOf s))
  | "endsWith" => .inl (.bool (needle.isSuffixOf s))
  | "indexOf" => .inl (.ofPosition? ((Text.find? needle s).map (Text.charPosition s)))
  | "lastIndexOf" => .inl (.ofPosition? ((Text.findLast? needle s).map (Text.charPosition s)))
  -- what is left of `searchNames` is `split`
  | _ => .inr (Text.split needle s)

/-- The character at an index, as a string. -/
def charAt (s : List Char) (index : Nat) : Except MethodFault Value :=
  match s[index]? with
  | some c => .ok (.ofChars [c])
  | none => .error (.characterOutOfRange index)

/-- The characters from one index up to another. -/
def substring (s : List Char) (start stop : Nat) : Except MethodFault Value :=
  if stop < start ∨ s.length < stop then .error (.sliceOutOfBounds start stop s.length)
  else .ok (.ofChars (Text.slice start stop s))

namespace Heap

variable (h : Heap)

/-- The bounds that the arguments of `substring` denote. -/
def sliceBounds (s : List Char) : List Value → Except MethodFault (Nat × Nat)
  | [start] => do return (← h.expectIndex "substring" start, s.length)
  | [start, stop] => do
    return (← h.expectIndex "substring" start, ← h.expectIndex "substring" stop)
  | args => .error (.sliceArguments "substring" args.length)

/-- The methods of strings. -/
def stringMethod (s : List Char) (name : String) (args : List Value) : MethodResult × Heap :=
  match plainStringMethod? s name with
  | some v =>
    -- The name decides, and a number of arguments that does not fit it is an error.
    (some (if args.isEmpty then .ok v else .error (.arguments name 0 args.length)), h)
  | none =>
    match name with
    | "replace" =>
      match args with
      | [pattern, image] =>
        (some (do
          let pattern ← pattern.expectString name
          let image ← image.expectString name
          return .ofChars (Text.replace pattern image s)), h)
      | _ => (some (.error (.arguments name 2 args.length)), h)
    | "charAt" =>
      match args with
      | [index] => (some (h.expectIndex name index >>= charAt s), h)
      | _ => (some (.error (.arguments name 1 args.length)), h)
    | "substring" => (some (h.sliceBounds s args >>= fun (a, b) => substring s a b), h)
    | _ =>
      if searchNames.contains name then
        match args with
        | [needle] =>
          match needle.expectString name with
          | .error fault => (some (.error fault), h)
          | .ok needle =>
            match searchMethod s needle name with
            | .inl v => (some (.ok v), h)
            | .inr pieces =>
              let (v, h) := h.newList (pieces.map Value.ofChars).toArray
              (some (.ok v), h)
        | _ => (some (.error (.arguments name 1 args.length)), h)
      else (none, h)

/-! ### Lists and ranges -/

/-- The texts of values, joined. -/
def joined (separator : List Char) (items : List Value) : Value :=
  .str ((String.ofList separator).intercalate (items.map h.text))

/-- The methods of lists. -/
def listMethod (id : ListId) (name : String) (args : List Value) : MethodResult × Heap :=
  let items := h.list id
  match name, args with
  | "size", [] => (some (.ok (.ofNat items.size)), h)
  | "isEmpty", [] => (some (.ok (.bool items.isEmpty)), h)
  | "get", [index] =>
    (some (do
      let i ← h.expectIndex name index
      match items[i]? with
      | some v => .ok v
      | none => .error (.indexOutOfBounds i items.size)), h)
  | "contains", [item] => (some (.ok (.bool (items.any (h.looselySame · item)))), h)
  | "indexOf", [item] =>
    (some (.ok (.ofPosition? (items.toList.findIdx? (h.looselySame · item)))), h)
  | "add", [item] => (some (.ok (.bool true)), h.setList id (items.push item))
  | "set", [index, item] =>
    match h.expectIndex name index with
    | .error fault => (some (.error fault), h)
    | .ok i =>
      match items[i]? with
      | some old => (some (.ok old), h.setList id (items.setIfInBounds i item))
      | none => (some (.error (.indexOutOfBounds i items.size)), h)
  | "remove", [index] =>
    match h.expectIndex name index with
    | .error fault => (some (.error fault), h)
    | .ok i =>
      match items[i]? with
      | some old => (some (.ok old), h.setList id (items.toList.eraseIdx i).toArray)
      | none => (some (.error (.indexOutOfBounds i items.size)), h)
  | "join", [separator] =>
    (some ((separator.expectString name).map (h.joined · items.toList)), h)
  | _, _ => (none, h)

/-- The index of a value in a range. -/
def rangePosition? (r : IntRange) (item : Value) : Option Nat := item.asLong?.bind r.position?

/-- The methods of ranges: those of lists that only read. -/
def rangeMethod (r : IntRange) (name : String) (args : List Value) : MethodResult :=
  match name, args with
  | "size", [] => some (.ok (.ofNat r.size))
  -- A range has its bounds at least.
  | "isEmpty", [] => some (.ok (.bool false))
  | "get", [index] =>
    some (do
      let i ← h.expectIndex name index
      match r.get? i with
      | some element => .ok (.int element)
      | none => .error (.indexOutOfBounds i r.size))
  | "contains", [item] => some (.ok (.bool (rangePosition? r item).isSome))
  | "indexOf", [item] => some (.ok (.ofPosition? (rangePosition? r item)))
  | "join", [separator] =>
    some ((separator.expectString name).map fun separator =>
      .str ((String.ofList separator).intercalate
        (r.toList.map fun i => Decimal.ofInt i.toInt)))
  | _, _ => none

/-! ### Maps -/

/-- The methods of maps. A key is the text of the value it is given as. `put` and `remove` lock the
map before they take this text, so they wait for themselves if it is read from the map. -/
def mapMethod (id : MapId) (name : String) (args : List Value) : MethodResult × Heap :=
  let entries := h.map id
  match name, args with
  | "size", [] => (some (.ok (.ofNat entries.size)), h)
  | "isEmpty", [] => (some (.ok (.bool (entries.size == 0))), h)
  | "get", [key] => (some (.ok ((entries.get? (h.text key)).getD .null)), h)
  | "getOrDefault", [key, fallback] =>
    (some (.ok ((entries.get? (h.text key)).getD fallback)), h)
  | "containsKey", [key] => (some (.ok (.bool (entries.contains (h.text key)))), h)
  | "containsValue", [value] =>
    (some (.ok (.bool (entries.values.any (h.looselySame · value)))), h)
  -- Both that change the map lock it first.
  | "put", [key, value] =>
    if h.textReads key id then (some (.error .selfLocked), h)
    else
      let key := h.text key
      (some (.ok ((entries.get? key).getD .null)), h.setMap id (entries.insert key value))
  | "remove", [key] =>
    if h.textReads key id then (some (.error .selfLocked), h)
    else
      let key := h.text key
      (some (.ok ((entries.get? key).getD .null)), h.setMap id (entries.erase key))
  | "keySet", [] | "keys", [] =>
    let (v, h) := h.newList (entries.keys.map Value.str).toArray
    (some (.ok v), h)
  | "values", [] =>
    let (v, h) := h.newList entries.values.toArray
    (some (.ok v), h)
  | _, _ => (none, h)

/-! ### Numbers -/

/-- The integer part of a number, clamped to 64 bits. -/
def wholePart (v : Value) : Int64 :=
  match v.asLong? with
  | some l => l
  | none => (v.asDouble?.getD 0).toInt64

/-- The conversions between numbers. -/
def numberMethod (v : Value) (name : String) : Option Value :=
  match name with
  | "intValue" => some (.int (wholePart v).toInt32)
  | "longValue" => some (.long (wholePart v))
  | "floatValue" => some (.float (v.asDouble?.getD 0).toFloat32)
  | "doubleValue" => some (.double (v.asDouble?.getD 0))
  | _ => none

/-! ### All values -/

/-- The methods that every value has. -/
def commonMethod (v : Value) (name : String) (args : List Value) : MethodResult :=
  match name, args with
  | "toString", [] => some (.ok (.str (h.text v)))
  | "equals", [other] => some (.ok (.bool (h.same v other)))
  | "hashCode", _ | "getClass", _ => some (.error (.unavailable name))
  | _, _ => none

/-- The methods of host objects, which are operations of the host. -/
def objectMethod (operations : Assoc Operation) (id : ObjectId) (name : String)
    (args : List Value) : MethodResult × Heap :=
  match ((h.object id).methods.lookup name).bind operations.get? with
  | none => (none, h)
  | some operation =>
    match operation args h with
    | (.ok v, h) => (some (.ok v), h)
    | (.error message, h) => (some (.error (.host message)), h)

/-- The methods that belong to the kind of a value. -/
def ownMethod (operations : Assoc Operation) (v : Value) (name : String) (args : List Value) :
    MethodResult × Heap :=
  match v with
  | .str s => h.stringMethod s.toList name args
  | .list id => h.listMethod id name args
  | .map id => h.mapMethod id name args
  | .range r => (h.rangeMethod r name args, h)
  | .object id => h.objectMethod operations id name args
  | .int _ | .long _ | .float _ | .double _ => ((numberMethod v name).map .ok, h)
  | .null | .bool _ | .iter _ | .status _ => (none, h)

/-- Calls a method: one that belongs to the kind of the value, or one that every value has. -/
def callMethod (operations : Assoc Operation) (v : Value) (name : String) (args : List Value) :
    MethodResult × Heap :=
  match h.ownMethod operations v name args with
  | (none, h) => (h.commonMethod v name args, h)
  | outcome => outcome

end Heap

end Stencil
