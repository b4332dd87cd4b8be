import Stencil.Config
import Stencil.Json.Number

/-!
# Settings as documents

Settings are written as an object with the members `dev_mode`, `base_template_path`, `buffer_size`
and `compressor`, where the compressor is an object with the member `separator`, or null.

They are read from such an object, in any order, with defaults for the members that are missing;
members of other names do not count. They are also read from an array of the same values in
order, of which the last ones may be missing. A member that occurs twice and a value of a wrong
kind are refused.

Main definitions: `Settings.document`, `Settings.ofDocument?`.
-/

namespace Stencil

/-! ### Writing -/

/-- The document of a separator. -/
def separatorDocument : Option Char → Json
  | some c => .ofMembers [("separator", .ofString (String.singleton c))]
  | none => .null

/-- The document of settings. -/
def Settings.document (s : Settings) : Json :=
  .ofMembers
    [("dev_mode", .bool s.devMode),
      ("base_template_path", (s.basePath.map Json.ofString).getD .null),
      ("buffer_size", .ofNat s.bufferSize),
      ("compressor", separatorDocument s.separator)]

/-! ### Reading -/

namespace Json

/-- The value of a member that must not occur twice: `some none` if it is missing. -/
def member? (name : String) (members : List (Option String × Json)) : Option (Option Json) :=
  match members.filter (·.1 == some name) with
  | [] => some none
  | [m] => some (some m.2)
  | _ => none

/-- A truth value. -/
def toBool? : Json → Option Bool
  | bool b => some b
  | _ => none

/-- A text. -/
def toText? : Json → Option String
  | string text => text
  | _ => none

/-- An integer of 64 bits from zero up. -/
def toNatural? : Json → Option Nat
  | number n =>
    match n.number? with
    | some (.natural k) => some k
    | _ => none
  | _ => none

/-- A text of one character. -/
def toChar? (j : Json) : Option Char :=
  match j.toText?.map String.toList with
  | some [c] => some c
  | _ => none

/-- A value or null. -/
def toOption? {α : Type} (read : Json → Option α) : Json → Option (Option α)
  | null => some none
  | j => (read j).map some

/-- A separator, in the object or array around it. -/
def toSeparator? : Json → Option Char
  | object members =>
    if members.all (·.1.isSome) then do
      let value ← (← member? "separator" members)
      value.toChar?
    else none
  | array [value] => value.toChar?
  | _ => none

/-- Reads a value that may be missing. -/
def orDefault {α : Type} (read : Json → Option α) (default : α) : Option Json → Option α
  | some j => read j
  | none => some default

end Json

/-- Settings from the values of their members. -/
def Settings.ofParts? (devMode basePath bufferSize separator : Option Json) : Option Settings := do
  let s : Settings := {}
  return {
    devMode := ← Json.orDefault Json.toBool? s.devMode devMode
    basePath := ← Json.orDefault (Json.toOption? Json.toText?) s.basePath basePath
    bufferSize := ← Json.orDefault Json.toNatural? s.bufferSize bufferSize
    separator := ← Json.orDefault (Json.toOption? Json.toSeparator?) s.separator separator }

/-- The settings that a document describes. -/
def Settings.ofDocument? : Json → Option Settings
  | .object members =>
    if members.all (·.1.isSome) then do
      Settings.ofParts? (← Json.member? "dev_mode" members)
        (← Json.member? "base_template_path" members) (← Json.member? "buffer_size" members)
        (← Json.member? "compressor" members)
    else none
  | .array items =>
    if items.length ≤ 4 then Settings.ofParts? items[0]? items[1]? items[2]? items[3]? else none
  | _ => none

end Stencil
