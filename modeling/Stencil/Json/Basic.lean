import Stencil.Number.Numeral

/-!
# JSON documents

A document is a tree of objects, arrays, strings, numerals and constants. It keeps what is
written: numerals stay digits, and the members of an object stay in order, with repeated names.

Strings are texts of Unicode characters. A document may spell half of a surrogate pair, which is
no character: such a string has no text.

Main definitions: `Json`, `Json.write` (the compact text of a document).
-/

namespace Stencil

/-- A document. -/
inductive Json where
  | null
  | bool (b : Bool)
  | number (n : Numeral)
  /-- A string, without a text where surrogates stand alone. -/
  | string (text : Option String)
  | array (items : List Json)
  | object (members : List (Option String × Json))
deriving Inhabited

namespace Json

/-- The string of a text. -/
def ofString (s : String) : Json := .string (some s)

/-- The numeral of an integer. -/
def ofInt (i : Int) : Json := .number (.ofInt i)

/-- The numeral of a natural number. -/
def ofNat (n : Nat) : Json := ofInt n

/-- An object of named members. -/
def ofMembers (members : List (String × Json)) : Json :=
  .object (members.map fun m => (some m.1, m.2))

/-! ### Writing -/

/-- A hexadecimal digit, in lower case. -/
def hexDigit (n : Nat) : Char := Nat.digitChar n

/-- A character inside a string. Control characters are spelled by an escape: five of them by a
letter, the others by their number. -/
def escapeChar (c : Char) : List Char :=
  if c = '\x22' then ['\\', '\x22']
  else if c = '\\' then ['\\', '\\']
  else if c = '\x08' then ['\\', 'b']
  else if c = '\t' then ['\\', 't']
  else if c = '\n' then ['\\', 'n']
  else if c = '\x0c' then ['\\', 'f']
  else if c = '\r' then ['\\', 'r']
  else if c.toNat < 32 then
    ['\\', 'u', '0', '0', hexDigit (c.toNat / 16), hexDigit (c.toNat % 16)]
  else [c]

/-- A string with its quotes. -/
def quote (s : String) : List Char := '\x22' :: s.toList.flatMap escapeChar ++ ['\x22']

/-- A string that may have no text, which is written empty. -/
def quote? (s : Option String) : List Char := quote (s.getD "")

mutual

/-- The characters of a document. -/
def chars : Json → List Char
  | null => ['n', 'u', 'l', 'l']
  | bool true => ['t', 'r', 'u', 'e']
  | bool false => ['f', 'a', 'l', 's', 'e']
  | number n => n.chars ['+']
  | string text => quote? text
  | array items => '[' :: charsOfItems items
  | object members => '{' :: charsOfMembers members

/-- The items of an array and the bracket behind them. -/
def charsOfItems : List Json → List Char
  | [] => [']']
  | [item] => item.chars ++ [']']
  | item :: rest => item.chars ++ ',' :: charsOfItems rest

/-- The members of an object and the brace behind them. -/
def charsOfMembers : List (Option String × Json) → List Char
  | [] => ['}']
  | [(name, value)] => quote? name ++ ':' :: (value.chars ++ ['}'])
  | (name, value) :: rest => quote? name ++ ':' :: (value.chars ++ ',' :: charsOfMembers rest)

end

/-- The compact text of a document. -/
def write (j : Json) : String := String.ofList j.chars

end Json

end Stencil
