import Stencil.Json.Basic

/-!
# Reading documents

A document is read by descent: a value starts with the character that tells its kind, and reading
it leaves the characters behind it. Spaces, tabs and line breaks may stand between any two parts.

* A numeral has no leading zeros, and digits on both sides of its point.
* A string holds no control characters. A surrogate in an escape must be half of a pair of
  escapes, or else the string has no text; the document is well formed all the same.

The descent takes fuel, and the number of characters is enough of it, since every value takes at
least one.

Main definition: `Json.read?`.
-/

namespace Stencil.Json

/-- Whether a character may stand between the parts of a document. -/
def isSpace (c : Char) : Bool := c == ' ' || c == '\n' || c == '\t' || c == '\r'

/-- The characters behind the spaces at the front. -/
def skipSpaces (cs : List Char) : List Char := cs.dropWhile isSpace

/-! ### Numerals -/

/-- The digits at the front of a text, at least one. -/
def readDigits? (cs : List Char) : Option (List Char × List Char) :=
  match cs.takeWhile Char.isDigit with
  | [] => none
  | digits => some (digits, cs.dropWhile Char.isDigit)

/-- The digits in front of a point. -/
def readWhole? (cs : List Char) : Option (List Char × List Char) :=
  match readDigits? cs with
  -- No digit may follow a zero in front.
  | some ('0' :: _ :: _, _) => none
  | result => result

/-- The point at the front of a text, and the digits behind it. -/
def readFraction? : List Char → Option (List Char × List Char)
  | '.' :: cs => readDigits? cs
  | cs => some ([], cs)

/-- The sign at the front of a text: whether it is a minus. -/
def readSign : List Char → Bool × List Char
  | '-' :: cs => (true, cs)
  | '+' :: cs => (false, cs)
  | cs => (false, cs)

/-- The exponent at the front of a text. -/
def readExponent? : List Char → Option (Option Int × List Char)
  | c :: cs =>
    if c = 'e' ∨ c = 'E' then do
      let (negative, cs) := readSign cs
      let (digits, cs) ← readDigits? cs
      let magnitude : Int := Decimal.ofDigits digits
      return (some (if negative then -magnitude else magnitude), cs)
    else some (none, c :: cs)
  | [] => some (none, [])

/-- The numeral at the front of a text, behind its sign. -/
def readUnsigned? (negative : Bool) (cs : List Char) : Option (Numeral × List Char) := do
  let (whole, cs) ← readWhole? cs
  let (fraction, cs) ← readFraction? cs
  let (exponent, cs) ← readExponent? cs
  return ({ negative, whole, fraction, exponent }, cs)

/-- The numeral at the front of a text. -/
def readNumeral? : List Char → Option (Numeral × List Char)
  | '-' :: cs => readUnsigned? true cs
  | cs => readUnsigned? false cs

/-! ### Strings -/

/-- What has been read of a string. -/
structure StringDraft where
  /-- The characters so far, last one first. -/
  chars : List Char := []
  /-- A high surrogate that waits for its partner. -/
  high : Option Nat := none
  /-- Whether all surrogates so far are paired. -/
  paired : Bool := true

namespace StringDraft

/-- Adds a character. -/
def push (p : StringDraft) (c : Char) : StringDraft :=
  { chars := c :: p.chars, paired := p.paired && p.high.isNone }

/-- Adds what the escape of a number spells. -/
def pushUnit (p : StringDraft) (n : Nat) : StringDraft :=
  -- The halves of a surrogate pair: a high one waits, and a low one completes it.
  if 0xd800 ≤ n ∧ n ≤ 0xdbff then { p with high := some n, paired := p.paired && p.high.isNone }
  else if 0xdc00 ≤ n ∧ n ≤ 0xdfff then
    match p.high with
    | some high =>
      { p with
        chars := Char.ofNat ((high - 0xd800) * 1024 + (n - 0xdc00) + 0x10000) :: p.chars
        high := none }
    | none => { p with paired := false }
  else p.push (Char.ofNat n)

/-- The text of a string that has been read to its end. -/
def text? (p : StringDraft) : Option String :=
  if p.paired && p.high.isNone then some (String.ofList p.chars.reverse) else none

end StringDraft

/-- The value of a hexadecimal digit. -/
def hexValue? (c : Char) : Option Nat :=
  if c.isDigit then some (c.toNat - 48)
  else if 'a' ≤ c ∧ c ≤ 'f' then some (c.toNat - 87)
  else if 'A' ≤ c ∧ c ≤ 'F' then some (c.toNat - 55)
  else none

/-- The number of four hexadecimal digits. -/
def unitOf? (a b c d : Char) : Option Nat := do
  return (((← hexValue? a) * 16 + (← hexValue? b)) * 16 + (← hexValue? c)) * 16 + (← hexValue? d)

/-- The character that the letter of an escape stands for. -/
def escaped? (c : Char) : Option Char :=
  match c with
  | '\x22' => some '\x22'
  | '\\' => some '\\'
  | '/' => some '/'
  | 'b' => some '\x08'
  | 'f' => some '\x0c'
  | 'n' => some '\n'
  | 'r' => some '\r'
  | 't' => some '\t'
  | _ => none

/-- The rest of a string, behind its opening quote. -/
def readString? (p : StringDraft) : List Char → Option (Option String × List Char)
  | [] => none
  | '\\' :: 'u' :: a :: b :: c :: d :: cs =>
    match unitOf? a b c d with
    | some n => readString? (p.pushUnit n) cs
    | none => none
  | '\\' :: e :: cs =>
    match escaped? e with
    | some c => readString? (p.push c) cs
    | none => none
  | c :: cs =>
    if c = '\x22' then some (p.text?, cs)
    -- Control characters have to be escaped.
    else if c.toNat < 32 ∨ c = '\\' then none
    else readString? (p.push c) cs

/-! ### Values -/

/-- What follows an item of an array or a member of an object: a comma, or the end. -/
def readDivider? (close : Char) (cs : List Char) : Option (Bool × List Char) :=
  match skipSpaces cs with
  | c :: cs => if c = ',' then some (true, cs) else if c = close then some (false, cs) else none
  | [] => none

/-- The name of a member, with its colon. -/
def readName? (cs : List Char) : Option (Option String × List Char) :=
  match skipSpaces cs with
  | '\x22' :: cs => do
    let (name, cs) ← readString? {} cs
    match skipSpaces cs with
    | ':' :: cs => return (name, cs)
    | _ => none
  | _ => none

mutual

/-- The value at the front of a text. -/
def readValue? : Nat → List Char → Option (Json × List Char)
  | 0, _ => none
  | fuel + 1, cs =>
    match skipSpaces cs with
    | 'n' :: 'u' :: 'l' :: 'l' :: cs => some (.null, cs)
    | 't' :: 'r' :: 'u' :: 'e' :: cs => some (.bool true, cs)
    | 'f' :: 'a' :: 'l' :: 's' :: 'e' :: cs => some (.bool false, cs)
    | '\x22' :: cs => do
      let (text, cs) ← readString? {} cs
      return (.string text, cs)
    | '[' :: cs =>
      match skipSpaces cs with
      | ']' :: cs => some (.array [], cs)
      | cs => do
        let (items, cs) ← readItems? fuel cs
        return (.array items, cs)
    | '{' :: cs =>
      match skipSpaces cs with
      | '}' :: cs => some (.object [], cs)
      | cs => do
        let (members, cs) ← readMembers? fuel cs
        return (.object members, cs)
    -- Everything else has to be a number.
    | cs => do
      let (n, cs) ← readNumeral? cs
      return (.number n, cs)

/-- The items of an array, up to its end. -/
def readItems? : Nat → List Char → Option (List Json × List Char)
  | 0, _ => none
  | fuel + 1, cs => do
    let (item, cs) ← readValue? fuel cs
    let (more, cs) ← readDivider? ']' cs
    if more then
      let (rest, cs) ← readItems? fuel cs
      return (item :: rest, cs)
    else return ([item], cs)

/-- The members of an object, up to its end. -/
def readMembers? : Nat → List Char → Option (List (Option String × Json) × List Char)
  | 0, _ => none
  | fuel + 1, cs => do
    let (name, cs) ← readName? cs
    let (value, cs) ← readValue? fuel cs
    let (more, cs) ← readDivider? '}' cs
    if more then
      let (rest, cs) ← readMembers? fuel cs
      return ((name, value) :: rest, cs)
    else return ([(name, value)], cs)

end

/-- The document that a text spells. -/
def read? (text : String) : Option Json := do
  let cs := text.toList
  let (j, rest) ← readValue? (cs.length + 1) cs
  if (skipSpaces rest).isEmpty then return j else none

end Stencil.Json
