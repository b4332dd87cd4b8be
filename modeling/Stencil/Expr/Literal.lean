import Stencil.Expr.Token
import Stencil.Number.Layout
import Stencil.Text.Letter

/-!
# Number literals

A number literal is read from the front of a text, together with its value.

* Digits alone are an int, or a long with the suffix `L`; a leading zero makes them octal, and
  `0x` hexadecimal. A literal out of the range of its type is refused. Hexadecimal digits spell
  out the bits of the type, the sign bit included.
* A fraction or an exponent makes a double, the suffix `F` a float and `D` a double. The value is
  the closest one of the type.
* A point or an exponent mark without a digit after it does not belong to the literal.
* A letter directly after the literal is an error.

Main definitions: `DecimalLiteral.scan`, `scanNumber`.
-/

namespace Stencil

/-- Why a literal is refused, with its spelling. -/
def badNumber (literal : List Char) (reason : String) : ParseFault :=
  .invalidNumber (String.ofList literal) reason

/-! ### Integers -/

/-- The value of a digit in a base up to sixteen. -/
def hexValue (c : Char) : Nat :=
  if c.isDigit then c.toNat - 48 else if c.toNat < 97 then c.toNat - 55 else c.toNat - 87

/-- The value of digits in a base. -/
def valueIn (base : Nat) (digits : List Char) : Nat :=
  digits.foldl (fun acc c => acc * base + hexValue c) 0

/-- The first number that is not read at all. -/
def readLimit : Nat := Nat.pow 2 127

/-- The value of decimal digits, which a leading zero makes octal. -/
def integral (digits : List Char) : Except String Nat :=
  match digits with
  | '0' :: d :: rest =>
    let n := valueIn 8 (d :: rest)
    if (d :: rest).all (·.toNat < 56) ∧ n < readLimit then .ok n
    else .error "invalid octal digit"
  | _ =>
    let n := valueIn 10 digits
    if n < readLimit then .ok n else .error "invalid digits"

/-- What messages say of an integer that no int can hold. -/
def intRange : String := "out of int range, use the L suffix for a long"

/-- What messages say of an integer that no long can hold. -/
def longRange : String := "out of long range"

/-- The int that digits spell. -/
def intOfDigits (digits : List Char) : Except String Value := do
  let n ← integral digits
  if fitsInt n then .ok (.int (Int32.ofNat n)) else .error intRange

/-- The long that digits spell. -/
def longOfDigits (digits : List Char) : Except String Value := do
  let n ← integral digits
  if fitsLong n then .ok (.long (Int64.ofNat n)) else .error longRange

/-- The value that hexadecimal digits spell, bit by bit. -/
def ofHexDigits (long : Bool) (digits : List Char) : Except String Value :=
  let n := valueIn 16 digits
  if UInt64.size ≤ n then .error longRange
  else if long then .ok (.long (Int64.ofNat n))
  else if n < UInt32.size then .ok (.int (Int32.ofNat n))
  else .error intRange

/-! ### Decimal literals -/

/-- The parts of a decimal literal. -/
structure DecimalLiteral where
  whole : List Char
  /-- The digits after the point. -/
  fraction : Option (List Char)
  /-- The mark and sign of the exponent, and its digits. -/
  exponent : Option (List Char × List Char)

namespace DecimalLiteral

/-- The characters of a literal. -/
def spelling (n : DecimalLiteral) : List Char :=
  n.whole ++
    (match n.fraction with
      | some digits => '.' :: digits
      | none => []) ++
    (match n.exponent with
      | some (mark, digits) => mark ++ digits
      | none => [])

/-- The exponent of ten that the exponent part spells. -/
def power (n : DecimalLiteral) : Int :=
  match n.exponent with
  | some (mark, digits) =>
    if '-' ∈ mark then -(valueIn 10 digits : Int) else valueIn 10 digits
  | none => 0

/-- All digits in front of the exponent, as one number. -/
def digits (n : DecimalLiteral) : Nat := valueIn 10 (n.whole ++ n.fraction.getD [])

/-- The exponent of ten of the last digit. -/
def scale (n : DecimalLiteral) : Int := n.power - (n.fraction.getD []).length

/-- The closest double. -/
def toDouble (n : DecimalLiteral) : Value := .double (doubleOfDecimal n.digits n.scale)

/-- The closest float. -/
def toFloat (n : DecimalLiteral) : Value := .float (singleOfDecimal n.digits n.scale)

/-- The fraction at the front of a text: a point with at least one digit. -/
def scanFraction : List Char → Option (List Char) × List Char
  | '.' :: d :: rest =>
    if d.isDigit then
      (some ((d :: rest).takeWhile Char.isDigit), (d :: rest).dropWhile Char.isDigit)
    else (none, '.' :: d :: rest)
  | cs => (none, cs)

/-- The mark and sign of an exponent that a digit follows. -/
def exponentMark : List Char → List Char
  | e :: sign :: d :: _ =>
    if e = 'e' ∨ e = 'E' then
      if sign.isDigit then [e]
      else if (sign = '+' ∨ sign = '-') ∧ d.isDigit then [e, sign] else []
    else []
  | [e, d] => if (e = 'e' ∨ e = 'E') ∧ d.isDigit then [e] else []
  | _ => []

/-- The exponent at the front of a text. -/
def scanExponent (cs : List Char) : Option (List Char × List Char) × List Char :=
  match exponentMark cs with
  | [] => (none, cs)
  | mark =>
    let rest := cs.drop mark.length
    (some (mark, rest.takeWhile Char.isDigit), rest.dropWhile Char.isDigit)

/-- The decimal literal at the front of a text. -/
def scan (cs : List Char) : DecimalLiteral × List Char :=
  let (fraction, rest) := scanFraction (cs.dropWhile Char.isDigit)
  let (exponent, rest) := scanExponent rest
  (⟨cs.takeWhile Char.isDigit, fraction, exponent⟩, rest)

/-- The value of a literal with its suffix. -/
def value (n : DecimalLiteral) (suffix : Option Char) : Except String Value :=
  match suffix with
  | some 'L' | some 'l' =>
    if n.exponent.isSome then .error "scientific notation cannot be a long"
    else if n.fraction.isSome then .error "a number with a fraction cannot be a long"
    else longOfDigits n.whole
  | some 'F' | some 'f' =>
    if n.exponent.isSome then .error "scientific notation cannot be a float" else .ok n.toFloat
  | some _ => .ok n.toDouble
  | none =>
    if n.fraction.isSome ∨ n.exponent.isSome then .ok n.toDouble else intOfDigits n.whole

end DecimalLiteral

/-! ### Scanning -/

/-- Splits a text into its first character and the rest, if the character is in a class. -/
def takeIf (p : Char → Bool) : List Char → Option Char × List Char
  | [] => (none, [])
  | c :: cs => if p c then (some c, cs) else (none, c :: cs)

/-- Whether a character is a suffix of decimal literals. -/
def isSuffix (c : Char) : Bool := c ∈ ['L', 'l', 'F', 'f', 'D', 'd']

/-- Whether a character extends a word. -/
def isWordChar (c : Char) : Bool := Text.isAlphanumeric c || c == '_' || c == '$'

/-- A decimal literal at the front of a text: its spelling, its value, and the text after it. -/
def scanDecimal (cs : List Char) : Except ParseFault (List Char × Value × List Char) :=
  let (n, rest) := DecimalLiteral.scan cs
  let (suffix, rest) := takeIf isSuffix rest
  let literal := n.spelling ++ suffix.toList
  match takeIf isWordChar rest with
  | (some c, _) => .error (badNumber (literal ++ [c]) "unexpected character after number")
  | (none, rest) =>
    match n.value suffix with
    | .ok v => .ok (literal, v, rest)
    | .error reason => .error (badNumber literal reason)

/-- Whether a character is a hexadecimal digit. -/
def isHexDigit (c : Char) : Bool :=
  c.isDigit || ('a' ≤ c && c ≤ 'f') || ('A' ≤ c && c ≤ 'F')

/-- Whether a character may not stand directly after a hexadecimal literal. -/
def endsHex (c : Char) : Bool := Text.isAlphanumeric c || c == '_' || c == '.'

/-- A hexadecimal literal at the front of a text, after its mark. -/
def scanHex (mark cs : List Char) : Except ParseFault (List Char × Value × List Char) :=
  let digits := cs.takeWhile isHexDigit
  let (suffix, rest) := takeIf (fun c => c == 'L' || c == 'l') (cs.dropWhile isHexDigit)
  let literal := mark ++ digits ++ suffix.toList
  if digits.isEmpty then .error (badNumber literal "missing hex digits")
  else
    match takeIf endsHex rest with
    | (some _, _) => .error (badNumber literal "unexpected character after hex number")
    | (none, rest) =>
      match ofHexDigits suffix.isSome digits with
      | .ok v => .ok (literal, v, rest)
      | .error reason => .error (badNumber literal reason)

/-- The number literal at the front of a text that starts with a digit: its spelling, its value,
and the text after it. -/
def scanNumber : List Char → Except ParseFault (List Char × Value × List Char)
  | '0' :: x :: cs =>
    if x = 'x' ∨ x = 'X' then scanHex ['0', x] cs else scanDecimal ('0' :: x :: cs)
  | cs => scanDecimal cs

end Stencil
