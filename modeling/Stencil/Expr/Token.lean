import Stencil.Error
import Stencil.Value.Basic

/-!
# Tokens of expressions

The text between the parentheses of a directive is a sequence of tokens: names, the words
`true`, `false` and `null`, number and string literals, and punctuation. A token remembers the
row it starts in.

* `Lexeme.describe` is what error messages call a token.
* `Lexeme.continues` and `Lexeme.startsOperand` are the two questions that the grammar asks about
  a token without reading on.
-/

namespace Stencil

/-- Operators and punctuation marks. -/
inductive Punct where
  | plus | minus | times | divide | modulo
  | increment | decrement
  | assign | eq | ne | lt | le | gt | ge
  | not | and | or
  | question | coalesce | colon | doubleColon
  | dot | range | comma | semicolon
  | lparen | rparen | lbracket | rbracket | lbrace | rbrace
deriving DecidableEq, Repr

/-- The characters of a mark. -/
def Punct.spelling : Punct → String
  | plus => "+"
  | minus => "-"
  | times => "*"
  | divide => "/"
  | modulo => "%"
  | increment => "++"
  | decrement => "--"
  | assign => "="
  | eq => "=="
  | ne => "!="
  | lt => "<"
  | le => "<="
  | gt => ">"
  | ge => ">="
  | not => "!"
  | and => "&&"
  | or => "||"
  | question => "?"
  | coalesce => "??"
  | colon => ":"
  | doubleColon => "::"
  | dot => "."
  | range => ".."
  | comma => ","
  | semicolon => ";"
  | lparen => "("
  | rparen => ")"
  | lbracket => "["
  | rbracket => "]"
  | lbrace => "\x7b"
  | rbrace => "\x7d"

/-- What error messages call a mark. -/
def Punct.describe (p : Punct) : String := "'" ++ p.spelling ++ "'"

/-- The words with a fixed meaning. -/
inductive Keyword where
  | true
  | false
  | null
deriving DecidableEq, Repr

/-- The spelling of a keyword. -/
def Keyword.spelling : Keyword → String
  | true => "true"
  | false => "false"
  | null => "null"

/-- The value of a keyword. -/
def Keyword.value : Keyword → Value
  | true => .bool .true
  | false => .bool .false
  | null => .null

/-- A token without its place. -/
inductive Lexeme where
  | name (word : String)
  | keyword (k : Keyword)
  /-- A string literal, with its escapes resolved. -/
  | text (content : String)
  /-- A number literal, as it is spelled and what it means. -/
  | number (spelling : String) (value : Value)
  | punct (mark : Punct)

namespace Lexeme

/-- What error messages call a token. -/
def describe : Lexeme → String
  | name word => "'" ++ word ++ "'"
  | number spelling _ => "'" ++ spelling ++ "'"
  | text content => "\"" ++ content ++ "\""
  | keyword k => "'" ++ k.spelling ++ "'"
  | punct mark => mark.describe

/-- The characters of a token; for a string its content. -/
def spelling : Lexeme → String
  | name word => word
  | number spelling _ => spelling
  | text content => content
  | keyword k => k.spelling
  | punct mark => mark.spelling

/-- Whether a token after a complete operand extends it into a larger expression. -/
def continues : Lexeme → Bool
  | punct .plus | punct .minus | punct .times | punct .divide | punct .modulo
  | punct .increment | punct .decrement
  | punct .assign | punct .eq | punct .ne | punct .lt | punct .le | punct .gt | punct .ge
  | punct .and | punct .or | punct .question | punct .coalesce
  | punct .doubleColon | punct .dot | punct .range | punct .lparen | punct .lbracket => true
  | _ => false

/-- Whether a token can begin the right side of `??`. -/
def startsOperand : Lexeme → Bool
  | name _ | keyword _ | text _ | number .. => true
  | punct .lparen | punct .lbracket | punct .lbrace
  | punct .not | punct .increment | punct .decrement => true
  | _ => false

end Lexeme

/-- A token and the row it starts in. -/
structure Token where
  lexeme : Lexeme
  row : Nat

end Stencil
