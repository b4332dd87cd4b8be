import Stencil.Expr.Operator
import Stencil.Location

/-!
# Errors

Everything that can go wrong, by cause. The wording of a cause is fixed by one function per type
(`ParseFault.message`, `MethodFault.message`, `Fault.message`, `ConfigFault.message`,
`IoFault.message`), and `Error.message` puts the location or the kind of error in front.

* A **parse error** is found while a template is compiled; it names the row it was found at.
* A **template error** is raised while a template is rendered, by the construct at its location.
  Among their causes is the one that is no failure: a write to a map waits for itself if the text of
  its key is read from the map (`Fault.waits`).
* **Missing templates**, **configuration errors** and **I/O errors** have no location.
-/

namespace Stencil

/-! ### Parse errors -/

/-- What is wrong with a template text. -/
inductive ParseFault where
  | unexpectedToken (expected found : String)
  /-- The text ends too early; the argument says what was expected. -/
  | unexpectedEnd (expected : String)
  | unterminated (what : String)
  | unknownDirective (name : String)
  | illegalMapKey (key : String)
  | invalidNumber (literal reason : String)
  | invalidCharacter (c : Char)
  | missing (description : String)
  | other (message : String)
deriving DecidableEq, Repr

/-- The note on what was expected at the end of a text. -/
def ParseFault.expectedNote (expected : String) : String := " (expected '" ++ expected ++ "')"

/-- The wording of a parse fault. -/
def ParseFault.message : ParseFault → String
  | unexpectedToken expected found => "Expected " ++ expected ++ ", found " ++ found
  | unexpectedEnd expected => "Unexpected end of input" ++ expectedNote expected
  | unterminated what => "Unterminated " ++ what
  | unknownDirective name => "Directive not defined: #" ++ name
  | illegalMapKey key =>
    "Illegal map key '" ++ key ++ "', a map key must be an identifier or a constant"
  | invalidNumber literal reason => "Malformed number '" ++ literal ++ "': " ++ reason
  | invalidCharacter c => "Unexpected character '" ++ String.singleton c ++ "'"
  | missing description => "Expected " ++ description
  | other message => message

/-- A parse fault and the row it was found at. -/
structure ParseError where
  fault : ParseFault
  location : Location
deriving DecidableEq, Repr

/-! ### Template errors -/

/-- Why a method of a value failed. -/
inductive MethodFault where
  | arguments (name : String) (expected given : Nat)
  | sliceArguments (name : String) (given : Nat)
  | notString (name typeName : String)
  | notIndex (name text : String)
  | characterOutOfRange (index : Nat)
  | sliceOutOfBounds (start stop length : Nat)
  | indexOutOfBounds (index size : Nat)
  | unavailable (name : String)
  /-- A failure of a host operation, in its own words. -/
  | host (message : String)
  /-- The method waits for a lock that it holds itself. -/
  | selfLocked
deriving DecidableEq, Repr

/-- The wording of a method fault. -/
def MethodFault.message : MethodFault → String
  | arguments name expected given =>
    name ++ "() takes " ++ Decimal.ofNat expected ++ " argument(s), " ++ Decimal.ofNat given ++
      " given"
  | sliceArguments name given =>
    name ++ "() takes 1 or 2 arguments, " ++ Decimal.ofNat given ++ " given"
  | notString name typeName => name ++ "() expects a string, found " ++ typeName
  | notIndex name text => name ++ "() expects a non-negative integer, found " ++ text
  | characterOutOfRange index => "index " ++ Decimal.ofNat index ++ " out of range"
  | sliceOutOfBounds start stop length =>
    "range [" ++ Decimal.ofNat start ++ ", " ++ Decimal.ofNat stop ++
      ") out of bounds for length " ++ Decimal.ofNat length
  | indexOutOfBounds index size =>
    "index " ++ Decimal.ofNat index ++ " out of bounds for size " ++ Decimal.ofNat size
  | unavailable name => name ++ "() is not available in templates"
  | host message => message
  | selfLocked => "waits for itself"

/-- Why a construct failed while a template was rendered. -/
inductive Fault where
  | divisionByZero
  | unsupportedOperands (op : ArithOp) (left right : String)
  | incomparable (op : CompareOp) (left right : String)
  | rangeBounds (left right : String)
  | signedOperand (sign : Sign) (typeName : String)
  | stepOperand (step : Step) (name typeName : String)
  | noStaticField (space name : String)
  | noStaticMethod (space name : String)
  | noSharedMethod (name : String)
  | callFailed (callee : String) (cause : MethodFault)
  | methodOfNull (name : String)
  | noMethod (typeName name : String)
  | fieldOfNull (name : String)
  | noField (typeName name : String)
  | indexOfNull (key : String)
  | notIndexable (typeName : String)
  | notAnIndex (key : String)
  | indexOutOfBounds (index size : Nat)
  | characterOutOfBounds (index length : Nat)
  | assignToNull (name : String)
  | assignToScalar (name typeName : String)
  | calleeNotText (typeName : String)
  | undefinedFunction (name : String)
  | wrongArgumentCount (name : String) (defined : Location) (expected found : Nat)
  /-- The target of a `#render` could not be read. -/
  | renderFailed (cause : String)
  /-- A failure of a custom directive, in its own words. -/
  | directive (message : String)
  /-- The construct waits for a lock that it holds itself. -/
  | selfLocked
deriving DecidableEq, Repr

/-- Whether a construct does not fail but waits for itself, for ever. The wording of such a fault is
never read, since no render gets past it. -/
def Fault.waits : Fault → Bool
  | selfLocked | callFailed _ .selfLocked => true
  | _ => false

/-- The wording of a fault. -/
def Fault.message : Fault → String
  | divisionByZero => "Division by zero"
  | unsupportedOperands op left right =>
    "Unsupported operand types for " ++ op.symbol ++ ": " ++ left ++ " and " ++ right
  | incomparable op left right =>
    "Can not compare " ++ left ++ " with " ++ right ++ " using '" ++ op.symbol ++ "'"
  | rangeBounds left right =>
    "Range bounds must be integers, found " ++ left ++ " and " ++ right
  | signedOperand sign typeName =>
    "Unary '" ++ sign.symbol ++ "' requires a number, found " ++ typeName
  | stepOperand step name typeName =>
    "'" ++ step.symbol ++ "' requires a number, but '" ++ name ++ "' is " ++ typeName
  | noStaticField space name => "Static field not found: " ++ space ++ "::" ++ name
  | noStaticMethod space name => "Static method not found: " ++ space ++ "::" ++ name ++ "()"
  | noSharedMethod name => "Shared method not found: " ++ name ++ "()"
  | callFailed callee cause => "Error calling " ++ callee ++ "(): " ++ cause.message
  | methodOfNull name => "Can not call method '" ++ name ++ "' on null"
  | noMethod typeName name => "Method not found: " ++ typeName ++ "." ++ name ++ "()"
  | fieldOfNull name => "Can not read field '" ++ name ++ "' of null"
  | noField typeName name => "Field not found: " ++ typeName ++ "." ++ name
  | indexOfNull key => "Can not read index [" ++ key ++ "] of null"
  | notIndexable typeName => "Can not index a " ++ typeName
  | notAnIndex key => "Index must be a non-negative integer, found " ++ key
  | indexOutOfBounds index size =>
    "Index out of bounds: " ++ Decimal.ofNat index ++ ", size: " ++ Decimal.ofNat size
  | characterOutOfBounds index length =>
    "Index out of bounds: " ++ Decimal.ofNat index ++ ", length: " ++ Decimal.ofNat length
  | assignToNull name => "Can not assign to an index of '" ++ name ++ "', it is null"
  | assignToScalar name typeName =>
    "Can not assign to an index of '" ++ name ++ "', a " ++ typeName ++
      " is neither a list nor a map"
  | calleeNotText typeName => "#call expects a function name, found " ++ typeName
  | undefinedFunction name => "Template function not defined: " ++ name
  | wrongArgumentCount name defined expected found =>
    "Wrong number of arguments to function " ++ name ++ " (defined " ++ defined.text ++
      "): expected " ++ Decimal.ofNat expected ++ ", found " ++ Decimal.ofNat found
  | renderFailed cause => "#render failed: " ++ cause
  | directive message => message
  | selfLocked => "waits for itself"

/-! ### Errors without a location -/

/-- Why a step of the configuration was refused. -/
inductive ConfigFault where
  | sharedObjectExists (name : String)
  | sharedMethodExists (name : String)
  | staticNamespaceExists (name : String)
  | directiveExists (name : String)
  | invalidDirectiveName (name : String)
  | sharedFunctionExists (name : String)
  | engineExists (name : String)
  | mainEngineKept (name : String)
  | engineNotFound (name : String)
  /-- A refusal of the host, in its own words. -/
  | host (message : String)
deriving DecidableEq, Repr

/-- The wording of a configuration fault. -/
def ConfigFault.message : ConfigFault → String
  | sharedObjectExists name => "Shared object already exists: " ++ name
  | sharedMethodExists name => "Shared method already exists: " ++ name
  | staticNamespaceExists name => "Static namespace already exists: " ++ name
  | directiveExists name => "Directive already exists: #" ++ name
  | invalidDirectiveName name => "Invalid directive name: " ++ name
  | sharedFunctionExists name => "Shared function already defined: " ++ name
  | engineExists name => "Engine already exists: " ++ name
  | mainEngineKept name => "Cannot remove the main engine: " ++ name
  | engineNotFound name => "Engine not found: " ++ name
  | host message => message

/-- Why reading or writing outside the library failed. -/
inductive IoFault where
  /-- A sink refused a piece. -/
  | sinkFull
  /-- A text sink refused a piece. -/
  | formatter
  /-- A file is not there. -/
  | notFound
deriving DecidableEq, Repr

/-- The wording of an I/O fault. -/
def IoFault.message : IoFault → String
  | sinkFull => "sink is full"
  | formatter => "formatter error"
  | notFound => "No such file or directory (os error 2)"

/-! ### All errors -/

/-- An error of the library. -/
inductive Error where
  | missingTemplate (name : String)
  | template (fault : Fault) (location : Location)
  | config (fault : ConfigFault)
  | parse (error : ParseError)
  | io (fault : IoFault)
deriving DecidableEq, Repr

/-- Whether an evaluation that ends in the error does not end in truth, but waits for itself. -/
def Error.waits : Error → Bool
  | template fault _ => fault.waits
  | missingTemplate _ | config _ | parse _ | io _ => false

/-- The full text of an error. -/
def Error.message : Error → String
  | missingTemplate name => "Template not found: " ++ name
  | template fault location => "Template error " ++ location.text ++ ": " ++ fault.message
  | config fault => "Configuration error: " ++ fault.message
  | parse error => "Parse error " ++ error.location.text ++ ": " ++ error.fault.message
  | io fault => "I/O error: " ++ fault.message

end Stencil
