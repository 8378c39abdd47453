import ModuleInterop.Number.Shortest
import ModuleInterop.Text.Shown

/-!
# Problems of a JSON text

Why a text cannot be read as the value that is wanted, and where.
-/

set_option autoImplicit false

namespace ModuleInterop.Json

open ModuleInterop.Syntax ModuleInterop.Text

/-- What stands where another kind of value is wanted. -/
inductive Found where
  | null
  | boolean (value : Bool)
  | integer (value : Int)
  | decimal (negative : Bool) (value : Double)
  | string (value : String)
  | sequence
  | map
  deriving DecidableEq, Repr

/-- How a message names what was found. -/
def Found.text : Found → String
  | .null => "null"
  | .boolean value => if value then "boolean `true`" else "boolean `false`"
  | .integer value => "integer `" ++ toString value ++ "`"
  | .decimal negative value =>
    "floating point `" ++ (if negative then "-" else "") ++
      String.ofList (Number.decimalText value) ++ "`"
  | .string value => "string " ++ shown value
  | .sequence => "sequence"
  | .map => "map"

/-- Why a text cannot be read. -/
inductive Cause where
  | endInValue
  | endInList
  | endInObject
  | endInString
  | expectedColon
  | expectedListEnd
  | expectedObjectEnd
  | expectedWord
  | expectedValue
  | invalidEscape
  | invalidNumber
  | numberRange
  | controlCharacter
  | keyNotString
  | loneSurrogate
  | surrogateEnd
  | trailingComma
  | trailingCharacters
  | wrongType (found : Found) (expected : String)
  | duplicateField (name : String)
  deriving DecidableEq, Repr

/-- The wording of a cause. -/
def Cause.message : Cause → String
  | .endInValue => "EOF while parsing a value"
  | .endInList => "EOF while parsing a list"
  | .endInObject => "EOF while parsing an object"
  | .endInString => "EOF while parsing a string"
  | .expectedColon => "expected `:`"
  | .expectedListEnd => "expected `,` or `]`"
  | .expectedObjectEnd => "expected `,` or `\x7d`"
  | .expectedWord => "expected ident"
  | .expectedValue => "expected value"
  | .invalidEscape => "invalid escape"
  | .invalidNumber => "invalid number"
  | .numberRange => "number out of range"
  | .controlCharacter => "control character (\\u0000-\\u001F) found while parsing a string"
  | .keyNotString => "key must be a string"
  | .loneSurrogate => "lone leading surrogate in hex escape"
  | .surrogateEnd => "unexpected end of hex escape"
  | .trailingComma => "trailing comma"
  | .trailingCharacters => "trailing characters"
  | .wrongType found expected => "invalid type: " ++ found.text ++ ", expected " ++ expected
  | .duplicateField name => "duplicate field `" ++ name ++ "`"

/-- A cause and the number of bytes before the place it is reported at. -/
structure Fault where
  cause : Cause
  offset : Nat
  deriving DecidableEq, Repr

/-- A cause and the line (from one) and column (from zero, in bytes) it is reported at. -/
structure Problem where
  cause : Cause
  line : Nat
  column : Nat
  deriving DecidableEq, Repr

/-- The line and column after so many bytes of a text, counted on from a line and column. -/
def placeAfter : Nat → Nat × Nat → List Char → Nat × Nat
  | 0, place, _ => place
  | n + 1, place, [] => (place.1, place.2 + (n + 1))
  | n + 1, place, c :: text =>
    if c = '\n' then placeAfter n (place.1 + 1, 0) text
    else if n + 1 < c.utf8Size then (place.1, place.2 + (n + 1))
    else placeAfter (n + 1 - c.utf8Size) (place.1, place.2 + c.utf8Size) text

/-- The problem of a text that a fault is. -/
def Fault.locate (fault : Fault) (text : List Char) : Problem :=
  let place := placeAfter fault.offset (1, 0) text
  ⟨fault.cause, place.1, place.2⟩

/-- The wording of a problem. -/
def Problem.message (problem : Problem) : String :=
  problem.cause.message ++ " at line " ++ toString problem.line ++ " column " ++
    toString problem.column

end ModuleInterop.Json
