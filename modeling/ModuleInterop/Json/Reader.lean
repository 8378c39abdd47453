import ModuleInterop.Json.Problem
import ModuleInterop.Text.Offset

/-!
# Reading JSON

Readers for the parts of a JSON text: blanks, words, strings, numbers, lists, objects, and values
that are passed over.  A reader takes a cursor and moves it on.  Faults are reported either at the
cursor, or one byte further on when they are about the character that comes next.
-/

set_option autoImplicit false

namespace ModuleInterop.Json

open ModuleInterop.Syntax ModuleInterop.Text

/-- The text that has not been read, and the number of bytes before it. -/
structure Cursor where
  rest : List Char
  offset : Nat

/-- Reads a value from a text. -/
abbrev Reader (α : Type) := StateT Cursor (Except Fault) α

namespace Reader

/-- Reports a fault some bytes after the cursor. -/
def failAfter {α : Type} (cause : Cause) (bytes : Nat) : Reader α := fun cursor =>
  .error ⟨cause, cursor.offset + bytes⟩

/-- Reports a fault at the cursor. -/
def failHere {α : Type} (cause : Cause) : Reader α := failAfter cause 0

/-- Reports a fault about the next character, or about the end of the text. -/
def failNext {α : Type} (cause : Cause) : Reader α := fun cursor =>
  .error ⟨cause, if cursor.rest.isEmpty then cursor.offset else cursor.offset + 1⟩

/-- The next character. -/
def peek : Reader (Option Char) := fun cursor => .ok (cursor.rest.head?, cursor)

/-- Passes over the next character. -/
def bump : Reader Unit := fun cursor =>
  match cursor.rest with
  | [] => .ok ((), cursor)
  | c :: rest => .ok ((), ⟨rest, cursor.offset + c.utf8Size⟩)

/-- The number of characters that have not been read; it bounds all that can still be repeated. -/
def remaining : Reader Nat := fun cursor => .ok (cursor.rest.length, cursor)

/-- Reads the longest stretch of characters of a class. -/
def takeWhile (p : Char → Bool) : Reader (List Char) := fun cursor =>
  let taken := cursor.rest.takeWhile p
  .ok (taken, ⟨cursor.rest.dropWhile p, cursor.offset + byteLength taken⟩)

/-- Whether a character may stand between values. -/
def isSpace (c : Char) : Bool := c == ' ' || c == '\n' || c == '\t' || c == '\r'

/-- Passes over blanks; the answer is the character after them. -/
def skipSpace : Reader (Option Char) := do
  let _ ← takeWhile isSpace
  peek

/-- Reads the characters of a word. -/
def word : List Char → Reader Unit
  | [] => pure ()
  | c :: others => do
    match ← peek with
    | none => failHere .endInValue
    | some d =>
      if d = c then
        bump
        word others
      else failAfter .expectedWord 1

/-! ## Strings -/

/-- The value of a hexadecimal digit. -/
def hexValue? (c : Char) : Option Nat :=
  if c.isDigit then some (c.toNat - 48)
  else if 'a' ≤ c ∧ c ≤ 'f' then some (c.toNat - 87)
  else if 'A' ≤ c ∧ c ≤ 'F' then some (c.toNat - 55)
  else none

/-- Reads four hexadecimal digits. -/
def hexEscape : Reader Nat := fun cursor =>
  if byteLength cursor.rest < 4 then
    .error ⟨.endInString, cursor.offset + byteLength cursor.rest⟩
  else
    match (cursor.rest.take 4).mapM hexValue? with
    | some digits =>
      .ok (digits.foldl (fun n d => n * 16 + d) 0, ⟨cursor.rest.drop 4, cursor.offset + 4⟩)
    | none => .error ⟨.invalidEscape, cursor.offset + 4⟩

/-- Whether a number is the first half of a surrogate pair. -/
def isHighSurrogate (n : Nat) : Bool := 0xD800 ≤ n && n ≤ 0xDBFF

/-- Whether a number is the second half of a surrogate pair. -/
def isLowSurrogate (n : Nat) : Bool := 0xDC00 ≤ n && n ≤ 0xDFFF

/-- Reads one character of an escape; the end of the text and other characters are faults. -/
def escapeChar (c : Char) : Reader Unit := do
  match ← peek with
  | none => failHere .endInString
  | some d => if d = c then bump else failAfter .surrogateEnd 1

/-- Reads an escape given by numbers, after its first letter: one number, or a surrogate pair. -/
def unicodeEscape : Reader Char := do
  let first ← hexEscape
  if isLowSurrogate first then failHere .loneSurrogate
  else if !isHighSurrogate first then return Char.ofNat first
  else
    escapeChar '\\'
    escapeChar 'u'
    let second ← hexEscape
    if isLowSurrogate second then
      return Char.ofNat (0x10000 + (first - 0xD800) * 0x400 + (second - 0xDC00))
    else failHere .loneSurrogate

/-- The character that an escape of one letter stands for. -/
def simpleEscape? (c : Char) : Option Char :=
  match c with
  | '"' => some '"'
  | '\\' => some '\\'
  | '/' => some '/'
  | 'b' => some (Char.ofNat 8)
  | 'f' => some (Char.ofNat 12)
  | 'n' => some '\n'
  | 'r' => some '\r'
  | 't' => some '\t'
  | _ => none

/-- Reads an escape after its backslash. -/
def escape : Reader Char := do
  match ← peek with
  | none => failHere .endInString
  | some 'u' =>
    bump
    unicodeEscape
  | some c =>
    match simpleEscape? c with
    | some d =>
      bump
      return d
    | none => failAfter .invalidEscape 1

/-- Reads a string of no more than so many characters, after its opening quote. -/
def stringRest : Nat → Reader (List Char)
  | 0 => failHere .endInString
  | limit + 1 => do
    match ← peek with
    | none => failHere .endInString
    | some '"' =>
      bump
      return []
    | some '\\' =>
      bump
      let c ← escape
      return c :: (← stringRest limit)
    | some c =>
      if c.toNat < 0x20 then failAfter .controlCharacter 1
      else
        bump
        return c :: (← stringRest limit)

/-- Reads a string from its opening quote on. -/
def quoted : Reader String := do
  bump
  return String.ofList (← stringRest ((← remaining) + 1))

/-- Passes over a string of no more than so many characters, after its opening quote.  Numbers in
escapes need not be characters. -/
def skipStringRest : Nat → Reader Unit
  | 0 => failHere .endInString
  | limit + 1 => do
    match ← peek with
    | none => failHere .endInString
    | some '"' => bump
    | some '\\' =>
      bump
      match ← peek with
      | none => failHere .endInString
      | some 'u' =>
        bump
        let _ ← hexEscape
        skipStringRest limit
      | some c =>
        if (simpleEscape? c).isSome then
          bump
          skipStringRest limit
        else failAfter .invalidEscape 1
    | some c =>
      if c.toNat < 0x20 then failHere .controlCharacter
      else
        bump
        skipStringRest limit

/-- Passes over a string from its opening quote on. -/
def skipQuoted : Reader Unit := do
  bump
  skipStringRest ((← remaining) + 1)

/-! ## Numbers -/

/-- The greatest integer that is kept exactly. -/
def integerLimit : Nat := Nat.pow 2 64 - 1

/-- Appends digits to an integer as long as it can be kept exactly; the answer has the digits that
are left over. -/
def appendDigits : Nat → List Char → Nat × List Char
  | n, [] => (n, [])
  | n, d :: digits =>
    let next := n * 10 + digitValue d
    if integerLimit < next then (n, d :: digits) else appendDigits next digits

/-- The number `significand * 10 ^ exponent`, the integer and the power rounded before they are
multiplied or divided; the answer is `none` if it is too great. -/
def scale : Nat → Double → Int → Option Double
  | 0, _, _ => some Double.zero
  | steps + 1, value, exponent =>
    if exponent.natAbs ≤ 308 then
      let power := Double.ofDecimal 1 1 exponent.natAbs
      if 0 ≤ exponent then
        match Number.mul value power with
        | .infinite => none
        | product => some product
      else some (Number.div value power)
    else if value.isZero then some value
    else if 0 ≤ exponent then none
    else scale steps (Number.div value (Double.ofDecimal 1 1 308)) (exponent + 308)

/-- The value of a number with a fraction or an exponent. -/
def scaled (negative : Bool) (significand : Nat) (exponent : Int) : Reader Found :=
  match scale 4 (Double.ofNat significand) exponent with
  | some value => return .decimal negative value
  | none => failHere .numberRange

/-- The greatest exponent that is counted. -/
def exponentLimit : Nat := Nat.pow 2 31 - 1

/-- Reads the digits of an exponent after the first one; the answer is `none` if it is greater than
what is counted, and then the digit that makes it so is the last one read. -/
def exponentDigits : Nat → Nat → Reader (Option Nat)
  | 0, n => return some n
  | limit + 1, n => do
    match ← peek with
    | none => return some n
    | some d =>
      if d.isDigit then
        bump
        let next := n * 10 + digitValue d
        if exponentLimit < next then return none else exponentDigits limit next
      else return some n

/-- Reads an exponent and its sign, and gives the value of the number. -/
def exponentPart (negative : Bool) (significand : Nat) (exponent : Int) : Reader Found := do
  bump
  let sign ← peek
  if sign == some '+' || sign == some '-' then bump
  match ← peek with
  | none => failHere .endInValue
  | some d =>
    if !d.isDigit then failAfter .invalidNumber 1
    else
      bump
      match ← exponentDigits (← remaining) (digitValue d) with
      | some n =>
        scaled negative significand (if sign == some '-' then exponent - n else exponent + n)
      | none =>
        if significand != 0 && sign != some '-' then failHere .numberRange
        else
          let _ ← takeWhile Char.isDigit
          return .decimal negative Double.zero

/-- Reads what can follow the digits of a fraction. -/
def afterFraction (negative : Bool) (significand : Nat) (exponent : Int) : Reader Found := do
  match ← peek with
  | some 'e' | some 'E' => exponentPart negative significand exponent
  | _ => scaled negative significand exponent

/-- The fault of a fraction without digits. -/
def missingDigits {α : Type} : Reader α := do
  match ← peek with
  | some _ => failNext .invalidNumber
  | none => failNext .endInValue

/-- Reads a fraction from its point on, and gives the value of the number. -/
def fractionPart (negative : Bool) (significand : Nat) (exponent : Int) : Reader Found := do
  bump
  let digits ← takeWhile Char.isDigit
  if digits.isEmpty then missingDigits
  else
    let (whole, left) := appendDigits significand digits
    afterFraction negative whole (exponent - (digits.length - left.length : Nat))

/-- The value of a number without fraction and exponent.  Zero with a sign and integers that are too
small are no integers. -/
def wholeNumber (negative : Bool) (n : Nat) : Found :=
  if !negative then .integer n
  else if n = 0 ∨ Nat.pow 2 63 < n then .decimal true (Double.ofNat n)
  else .integer (-n)

/-- Reads what can follow the digits of an integer.  An integer that was cut has an exponent. -/
def afterInteger (negative : Bool) (significand cut : Nat) : Reader Found := do
  match ← peek with
  | some '.' => fractionPart negative significand cut
  | some 'e' | some 'E' => exponentPart negative significand cut
  | _ =>
    if cut = 0 then return wholeNumber negative significand
    else scaled negative significand cut

/-- Reads a number after its sign. -/
def number (negative : Bool) : Reader Found := do
  match ← peek with
  | none => failHere .endInValue
  | some '0' =>
    bump
    match ← peek with
    | some d => if d.isDigit then failNext .invalidNumber else afterInteger negative 0 0
    | none => afterInteger negative 0 0
  | some d =>
    if d.isDigit then
      let digits ← takeWhile Char.isDigit
      let (significand, left) := appendDigits 0 digits
      afterInteger negative significand left.length
    else failAfter .invalidNumber 1

/-- Passes over an exponent. -/
def skipExponent : Reader Unit := do
  bump
  let sign ← peek
  if sign == some '+' || sign == some '-' then bump
  match ← peek with
  | none => failHere .invalidNumber
  | some d =>
    if d.isDigit then
      let _ ← takeWhile Char.isDigit
    else failAfter .invalidNumber 1

/-- Passes over what can follow the digits of a number. -/
def skipFraction : Reader Unit := do
  match ← peek with
  | some '.' =>
    bump
    let digits ← takeWhile Char.isDigit
    if digits.isEmpty then failNext .invalidNumber
    match ← peek with
    | some 'e' | some 'E' => skipExponent
    | _ => pure ()
  | some 'e' | some 'E' => skipExponent
  | _ => pure ()

/-- Passes over a number after its sign. -/
def skipNumber : Reader Unit := do
  match ← peek with
  | none => failHere .invalidNumber
  | some '0' =>
    bump
    match ← peek with
    | some d => if d.isDigit then failNext .invalidNumber else skipFraction
    | none => pure ()
  | some d =>
    if d.isDigit then
      let _ ← takeWhile Char.isDigit
      skipFraction
    else failAfter .invalidNumber 1

/-! ## Values of another kind -/

/-- Reports that what comes next is not what is wanted.  A value of another kind is read, so that
the fault is reported after it; a list or an object is not. -/
def wrongType {α : Type} (expected : String) : Reader α := do
  match ← peek with
  | some 'n' =>
    word "null".toList
    failHere (.wrongType .null expected)
  | some 't' =>
    word "true".toList
    failHere (.wrongType (.boolean true) expected)
  | some 'f' =>
    word "false".toList
    failHere (.wrongType (.boolean false) expected)
  | some '-' =>
    bump
    failHere (.wrongType (← number true) expected)
  | some '"' =>
    let text ← quoted
    failHere (.wrongType (.string text) expected)
  | some '[' => failHere (.wrongType .sequence expected)
  | some '\x7b' => failHere (.wrongType .map expected)
  | some c =>
    if c.isDigit then failHere (.wrongType (← number false) expected)
    else failNext .expectedValue
  | none => failNext .expectedValue

/-- Passes over blanks to a value. -/
def toValue : Reader (Option Char) := do
  match ← skipSpace with
  | none => failNext .endInValue
  | next => return next

/-! ## Values that are passed over -/

/-- Passes over the key of an object and the colon after it. -/
def skipKey : Reader Unit := do
  match ← skipSpace with
  | some '"' =>
    skipQuoted
    match ← skipSpace with
    | some ':' => bump
    | some _ => failNext .expectedColon
    | none => failNext .endInObject
  | some _ => failNext .keyNotString
  | none => failNext .endInObject

/-- The fault of a list or object that does not go on. -/
def badNext {α : Type} (isList : Bool) : Reader α :=
  failNext (if isList then .expectedListEnd else .expectedObjectEnd)

/-- The fault of a list or object that the text ends in. -/
def badEnd {α : Type} (isList : Bool) : Reader α :=
  failNext (if isList then .endInList else .endInObject)

mutual

/-- Passes over a value that nests no more deeply than a limit. -/
def skipValue : Nat → Reader Unit
  | 0 => failNext .endInValue
  | limit + 1 => do
    match ← toValue with
    | some 'n' => word "null".toList
    | some 't' => word "true".toList
    | some 'f' => word "false".toList
    | some '-' =>
      bump
      skipNumber
    | some '"' => skipQuoted
    | some '[' =>
      bump
      match ← skipSpace with
      | some ']' => bump
      | some _ => skipItems limit true
      | none => badEnd true
    | some '\x7b' =>
      bump
      match ← skipSpace with
      | some '\x7d' => bump
      | some _ => skipItems limit false
      | none => badEnd false
    | some c => if c.isDigit then skipNumber else failNext .expectedValue
    | none => failNext .endInValue

/-- Passes over the elements of a list or the entries of an object, and its end. -/
def skipItems : Nat → Bool → Reader Unit
  | 0, isList => badEnd isList
  | limit + 1, isList => do
    if !isList then skipKey
    skipValue limit
    match ← skipSpace with
    | some ',' =>
      bump
      skipItems limit isList
    | some c =>
      if c = (if isList then ']' else '\x7d') then bump else badNext isList
    | none => badEnd isList

end

/-- Passes over a value. -/
def skip : Reader Unit := do
  skipValue (2 * (← remaining) + 2)

/-! ## Wanted values -/

/-- Reads a truth value. -/
def boolean : Reader Bool := do
  match ← toValue with
  | some 't' =>
    word "true".toList
    return true
  | some 'f' =>
    word "false".toList
    return false
  | _ => wrongType "a boolean"

/-- Reads a string. -/
def string : Reader String := do
  match ← toValue with
  | some '"' => quoted
  | _ => wrongType "a string"

/-- Whether a list goes on, read up to its next element or to the bracket that ends it. -/
def hasElement (first : Bool) : Reader Bool := do
  match ← skipSpace with
  | none => failNext .endInList
  | some ']' => return false
  | some c =>
    if first then return true
    else if c = ',' then
      bump
      match ← skipSpace with
      | some ']' => failNext .trailingComma
      | some _ => return true
      | none => failNext .endInValue
    else failNext .expectedListEnd

/-- Reads the elements of a list, no more than so many. -/
def elements {α : Type} (element : Reader α) : Nat → Bool → Reader (List α)
  | 0, _ => return []
  | limit + 1, first => do
    if ← hasElement first then
      let head ← element
      return head :: (← elements element limit false)
    else return []

/-- Reads the end of a list. -/
def listEnd : Reader Unit := do
  match ← skipSpace with
  | some ']' => bump
  | some ',' =>
    bump
    match ← skipSpace with
    | some ']' => failNext .trailingComma
    | _ => failNext .trailingCharacters
  | some _ => failNext .trailingCharacters
  | none => failNext .endInList

/-- Reads a list. -/
def list {α : Type} (element : Reader α) : Reader (List α) := do
  match ← toValue with
  | some '[' =>
    bump
    let found ← elements element (← remaining) true
    listEnd
    return found
  | _ => wrongType "a sequence"

/-- Whether an object goes on, read up to its next key or to the brace that ends it. -/
def hasKey (first : Bool) : Reader Bool := do
  match ← skipSpace with
  | none => failNext .endInObject
  | some '\x7d' => return false
  | some c =>
    if first then
      if c = '"' then return true else failNext .keyNotString
    else if c = ',' then
      bump
      match ← skipSpace with
      | some '"' => return true
      | some '\x7d' => failNext .trailingComma
      | some _ => failNext .keyNotString
      | none => failNext .endInValue
    else failNext .expectedObjectEnd

/-- Reads the colon after a key. -/
def colon : Reader Unit := do
  match ← skipSpace with
  | some ':' => bump
  | some _ => failNext .expectedColon
  | none => failNext .endInObject

/-- Reads the entries of an object, no more than so many, each after its key has been read; what an
entry gives is carried on to the next one. -/
def entries {α : Type} (entry : String → α → Reader α) : Nat → Bool → α → Reader α
  | 0, _, value => return value
  | limit + 1, first, value => do
    if ← hasKey first then
      let key ← quoted
      let next ← entry key value
      entries entry limit false next
    else return value

/-- Reads the end of an object. -/
def objectEnd : Reader Unit := do
  match ← skipSpace with
  | some '\x7d' => bump
  | some ',' => failNext .trailingComma
  | some _ => failNext .trailingCharacters
  | none => failNext .endInObject

/-- Reads an object after its opening brace. -/
def objectRest {α : Type} (entry : String → α → Reader α) (start : α) : Reader α := do
  bump
  let value ← entries entry (← remaining) true start
  objectEnd
  return value

/-- Reads an object as its entries, each key once: a later entry takes the place of an earlier one
with the same key. -/
def map {α : Type} (element : Reader α) : Reader (List (String × α)) := do
  match ← toValue with
  | some '\x7b' =>
    objectRest (fun key found => do
      colon
      let value ← element
      return (found.filter fun e => e.1 != key) ++ [(key, value)]) []
  | _ => wrongType "a map"

/-- Reads a whole text. -/
def run {α : Type} (reader : Reader α) (text : List Char) : Except Problem α :=
  let whole : Reader α := do
    let value ← reader
    match ← skipSpace with
    | none => return value
    | some _ => failNext .trailingCharacters
  match whole ⟨text, 0⟩ with
  | .ok (value, _) => .ok value
  | .error fault => .error (fault.locate text)

end Reader

end ModuleInterop.Json
