import ModuleInterop.Text.Identifier
import ModuleInterop.Syntax.Numeral
import ModuleInterop.Syntax.Problem

/-!
# Names

A name is a beginning character followed by continuing ones, each written as itself or as an escape
of its code point.
-/

set_option autoImplicit false

namespace ModuleInterop.Syntax

open ModuleInterop.Text

/-- Whether a character is a hexadecimal digit. -/
def isHexDigit (c : Char) : Bool :=
  c.isDigit || ('a' ≤ c && c ≤ 'f') || ('A' ≤ c && c ≤ 'F')

/-- Where reading a name stands: between characters, or inside an escape that began at `start`. -/
inductive NameMode where
  | plain
  | slash (start : Nat)
  | mark (start : Nat)
  | digits (start left value : Nat)
  | braced (start value : Nat)

/-- A name that has been read, with the text after it. -/
structure NameScan where
  name : List Char
  escaped : Bool
  rest : List Char
  pos : Nat
  problem : Option Problem

/-- Whether a character may stand next in a name, given what has been read in reverse. -/
def fitsName (read : List Char) (c : Char) : Bool :=
  if read.isEmpty then isIdentifierStart c else isIdentifierPart c

/-- The name with one more character given by its code point, if that is allowed. -/
def pushCodePoint? (read : List Char) (value : Nat) : Option (List Char) :=
  if value.isValidChar && fitsName read (Char.ofNat value) then some (Char.ofNat value :: read)
  else none

/-- Reads a name; `read` holds its characters so far in reverse. -/
def scanName : NameMode → List Char → Bool → Nat → List Char → NameScan
  | .plain, read, escaped, pos, c :: text =>
    if c = '\\' then scanName (.slash pos) read true (pos + 1) text
    else if fitsName read c then scanName .plain (c :: read) escaped (pos + c.utf8Size) text
    else ⟨read.reverse, escaped, c :: text, pos, none⟩
  | .slash start, read, escaped, pos, c :: text =>
    if c = 'u' then scanName (.mark start) read escaped (pos + 1) text
    else ⟨read.reverse, escaped, c :: text, pos, some ⟨.invalidNameEscape, start⟩⟩
  | .mark start, read, escaped, pos, c :: text =>
    if c = '{' then scanName (.braced start 0) read escaped (pos + 1) text
    else if isHexDigit c then
      scanName (.digits start 3 (digitValue c)) read escaped (pos + 1) text
    else ⟨read.reverse, escaped, c :: text, pos, some ⟨.invalidNameEscape, start⟩⟩
  | .digits start left value, read, escaped, pos, c :: text =>
    if isHexDigit c then
      let value := value * 16 + digitValue c
      if left = 1 then
        match pushCodePoint? read value with
        | some read => scanName .plain read escaped (pos + 1) text
        | none => ⟨read.reverse, escaped, text, pos + 1, some ⟨.invalidNameEscape, start⟩⟩
      else scanName (.digits start (left - 1) value) read escaped (pos + 1) text
    else ⟨read.reverse, escaped, c :: text, pos, some ⟨.invalidNameEscape, start⟩⟩
  | .braced start value, read, escaped, pos, c :: text =>
    if c = '}' then
      match pushCodePoint? read value with
      | some read => scanName .plain read escaped (pos + 1) text
      | none => ⟨read.reverse, escaped, text, pos + 1, some ⟨.invalidNameEscape, start⟩⟩
    else if isHexDigit c && value < 0x110000 then
      scanName (.braced start (value * 16 + digitValue c)) read escaped (pos + 1) text
    else ⟨read.reverse, escaped, c :: text, pos, some ⟨.invalidNameEscape, start⟩⟩
  | .plain, read, escaped, pos, [] => ⟨read.reverse, escaped, [], pos, none⟩
  | .slash start, read, escaped, pos, [] =>
    ⟨read.reverse, escaped, [], pos, some ⟨.invalidNameEscape, start⟩⟩
  | .mark start, read, escaped, pos, [] =>
    ⟨read.reverse, escaped, [], pos, some ⟨.invalidNameEscape, start⟩⟩
  | .digits start _ _, read, escaped, pos, [] =>
    ⟨read.reverse, escaped, [], pos, some ⟨.invalidNameEscape, start⟩⟩
  | .braced start _, read, escaped, pos, [] =>
    ⟨read.reverse, escaped, [], pos, some ⟨.invalidNameEscape, start⟩⟩

end ModuleInterop.Syntax
