import ModuleInterop.Text.Letter

/-!
# Characters of an identifier

Which characters may begin an identifier and which may continue it: the Unicode classes `ID_Start`
and `ID_Continue` with `$` and `_`, and with the two joiners inside a name.
-/

set_option autoImplicit false

namespace ModuleInterop.Text

/-- Beginning characters that are not letters. -/
def identifierStartExtra : List (Nat × Nat) :=
  [(0x1885, 0x1886), (0x2118, 0x2118), (0x212E, 0x212E), (0x309B, 0x309C)]

/-- Continuing characters that are neither beginning characters nor of an extending category. -/
def identifierContinueExtra : List (Nat × Nat) :=
  [(0x00B7, 0x00B7), (0x0387, 0x0387), (0x1369, 0x1371), (0x19DA, 0x19DA), (0x200C, 0x200D),
   (0x30FB, 0x30FB), (0xFF65, 0xFF65)]

/-- Whether an ASCII character may begin an identifier. -/
def isAsciiIdentifierStart (c : Char) : Bool := c.isAlpha || c == '_' || c == '$'

/-- Whether an ASCII character may continue an identifier. -/
def isAsciiIdentifierPart (c : Char) : Bool := isAsciiIdentifierStart c || c.isDigit

/-- Whether a character may begin an identifier. -/
def isIdentifierStart (c : Char) : Bool :=
  if c.toNat < 0x80 then isAsciiIdentifierStart c
  else (isLetter c && c.toNat != 0x2E2F) || inRanges identifierStartExtra c.toNat

/-- Whether a character may continue an identifier. -/
def isIdentifierPart (c : Char) : Bool :=
  if c.toNat < 0x80 then isAsciiIdentifierPart c
  else isIdentifierStart c || isExtending c || inRanges identifierContinueExtra c.toNat

end ModuleInterop.Text
