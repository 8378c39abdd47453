/-!
# Blanks and comments

What stands between two tokens: blanks, line ends and comments.  Skipping it tells whether a line
ends there, also inside a comment, and where a comment begins that is never closed.
-/

set_option autoImplicit false

namespace ModuleInterop.Syntax

/-- Whether a character ends a line. -/
def isLineEnd (c : Char) : Bool :=
  c == '\n' || c == '\r' || c.toNat == 0x2028 || c.toNat == 0x2029

/-- Whether a character separates tokens without ending a line. -/
def isSpace (c : Char) : Bool :=
  let n := c.toNat
  n == 0x20 || n == 9 || n == 0xB || n == 0xC || n == 0xA0 || n == 0xFEFF || n == 0x85 ||
    n == 0x1680 || (0x2000 ≤ n && n ≤ 0x200B) || n == 0x202F || n == 0x205F || n == 0x3000

/-- Where skipping stands: between comments, in a comment that ends with the line, or in one that
began at a position and has a closing mark. -/
inductive TriviaMode where
  | blank
  | line
  | block (start : Nat)

/-- What is left of a text after the trivia at its head. -/
structure Skipped where
  rest : List Char
  pos : Nat
  newline : Bool
  /-- Where the comment begins that the text ends in. -/
  openComment : Option Nat

/-- Skips blanks and comments; `pos` is the position of the text and `newline` whether a line has
ended already. -/
def skipTrivia : TriviaMode → Bool → Nat → List Char → Skipped
  | .blank, newline, pos, [] => ⟨[], pos, newline, none⟩
  | .line, newline, pos, [] => ⟨[], pos, newline, none⟩
  | .block start, newline, pos, [] => ⟨[], pos, newline, some start⟩
  | .blank, newline, pos, '/' :: '/' :: text => skipTrivia .line newline (pos + 2) text
  | .blank, newline, pos, '/' :: '*' :: text => skipTrivia (.block pos) newline (pos + 2) text
  | .blank, newline, pos, c :: text =>
    if isLineEnd c then skipTrivia .blank true (pos + c.utf8Size) text
    else if isSpace c then skipTrivia .blank newline (pos + c.utf8Size) text
    else ⟨c :: text, pos, newline, none⟩
  | .line, newline, pos, c :: text =>
    if isLineEnd c then skipTrivia .blank true (pos + c.utf8Size) text
    else skipTrivia .line newline (pos + c.utf8Size) text
  | .block _, newline, pos, '*' :: '/' :: text => skipTrivia .blank newline (pos + 2) text
  | .block start, newline, pos, c :: text =>
    skipTrivia (.block start) (newline || isLineEnd c) (pos + c.utf8Size) text

end ModuleInterop.Syntax
