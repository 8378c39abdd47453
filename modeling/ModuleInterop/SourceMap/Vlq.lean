/-!
# Variable-length numbers in base 64

An integer is written as digits of five bits, the lowest first, each digit but the last marked by a
sixth bit.  The lowest bit of all holds the sign.
-/

set_option autoImplicit false

namespace ModuleInterop.SourceMap

/-- The digits of base 64. -/
def base64Alphabet : List Char :=
  "ABCDEFGHIJKLMNOPQRSTUVWXYZabcdefghijklmnopqrstuvwxyz0123456789+/".toList

/-- The digit of base 64 for a number below 64. -/
def base64Digit (n : Nat) : Char := base64Alphabet.getD n 'A'

/-- The digits of a number, five bits each, all but the last marked. -/
def vlqDigits (n : Nat) : List Nat :=
  if n < 32 then [n] else (n % 32 + 32) :: vlqDigits (n / 32)
termination_by n
decreasing_by omega

/-- An integer as a number with its sign in the lowest bit. -/
def foldSign (value : Int) : Nat :=
  if value < 0 then 2 * value.natAbs + 1 else 2 * value.natAbs

/-- The text of an integer. -/
def vlq (value : Int) : List Char := (vlqDigits (foldSign value)).map base64Digit

end ModuleInterop.SourceMap
