/-!
# Values of numerals

A numeral denotes the double-precision number nearest to what its digits say, a tie going to the
even neighbour.  Numbers are kept exactly, as a mantissa times a power of two, so two numerals
denote the same number exactly when their values are equal.
-/

set_option autoImplicit false

namespace ModuleInterop.Syntax

/-- A double-precision number that is not negative: `mantissa * 2 ^ exponent`, in the one form with
a mantissa of 53 bits (fewer at the least exponent, and zero as `0 * 2 ^ 0`), or infinity. -/
inductive Double where
  | finite (mantissa : Nat) (exponent : Int)
  | infinite
  deriving DecidableEq, Repr, Inhabited

namespace Double

/-- The number zero. -/
def zero : Double := .finite 0 0

/-- Whether a number is zero. -/
def isZero : Double → Bool
  | .finite m _ => m == 0
  | .infinite => false

/-- `a / b` rounded to the nearest integer, a tie to the even one. -/
def roundQuotient (a b : Nat) : Nat :=
  let q := a / b
  let r := a % b
  if 2 * r < b || (2 * r == b && q % 2 == 0) then q else q + 1

/-- The exponent of the last of the 53 bits that `a / b` is rounded to, before the limits. -/
def quotientExponent (a b : Nat) : Int :=
  let e : Int := (a.log2 : Int) - (b.log2 : Int) - 52
  -- The estimate is exact or one too great.
  let small :=
    if 0 ≤ e then a < b * Nat.pow 2 (e.toNat + 52)
    else a * Nat.pow 2 (-e).toNat < b * Nat.pow 2 52
  if small then e - 1 else e

/-- The double-precision number nearest to `a / b`. -/
def ofQuotient (a b : Nat) : Double :=
  if a = 0 then zero
  else
    let e := max (quotientExponent a b) (-1074)
    let m :=
      if 0 ≤ e then roundQuotient a (b * Nat.pow 2 e.toNat)
      else roundQuotient (a * Nat.pow 2 (-e).toNat) b
    let (m, e) := if m = Nat.pow 2 53 then (Nat.pow 2 52, e + 1) else (m, e)
    if m = 0 then zero else if 971 < e then .infinite else .finite m e

/-- The number written by an integer numeral. -/
def ofNat (n : Nat) : Double := ofQuotient n 1

/-- The number `digits * 10 ^ exponent`; `width` bounds the number of digits.  Exponents that decide
the value alone (zero, or infinity) are answered without computing the power. -/
def ofDecimal (digits width : Nat) (exponent : Int) : Double :=
  if digits = 0 then zero
  else if 400 < exponent then .infinite
  else if exponent + width < -400 then zero
  else if 0 ≤ exponent then ofQuotient (digits * Nat.pow 10 exponent.toNat) 1
  else ofQuotient digits (Nat.pow 10 (-exponent).toNat)

end Double

/-- The value of a digit in a base up to sixteen. -/
def digitValue (c : Char) : Nat :=
  if c.isDigit then c.toNat - 48 else if c.isUpper then c.toNat - 55 else c.toNat - 87

/-- The number written by digits in a base. -/
def readDigits (base : Nat) (digits : List Char) : Nat :=
  digits.foldl (fun n c => n * base + digitValue c) 0

end ModuleInterop.Syntax
