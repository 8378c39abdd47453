import ModuleInterop.Syntax.Numeral

/-!
# Shortest decimals

The decimal with the fewest digits that a double-precision number can be read back from, and among
those the nearest one.  Every decimal between the two midpoints to the neighbouring numbers reads
back, the midpoints themselves if the mantissa is even.
-/

set_option autoImplicit false

namespace ModuleInterop.Number

open ModuleInterop.Syntax

/-- A number as a quotient. -/
structure Quotient where
  num : Nat
  den : Nat

/-- A mantissa times a power of two as a quotient. -/
def Quotient.ofBinary (mantissa : Nat) (exponent : Int) : Quotient :=
  if 0 ≤ exponent then ⟨mantissa * Nat.pow 2 exponent.toNat, 1⟩
  else ⟨mantissa, Nat.pow 2 (-exponent).toNat⟩

/-- An integer times a power of ten as a quotient. -/
def Quotient.ofDecimal (digits : Nat) (exponent : Int) : Quotient :=
  if 0 ≤ exponent then ⟨digits * Nat.pow 10 exponent.toNat, 1⟩
  else ⟨digits, Nat.pow 10 (-exponent).toNat⟩

/-- Whether one quotient is less than another one. -/
def Quotient.below (a b : Quotient) : Bool := a.num * b.den < b.num * a.den

/-- The distance of two quotients. -/
def Quotient.distance (a b : Quotient) : Quotient :=
  let x := a.num * b.den
  let y := b.num * a.den
  ⟨(x - y) + (y - x), a.den * b.den⟩

/-- Whether a decimal is read back as a number, given by its mantissa and exponent.  Half a unit
above it is one midpoint; the one below is nearer where the mantissa is the least of its kind. -/
def readsBack (mantissa : Nat) (exponent : Int) (decimal : Quotient) : Bool :=
  let low :=
    if mantissa = Nat.pow 2 52 ∧ -1074 < exponent then
      Quotient.ofBinary (4 * mantissa - 1) (exponent - 2)
    else Quotient.ofBinary (2 * mantissa - 1) (exponent - 1)
  let high := Quotient.ofBinary (2 * mantissa + 1) (exponent - 1)
  if mantissa % 2 = 0 then !decimal.below low && !high.below decimal
  else low.below decimal && decimal.below high

/-- The exponent of the decimal grid on which a quotient has at most so many digits, and not fewer
if it can have more. -/
def gridExponent (value : Quotient) (digits : Nat) : Int :=
  let estimate := ((Nat.toDigits 10 value.num).length : Int) - (Nat.toDigits 10 value.den).length
  let leading := Quotient.ofDecimal 1 estimate
  (if value.below leading then estimate else estimate + 1) - digits

/-- The nearer of the two points of a grid around a number that are read back as it. -/
def gridPoint? (mantissa : Nat) (exponent : Int) (grid : Int) : Option Nat :=
  let value := Quotient.ofBinary mantissa exponent
  let unit := Quotient.ofDecimal 1 grid
  let low := value.num * unit.den / (value.den * unit.num)
  let lowDecimal := Quotient.ofDecimal low grid
  let highDecimal := Quotient.ofDecimal (low + 1) grid
  let lowReads := 0 < low && readsBack mantissa exponent lowDecimal
  let highReads := readsBack mantissa exponent highDecimal
  if lowReads && highReads then
    if (value.distance highDecimal).below (value.distance lowDecimal) then some (low + 1)
    else some low
  else if lowReads then some low
  else if highReads then some (low + 1)
  else none

/-- A decimal without zeros at its end, taking off no more than `limit` of them. -/
def withoutZeros : Nat → Nat → Int → Nat × Int
  | 0, point, grid => (point, grid)
  | limit + 1, point, grid =>
    if point % 10 = 0 then withoutZeros limit (point / 10) (grid + 1) else (point, grid)

/-- The digits and the exponent of the shortest decimal with at least `digits` digits, trying no
more than `limit` lengths. -/
def shortestFrom (mantissa : Nat) (exponent : Int) : Nat → Nat → Nat × Int
  | 0, _ => (0, 0)
  | limit + 1, digits =>
    let grid := gridExponent (Quotient.ofBinary mantissa exponent) digits
    match gridPoint? mantissa exponent grid with
    | some point => withoutZeros 17 point grid
    | none => shortestFrom mantissa exponent limit (digits + 1)

/-- The text of digits with a point after the first `whole` of them. -/
def withPoint (digits : List Char) (whole : Nat) : List Char :=
  digits.take whole ++ '.' :: digits.drop whole

/-- The text of a number that is not negative: positional where the point falls no more than sixteen
places after the first digit and no more than four before it, and with an exponent otherwise.  A
positional text always has a point. -/
def decimalText : Double → List Char
  | .infinite => "inf".toList
  | .finite 0 _ => "0.0".toList
  | .finite (m + 1) e =>
    let (point, grid) := shortestFrom (m + 1) e 17 1
    let digits := Nat.toDigits 10 point
    let place : Int := digits.length + grid
    if 0 ≤ grid ∧ place ≤ 16 then digits ++ List.replicate grid.toNat '0' ++ ".0".toList
    else if 0 < place ∧ place ≤ 16 then withPoint digits place.toNat
    else if -5 < place ∧ place ≤ 0 then
      "0.".toList ++ List.replicate (-place).toNat '0' ++ digits
    else
      (if digits.length = 1 then digits else withPoint digits 1) ++
        'e' :: (toString (place - 1)).toList

/-- The product of two numbers, rounded to the nearest one. -/
def mul : Double → Double → Double
  | .finite m e, .finite n f =>
    let q := Quotient.ofBinary (m * n) (e + f)
    Double.ofQuotient q.num q.den
  | _, _ => .infinite

/-- The quotient of two numbers, the second one not zero, rounded to the nearest one. -/
def div : Double → Double → Double
  | .finite m e, .finite n f =>
    let q := Quotient.ofBinary m (e - f)
    Double.ofQuotient q.num (q.den * n)
  | _, _ => .infinite

end ModuleInterop.Number
