import ModuleInterop.Text.Identifier
import ModuleInterop.Syntax.Token
import ModuleInterop.Syntax.Problem

/-!
# Numerals

Decimal numerals with fraction and exponent, binary, octal and hexadecimal ones, the old octal form
(`017`), single underscores between digits, and the mark `n` of a big integer.  No digit and no
beginning character of a name may follow a numeral.
-/

set_option autoImplicit false

namespace ModuleInterop.Syntax

open ModuleInterop.Text

/-- Digits that have been read, with the text after them. -/
structure DigitScan where
  digits : List Char
  rest : List Char
  pos : Nat
  problem : Option Problem

/-- Reads digits with single underscores between them. -/
def scanDigits (isDigit : Char → Bool) : Nat → List Char → DigitScan
  | pos, '_' :: c :: text =>
    if isDigit c then
      let scan := scanDigits isDigit (pos + 2) text
      { scan with digits := c :: scan.digits }
    else ⟨[], c :: text, pos + 1, some ⟨.invalidCharacter c, pos + 1⟩⟩
  | pos, ['_'] => ⟨[], [], pos + 1, some ⟨.unexpectedEnd, pos + 1⟩⟩
  | pos, c :: text =>
    if isDigit c then
      let scan := scanDigits isDigit (pos + 1) text
      { scan with digits := c :: scan.digits }
    else ⟨[], c :: text, pos, none⟩
  | pos, [] => ⟨[], [], pos, none⟩

/-- Reads digits of which there must be one, and which do not begin with an underscore. -/
def scanSomeDigits (isDigit : Char → Bool) : Nat → List Char → DigitScan
  | pos, c :: text =>
    if isDigit c then
      let scan := scanDigits isDigit (pos + 1) text
      { scan with digits := c :: scan.digits }
    else ⟨[], c :: text, pos, some ⟨.invalidCharacter c, pos⟩⟩
  | pos, [] => ⟨[], [], pos, some ⟨.unexpectedEnd, pos⟩⟩

/-- A numeral that has been read, with the text after it. -/
structure NumberScan where
  kind : TokenKind
  rest : List Char
  pos : Nat
  problems : List Problem

/-- Takes names off the head of a text that follows a numeral. -/
def skipNameStarts : Nat → List Char → List Char × Nat
  | pos, c :: text =>
    if isIdentifierStart c then skipNameStarts (pos + c.utf8Size) text else (c :: text, pos)
  | pos, [] => ([], pos)

/-- The numeral, unless a digit or the beginning of a name follows it. -/
def endNumber (kind : TokenKind) (problems : List Problem) (pos : Nat) : List Char → NumberScan
  | c :: text =>
    if c.isDigit || isIdentifierStart c then
      let (rest, stop) := skipNameStarts (pos + c.utf8Size) text
      ⟨.invalid, rest, stop, problems ++ [⟨.numberEnd, pos⟩]⟩
    else ⟨if problems.isEmpty then kind else .invalid, c :: text, pos, problems⟩
  | [] => ⟨if problems.isEmpty then kind else .invalid, [], pos, problems⟩

/-- The number with the digits before and after the point and the exponent. -/
def decimalValue (whole fraction : List Char) (exponent : Int) : Double :=
  Double.ofDecimal (readDigits 10 (whole ++ fraction)) (whole.length + fraction.length)
    (exponent - fraction.length)

/-- The end of a decimal numeral: an exponent, if there is one. -/
def scanExponent (described : String) (whole fraction : List Char) (problems : List Problem)
    (pos : Nat) (text : List Char) : NumberScan :=
  let finish (negative : Bool) (pos : Nat) (text : List Char) : NumberScan :=
    let scan := scanSomeDigits Char.isDigit pos text
    -- An exponent beyond any that matters is cut to one that decides the value alike.
    let size : Int := min (readDigits 10 scan.digits) (10000 + whole.length + fraction.length)
    let value := decimalValue whole fraction (if negative then -size else size)
    endNumber (.literal (.number value) "float") (problems ++ scan.problem.toList) scan.pos
      scan.rest
  match text with
  | 'e' :: '-' :: text => finish true (pos + 2) text
  | 'E' :: '-' :: text => finish true (pos + 2) text
  | 'e' :: '+' :: text => finish false (pos + 2) text
  | 'E' :: '+' :: text => finish false (pos + 2) text
  | 'e' :: text => finish false (pos + 1) text
  | 'E' :: text => finish false (pos + 1) text
  | text =>
    endNumber (.literal (.number (decimalValue whole fraction 0)) described) problems pos text

/-- A decimal numeral from its point on, where digits stand before the point. -/
def scanFraction (whole : List Char) (problems : List Problem) (pos : Nat) (text : List Char) :
    NumberScan :=
  match text with
  | c :: _ =>
    if c.isDigit then
      let scan := scanDigits Char.isDigit pos text
      scanExponent "float" whole scan.digits (problems ++ scan.problem.toList) scan.pos scan.rest
    else scanExponent "float" whole [] problems pos text
  | [] => scanExponent "float" whole [] problems pos text

/-- A decimal numeral after the digits before its point. -/
def scanAfterDigits (whole : List Char) (problems : List Problem) (pos : Nat) :
    List Char → NumberScan
  | '.' :: text => scanFraction whole problems (pos + 1) text
  | 'n' :: text => endNumber (.literal .bigint "bigint") problems (pos + 1) text
  | text => scanExponent "decimal" whole [] problems pos text

/-- A numeral in a base that a letter gives. -/
def scanBased (base : Nat) (described : String) (isDigit : Char → Bool) (pos : Nat)
    (text : List Char) : NumberScan :=
  let scan := scanSomeDigits isDigit pos text
  match scan.problem with
  | some problem => ⟨.invalid, scan.rest, scan.pos, [problem]⟩
  | none =>
    match scan.rest with
    | 'n' :: text => endNumber (.literal .bigint "bigint") [] (scan.pos + 1) text
    | text =>
      endNumber (.literal (.number (Double.ofNat (readDigits base scan.digits))) described) []
        scan.pos text

/-- A numeral that begins with a zero and goes on with a digit: octal, or decimal if one of its
digits is an eight or a nine. -/
def scanOldOctal (pos : Nat) (text : List Char) : NumberScan :=
  let digits := text.takeWhile Char.isDigit
  let rest := text.dropWhile Char.isDigit
  let pos := pos + digits.length
  if digits.all (fun c => c < '8') then
    endNumber (.literal (.number (Double.ofNat (readDigits 8 digits))) "octal") [] pos rest
  else
    match rest with
    | '.' :: text => scanFraction digits [] (pos + 1) text
    | 'e' :: _ => scanExponent "decimal" digits [] [] pos rest
    | _ =>
      endNumber (.literal (.number (Double.ofNat (readDigits 10 digits))) "decimal") [] pos rest

/-- Reads a numeral at the head of a text that begins with a digit, or with a point and a digit. -/
def scanNumber (pos : Nat) : List Char → NumberScan
  | '.' :: text =>
    let scan := scanSomeDigits Char.isDigit (pos + 1) text
    scanExponent "float" [] scan.digits scan.problem.toList scan.pos scan.rest
  | '0' :: c :: text =>
    if c = 'b' || c = 'B' then
      scanBased 2 "binary" (fun d => d == '0' || d == '1') (pos + 2) text
    else if c = 'o' || c = 'O' then
      scanBased 8 "octal" (fun d => d.isDigit && d < '8') (pos + 2) text
    else if c = 'x' || c = 'X' then scanBased 16 "hexadecimal" (fun d =>
      d.isDigit || ('a' ≤ d && d ≤ 'f') || ('A' ≤ d && d ≤ 'F')) (pos + 2) text
    else if c.isDigit then scanOldOctal (pos + 1) (c :: text)
    else scanAfterDigits ['0'] [] (pos + 1) (c :: text)
  | text =>
    let scan := scanDigits Char.isDigit pos text
    scanAfterDigits scan.digits scan.problem.toList scan.pos scan.rest

end ModuleInterop.Syntax
