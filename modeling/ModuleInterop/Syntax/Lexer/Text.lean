import ModuleInterop.Text.Quoted
import ModuleInterop.Syntax.Numeral
import ModuleInterop.Syntax.Lexer.Name
import ModuleInterop.Syntax.Lexer.Trivia

/-!
# The text of strings and templates

Reading the inside of a string or of a piece of a template, with its escapes.  A value is a text of
scalar values; a surrogate that an escape gives without its partner is kept as the replacement
character followed by four hexadecimal digits, and then a replacement character that the text itself
holds is written in the same way.
-/

set_option autoImplicit false

namespace ModuleInterop.Syntax

open ModuleInterop.Text

/-- What the text ends with: a quote, or for a template a backtick or a value. -/
inductive TextStyle where
  | quoted (quote : Char)
  | template
  deriving DecidableEq

/-- One part of a value: a scalar value, or a surrogate given by an escape of four digits
(`fixed`) or of any number of them. -/
inductive TextUnit where
  | scalar (c : Char)
  | surrogate (value : Nat) (fixed : Bool)

/-- Where reading stands: between escapes, or inside one. -/
inductive TextMode where
  | plain
  | slash
  | lineFeed
  | mark
  | digits (left value : Nat)
  | braced (digits value : Nat)
  | octal (left value : Nat)

/-- What has been read: the value in reverse, the positions of the invalid escapes in reverse, the
mode, and where the escape began that is being read. -/
structure TextState where
  units : List TextUnit
  invalid : List Nat
  mode : TextMode
  escapeAt : Nat

/-- What one character leads to. -/
inductive TextStep where
  | next (state : TextState)
  /-- The character closes the text. -/
  | close (state : TextState)
  /-- The character and the one after it begin a value. -/
  | value (state : TextState)
  /-- The text must not go on here. -/
  | broken (state : TextState)

namespace TextState

/-- One more character of the value. -/
def push (state : TextState) (c : Char) : TextState :=
  { state with units := .scalar c :: state.units, mode := .plain }

/-- One more code point of the value, which may be a surrogate. -/
def pushCode (state : TextState) (value : Nat) (fixed : Bool) : TextState :=
  if value.isValidChar then state.push (Char.ofNat value)
  else { state with units := .surrogate value fixed :: state.units, mode := .plain }

/-- The escape that is being read is invalid. -/
def reject (state : TextState) : TextState :=
  { state with invalid := state.escapeAt :: state.invalid, mode := .plain }

/-- A character outside escapes. -/
def plainStep (style : TextStyle) (pos : Nat) (next : Option Char) (state : TextState) (c : Char) :
    TextStep :=
  if c = '\\' then .next { state with mode := .slash, escapeAt := pos }
  else
    match style with
    | .quoted quote =>
      if c = quote then .close state
      else if c = '\n' || c = '\r' then .broken state
      else .next (state.push c)
    | .template =>
      if c.toNat = 0x60 then .close state
      else if c = '$' && next == some '{' then .value state
      else if c = '\r' then
        if next == some '\n' then .next { state with mode := .plain } else .next (state.push '\n')
      else .next (state.push c)

/-- The character after a backslash. -/
def slashStep (style : TextStyle) (next : Option Char) (state : TextState) (c : Char) : TextState :=
  if c = 'n' then state.push '\n'
  else if c = 't' then state.push '\t'
  else if c = 'r' then state.push '\r'
  else if c = 'b' then state.push (Char.ofNat 8)
  else if c = 'v' then state.push (Char.ofNat 11)
  else if c = 'f' then state.push (Char.ofNat 12)
  else if c = 'x' then { state with mode := .digits 2 0 }
  else if c = 'u' then { state with mode := .mark }
  else if c = '\r' && next == some '\n' then { state with mode := .lineFeed }
  else if isLineEnd c then { state with mode := .plain }
  else if c.isDigit then
    if c = '0' && !(next.map Char.isDigit == some true) then state.push (Char.ofNat 0)
    else if style == .template then state.reject
    else if c < '4' then { state with mode := .octal 2 (digitValue c) }
    else if c < '8' then { state with mode := .octal 1 (digitValue c) }
    else state.push c
  else state.push c

/-- What a character leads to. -/
def step (style : TextStyle) (pos : Nat) (next : Option Char) (state : TextState) (c : Char) :
    TextStep :=
  match state.mode with
  | .plain => plainStep style pos next state c
  | .slash => .next (slashStep style next state c)
  | .lineFeed => .next { state with mode := .plain }
  | .mark =>
    if c = '{' then .next { state with mode := .braced 0 0 }
    else if isHexDigit c then .next { state with mode := .digits 3 (digitValue c) }
    else plainStep style pos next state.reject c
  | .digits left value =>
    if isHexDigit c then
      let value := value * 16 + digitValue c
      if left = 1 then .next (state.pushCode value true)
      else .next { state with mode := .digits (left - 1) value }
    else plainStep style pos next state.reject c
  | .braced digits value =>
    if c = '}' then
      if digits = 0 || 0x110000 ≤ value then .next state.reject
      else .next (state.pushCode value false)
    else if isHexDigit c && value < 0x110000 then
      .next { state with mode := .braced (digits + 1) (value * 16 + digitValue c) }
    else plainStep style pos next state.reject c
  | .octal left value =>
    if c.isDigit && c < '8' then
      let value := value * 8 + digitValue c
      if left = 1 then .next (state.push (Char.ofNat value))
      else .next { state with mode := .octal (left - 1) value }
    else plainStep style pos next (state.push (Char.ofNat value)) c

end TextState

/-- How the text ended. -/
inductive TextEnd where
  | closed | value | broken
  deriving DecidableEq

/-- A text that has been read, with what follows it. -/
structure TextScan where
  units : List TextUnit
  invalid : List Nat
  ending : TextEnd
  rest : List Char
  pos : Nat

/-- Reads a text up to its end. -/
def scanText (style : TextStyle) : TextState → Nat → List Char → TextScan
  | state, pos, [] => ⟨state.units.reverse, state.invalid.reverse, .broken, [], pos⟩
  | state, pos, c :: text =>
    match state.step style pos text.head? c with
    | .next state => scanText style state (pos + c.utf8Size) text
    | .close state => ⟨state.units.reverse, state.invalid.reverse, .closed, text, pos + 1⟩
    | .value state => ⟨state.units.reverse, state.invalid.reverse, .value, text.drop 1, pos + 2⟩
    | .broken state => ⟨state.units.reverse, state.invalid.reverse, .broken, c :: text, pos⟩

/-- Joins each pair of surrogates that two neighbouring escapes of four digits give. -/
def joinSurrogates : List TextUnit → List TextUnit
  | .surrogate a true :: .surrogate b true :: units =>
    if 0xD800 ≤ a && a < 0xDC00 && 0xDC00 ≤ b && b < 0xE000 then
      .scalar (Char.ofNat (0x10000 + (a - 0xD800) * 0x400 + (b - 0xDC00))) :: joinSurrogates units
    else .surrogate a true :: joinSurrogates (.surrogate b true :: units)
  | unit :: units => unit :: joinSurrogates units
  | [] => []

/-- Whether a part of a value is a surrogate. -/
def TextUnit.isSurrogate : TextUnit → Bool
  | .surrogate _ _ => true
  | .scalar _ => false

/-- The value of a text. -/
def unitsValue (units : List TextUnit) : String :=
  let units := joinSurrogates units
  let lone := units.any TextUnit.isSurrogate
  let replacement := Char.ofNat 0xFFFD
  String.ofList <| units.flatMap fun
    | .scalar c => if lone && c = replacement then replacement :: hex4 0xFFFD else [c]
    | .surrogate value _ => replacement :: hex4 value

/-- Reading begins between escapes. -/
def TextState.start : TextState := ⟨[], [], .plain, 0⟩

end ModuleInterop.Syntax
