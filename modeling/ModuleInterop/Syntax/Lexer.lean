import ModuleInterop.Text.Word
import ModuleInterop.Syntax.Lexer.Trivia
import ModuleInterop.Syntax.Lexer.Name
import ModuleInterop.Syntax.Lexer.Number
import ModuleInterop.Syntax.Lexer.Text

/-!
# Reading tokens

The next token of a text.  Two kinds of token begin like another one and are read only where the
grammar asks for them: a regular expression begins like a division, and the piece of a template
after a value begins like a closing brace.
-/

set_option autoImplicit false

namespace ModuleInterop.Syntax

open ModuleInterop.Text

/-- A token that has been read, with the text after it and the problems found in it. -/
structure Lexed where
  token : Token
  rest : List Char
  pos : Nat
  problems : List Problem

/-- The longest punctuator at the head of a text.  A question mark and a point are two tokens before
a digit. -/
def Punct.read? (text : List Char) : Option Punct :=
  match text with
  | '?' :: '.' :: c :: _ => if c.isDigit then some .question else some .optionalDot
  | _ => Punct.all.find? fun p => (dropLeading? p.text.toList text).isSome

/-- The token that begins a text at `pos`, the trivia before it having been skipped. -/
def lexToken (newline : Bool) (pos : Nat) (text : List Char) : Lexed :=
  let token (kind : TokenKind) (stop : Nat) (escaped : Bool) : Token :=
    ⟨kind, ⟨pos, stop⟩, newline, escaped⟩
  let textual (scan : TextScan) (kind : TokenKind) (problems : List Problem) : Lexed :=
    if scan.ending = .broken then
      ⟨token .invalid scan.pos false, scan.rest, scan.pos,
        problems ++ [⟨.unterminatedString, pos⟩]⟩
    else ⟨token kind scan.pos false, scan.rest, scan.pos, problems⟩
  match text with
  | [] => ⟨token .endOfInput pos false, [], pos, []⟩
  | c :: after =>
    if isIdentifierStart c || c = '\\' then
      let scan := scanName .plain [] false pos text
      match scan.problem with
      | some problem => ⟨token .invalid scan.pos true, scan.rest, scan.pos, [problem]⟩
      | none =>
        let name := String.ofList scan.name
        ⟨token (.word name (Keyword.ofText? name)) scan.pos scan.escaped, scan.rest, scan.pos, []⟩
    else if c.isDigit || (c = '.' && after.head?.map Char.isDigit == some true) then
      let scan := scanNumber pos text
      ⟨token scan.kind scan.pos false, scan.rest, scan.pos, scan.problems⟩
    else if c = '"' || c = '\'' then
      let scan := scanText (.quoted c) .start (pos + 1) after
      textual scan (.literal (.string (unitsValue scan.units)) "string")
        (scan.invalid.map fun offset => ⟨.invalidEscape, offset⟩)
    else if c.toNat = 0x60 then
      let scan := scanText .template .start (pos + 1) after
      let value := if scan.invalid.isEmpty then some (unitsValue scan.units) else none
      textual scan (.template (if scan.ending = .value then .head else .whole) value) []
    else if c = '#' then
      let scan := scanName .plain [] false (pos + 1) after
      match scan.problem, scan.name with
      | some problem, _ => ⟨token .invalid scan.pos true, scan.rest, scan.pos, [problem]⟩
      | none, [] =>
        let problem := match after with
          | d :: _ => ⟨.invalidCharacter d, pos + 1⟩
          | [] => ⟨.unexpectedEnd, pos + 1⟩
        ⟨token .invalid (pos + 1) false, after, pos + 1, [problem]⟩
      | none, name =>
        ⟨token (.privateName (String.ofList name)) scan.pos scan.escaped, scan.rest, scan.pos, []⟩
    else
      match Punct.read? text with
      | some p =>
        let size := p.text.length
        ⟨token (.punct p) (pos + size) false, text.drop size, pos + size, []⟩
      | none =>
        ⟨token .invalid (pos + c.utf8Size) false, after, pos + c.utf8Size,
          [⟨.invalidCharacter c, pos⟩]⟩

/-- The next token of a text that stands at `pos`, where skipping trivia begins in a mode. -/
def tokenAfter (mode : TriviaMode) (pos : Nat) (text : List Char) : Lexed :=
  let skipped := skipTrivia mode false pos text
  match skipped.openComment with
  | some start =>
    ⟨⟨.endOfInput, ⟨start, skipped.pos⟩, skipped.newline, false⟩, [], skipped.pos,
      [⟨.unterminatedComment, start⟩]⟩
  | none => lexToken skipped.newline skipped.pos skipped.rest

/-- The next token of a text that stands at `pos`. -/
def nextToken (pos : Nat) (text : List Char) : Lexed := tokenAfter .blank pos text

/-- The first token of a text.  A byte order mark and a line that begins with `#!` come before
it. -/
def firstToken (text : List Char) : Lexed :=
  let (pos, text) := match text with
    | c :: rest => if c.toNat = 0xFEFF then (c.utf8Size, rest) else (0, text)
    | [] => (0, [])
  match text with
  | '#' :: '!' :: rest => tokenAfter .line (pos + 2) rest
  | text => tokenAfter .blank pos text

/-- Where reading the body of a regular expression stands: after a backslash, and inside
brackets. -/
structure RegexMode where
  escape : Bool
  brackets : Bool

/-- What follows the body of a regular expression and its closing slash; `none` where a line or the
text ends first. -/
def scanRegexBody : RegexMode → Nat → List Char → Option (List Char × Nat)
  | _, _, [] => none
  | mode, pos, c :: text =>
    if isLineEnd c then none
    else if mode.escape then scanRegexBody ⟨false, mode.brackets⟩ (pos + c.utf8Size) text
    else if c = '/' && !mode.brackets then some (text, pos + 1)
    else if c = '[' then scanRegexBody ⟨false, true⟩ (pos + 1) text
    else if c = ']' then scanRegexBody ⟨false, false⟩ (pos + 1) text
    else if c = '\\' then scanRegexBody ⟨true, mode.brackets⟩ (pos + 1) text
    else scanRegexBody mode (pos + c.utf8Size) text

/-- Reads the flags of a regular expression: each one at most once. -/
def scanRegexFlags : List Char → Nat → List Char → List Char × Nat × List Problem
  | _, pos, [] => ([], pos, [])
  | seen, pos, c :: text =>
    if isAsciiIdentifierPart c then
      let (rest, stop, problems) := scanRegexFlags (c :: seen) (pos + 1) text
      if !"dgimsuvy".toList.contains c then (rest, stop, ⟨.regexFlag c, pos⟩ :: problems)
      else if seen.contains c then (rest, stop, ⟨.regexFlagTwice c, pos⟩ :: problems)
      else (rest, stop, problems)
    else (c :: text, pos, [])

/-- The regular expression that begins with the slash of the token `slash`; `text` follows that
token. -/
def regexToken (slash : Token) (text : List Char) : Lexed :=
  match scanRegexBody ⟨false, false⟩ slash.span.stop text with
  | none =>
    ⟨{ slash with kind := .invalid }, [], slash.span.stop, [⟨.unterminatedRegex, slash.span.start⟩]⟩
  | some (text, pos) =>
    let (rest, stop, problems) := scanRegexFlags [] pos text
    let span : Span := ⟨slash.span.start, stop⟩
    ⟨{ slash with kind := .literal .regex "/regexp/", span := span }, rest, stop, problems⟩

/-- The piece of a template that follows a value and begins with the token `brace`; `text` follows
that token. -/
def templateToken (brace : Token) (text : List Char) : Lexed :=
  let scan := scanText .template .start brace.span.stop text
  let value := if scan.invalid.isEmpty then some (unitsValue scan.units) else none
  let span : Span := ⟨brace.span.start, scan.pos⟩
  if scan.ending = .broken then
    ⟨{ brace with kind := .invalid, span := span }, scan.rest, scan.pos,
      [⟨.unterminatedString, brace.span.start⟩]⟩
  else
    let piece := if scan.ending = .value then .middle else .tail
    ⟨{ brace with kind := .template piece value, span := span }, scan.rest, scan.pos, []⟩

end ModuleInterop.Syntax
