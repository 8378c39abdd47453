import ModuleInterop.Text.Path
import ModuleInterop.Glob.Pattern

/-!
# Ids that a pattern matches

A pattern is matched against the bytes of an id.  What a token leaves of a text is a list: one rest
for each way in which it can match the beginning (`Token.rests`).  The id is matched if a pattern
can leave nothing of it.

A pattern that ends in a dot is compared with the name of the file that the id leads to, unless it
is compared with the end of the id; an id that leads to the directory above has no such name.
-/

set_option autoImplicit false

namespace ModuleInterop.Glob

open ModuleInterop.Text

/-- The bytes of a character in UTF-8. -/
def charBytes (c : Char) : List UInt8 := String.utf8EncodeChar c

/-- The bytes of a text in UTF-8. -/
def textBytes (text : List Char) : List UInt8 := text.flatMap charBytes

/-- The byte of the separator. -/
def separator : UInt8 := 0x2F

/-- The rest of a text after some bytes at its beginning. -/
def afterBytes : List UInt8 → List UInt8 → List (List UInt8)
  | [], text => [text]
  | _ :: _, [] => []
  | b :: bytes, c :: text => if b = c then afterBytes bytes text else []

/-- All rests of a text, itself among them. -/
def allRests : List UInt8 → List (List UInt8)
  | [] => [[]]
  | b :: text => (b :: text) :: allRests text

/-- The rests of a text after each of its separators. -/
def componentRests : List UInt8 → List (List UInt8)
  | [] => []
  | b :: text => if b = separator then text :: componentRests text else componentRests text

/-- The ranges of bytes that a range of characters stands for.  A character of several bytes stands
for each of them, and a range reaches from the last byte of one to the first byte of the other. -/
def byteRanges (range : Char × Char) : List (UInt8 × UInt8) :=
  let low := charBytes range.1
  let high := charBytes range.2
  if range.1 = range.2 then low.map fun b => (b, b)
  else
    low.dropLast.map (fun b => (b, b)) ++ [(low.getLastD 0, high.headD 0)] ++
      high.tail.map fun b => (b, b)

/-- Whether a byte is in a class. -/
def inClass (negated : Bool) (ranges : List (Char × Char)) (b : UInt8) : Bool :=
  ((ranges.flatMap byteRanges).any fun r => r.1 ≤ b && b ≤ r.2) != negated

mutual

/-- Whether a token says nothing: a choice between alternatives that all say nothing. -/
def Token.isVoid : Token → Bool
  | .choice alternatives => allVoid alternatives
  | _ => false

/-- Whether tokens all say nothing. -/
def tokensVoid : List Token → Bool
  | [] => true
  | token :: tokens => token.isVoid && tokensVoid tokens

/-- Whether alternatives all say nothing. -/
def allVoid : List (List Token) → Bool
  | [] => true
  | tokens :: others => tokensVoid tokens && allVoid others

end

mutual

/-- What a token can leave of a text.  An alternative that says nothing is no alternative; if all
are of that kind, the choice matches the empty text. -/
def Token.rests : Token → List UInt8 → List (List UInt8)
  | .literal c, text => afterBytes (charBytes c) text
  | .anyByte, text => text.tail?.toList
  | .anyText, text => allRests text
  | .leading, text => text :: componentRests text
  | .between, text =>
    match text with
    | b :: rest => if b = separator then rest :: componentRests rest else []
    | [] => []
  | .trailing, text =>
    match text with
    | b :: rest => if b = separator then allRests rest else []
    | [] => []
  | .class negated ranges, text =>
    match text with
    | b :: rest => if inClass negated ranges b then [rest] else []
    | [] => []
  | .choice alternatives, text =>
    if allVoid alternatives then [text] else choiceRests alternatives text

/-- What tokens in a row can leave of a text. -/
def tokensRests : List Token → List UInt8 → List (List UInt8)
  | [], text => [text]
  | token :: tokens, text => ((token.rests text).flatMap (tokensRests tokens)).eraseDups

/-- What one of several alternatives can leave of a text. -/
def choiceRests : List (List Token) → List UInt8 → List (List UInt8)
  | [], _ => []
  | tokens :: others, text =>
    (if tokensVoid tokens then [] else tokensRests tokens text) ++ choiceRests others text

end

/-- Whether a token is a literal character. -/
def Token.isLiteral : Token → Bool
  | .literal _ => true
  | _ => false

/-- Whether a token is the literal character. -/
def Token.isChar (c : Char) : Token → Bool
  | .literal d => d == c
  | _ => false

/-- Whether a pattern ends in a dot and is compared with the name of a file: it is neither wholly
literal nor a literal end after any text or after any number of components. -/
def needsFileName (tokens : List Token) : Bool :=
  let endsInDot := (tokens.getLast?.map (Token.isChar '.')).getD false
  let comparedAtEnd :=
    match tokens with
    | .leading :: .anyText :: rest => rest.all Token.isLiteral && 1 < rest.length
    | .leading :: rest => rest.all Token.isLiteral && rest.any (Token.isChar '/')
    | .anyText :: rest => rest.all Token.isLiteral && 1 < rest.length
    | rest => rest.all Token.isLiteral
  endsInDot && !comparedAtEnd

/-- Whether the last component of an id leads to the directory above. -/
def leadsAbove (id : List Char) : Bool := (splitOnChar '/' id).getLast? == some ['.', '.']

/-- Whether a pattern matches an id.  Two stars alone match every id. -/
def isMatch (tokens : List Token) (id : List Char) : Bool :=
  match tokens with
  | [.leading] => true
  | tokens =>
    (tokensRests tokens (textBytes id)).any List.isEmpty && !(needsFileName tokens && leadsAbove id)

end ModuleInterop.Glob
