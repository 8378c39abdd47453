import ModuleInterop.Syntax.Span
import ModuleInterop.Syntax.Numeral

/-!
# Tokens

The words, punctuators and literals of a module text.  A word is read with its escapes decoded and
knows whether it spells one of the words that the grammar mentions; reserved words are no names,
all others are.
-/

set_option autoImplicit false

namespace ModuleInterop.Syntax

/-- The words that the grammar mentions, reserved or not. -/
inductive Keyword where
  | «await» | «break» | «case» | «catch» | «class» | «const» | «continue» | «debugger»
  | «default» | «delete» | «do» | «else» | «enum» | «export» | «extends» | «false» | «finally»
  | «for» | «function» | «if» | «import» | «in» | «instanceof» | «new» | «null» | «return»
  | «super» | «switch» | «this» | «throw» | «true» | «try» | «typeof» | «var» | «void» | «while»
  | «with» | «accessor» | «as» | «assert» | «async» | «defer» | «from» | «get» | «let» | «meta»
  | «of» | «set» | «source» | «static» | «target» | «using» | «yield»
  deriving DecidableEq, Repr

/-- The words of the grammar. -/
def Keyword.all : List Keyword := [
  .«await», .«break», .«case», .«catch», .«class», .«const», .«continue», .«debugger»,
  .«default», .«delete», .«do», .«else», .«enum», .«export», .«extends», .«false», .«finally»,
  .«for», .«function», .«if», .«import», .«in», .«instanceof», .«new», .«null», .«return»,
  .«super», .«switch», .«this», .«throw», .«true», .«try», .«typeof», .«var», .«void», .«while»,
  .«with», .«accessor», .«as», .«assert», .«async», .«defer», .«from», .«get», .«let», .«meta»,
  .«of», .«set», .«source», .«static», .«target», .«using», .«yield»]

/-- The spelling of a word of the grammar. -/
def Keyword.text : Keyword → String
  | .«await» => "await"
  | .«break» => "break"
  | .«case» => "case"
  | .«catch» => "catch"
  | .«class» => "class"
  | .«const» => "const"
  | .«continue» => "continue"
  | .«debugger» => "debugger"
  | .«default» => "default"
  | .«delete» => "delete"
  | .«do» => "do"
  | .«else» => "else"
  | .«enum» => "enum"
  | .«export» => "export"
  | .«extends» => "extends"
  | .«false» => "false"
  | .«finally» => "finally"
  | .«for» => "for"
  | .«function» => "function"
  | .«if» => "if"
  | .«import» => "import"
  | .«in» => "in"
  | .«instanceof» => "instanceof"
  | .«new» => "new"
  | .«null» => "null"
  | .«return» => "return"
  | .«super» => "super"
  | .«switch» => "switch"
  | .«this» => "this"
  | .«throw» => "throw"
  | .«true» => "true"
  | .«try» => "try"
  | .«typeof» => "typeof"
  | .«var» => "var"
  | .«void» => "void"
  | .«while» => "while"
  | .«with» => "with"
  | .«accessor» => "accessor"
  | .«as» => "as"
  | .«assert» => "assert"
  | .«async» => "async"
  | .«defer» => "defer"
  | .«from» => "from"
  | .«get» => "get"
  | .«let» => "let"
  | .«meta» => "meta"
  | .«of» => "of"
  | .«set» => "set"
  | .«source» => "source"
  | .«static» => "static"
  | .«target» => "target"
  | .«using» => "using"
  | .«yield» => "yield"

/-- The word of the grammar that a text spells. -/
def Keyword.ofText? (text : String) : Option Keyword :=
  Keyword.all.find? fun k => k.text == text

/-- Whether a word may not be used as a name. -/
def Keyword.isReserved : Keyword → Bool
  | .«break» | .«case» | .«catch» | .«class» | .«const» | .«continue» | .«debugger» | .«default»
  | .«delete» | .«do» | .«else» | .«enum» | .«export» | .«extends» | .«false» | .«finally»
  | .«for» | .«function» | .«if» | .«import» | .«in» | .«instanceof» | .«new» | .«null»
  | .«return» | .«super» | .«switch» | .«this» | .«throw» | .«true» | .«try» | .«typeof»
  | .«var» | .«void» | .«while» | .«with» => Bool.true
  | _ => Bool.false

/-- The punctuators. -/
inductive Punct where
  | braceL | braceR | parenL | parenR | bracketL | bracketR | ellipsis | dot | semicolon | comma
  | shiftRightZeroAssign | shiftRightZero | shiftRightAssign | shiftRight | greaterEqual
  | greater | shiftLeftAssign | shiftLeft | lessEqual | less | equalStrict | equal | arrow
  | assign | notEqualStrict | notEqual | bang | plusPlus | plusAssign | plus | minusMinus
  | minusAssign | minus | powerAssign | power | starAssign | star | slashAssign | slash
  | percentAssign | percent | andAssign | and | ampAssign | amp | orAssign | or | pipeAssign
  | pipe | caretAssign | caret | tilde | coalesceAssign | coalesce | optionalDot | question
  | colon | at
  deriving DecidableEq, Repr

/-- The punctuators, one that begins another one after it. -/
def Punct.all : List Punct := [
  .braceL, .braceR, .parenL, .parenR, .bracketL, .bracketR, .ellipsis, .dot, .semicolon, .comma,
  .shiftRightZeroAssign, .shiftRightZero, .shiftRightAssign, .shiftRight, .greaterEqual,
  .greater, .shiftLeftAssign, .shiftLeft, .lessEqual, .less, .equalStrict, .equal, .arrow,
  .assign, .notEqualStrict, .notEqual, .bang, .plusPlus, .plusAssign, .plus, .minusMinus,
  .minusAssign, .minus, .powerAssign, .power, .starAssign, .star, .slashAssign, .slash,
  .percentAssign, .percent, .andAssign, .and, .ampAssign, .amp, .orAssign, .or, .pipeAssign,
  .pipe, .caretAssign, .caret, .tilde, .coalesceAssign, .coalesce, .optionalDot, .question,
  .colon, .at]

/-- The spelling of a punctuator. -/
def Punct.text : Punct → String
  | .braceL => "\x7b"
  | .braceR => "\x7d"
  | .parenL => "("
  | .parenR => ")"
  | .bracketL => "["
  | .bracketR => "]"
  | .ellipsis => "..."
  | .dot => "."
  | .semicolon => ";"
  | .comma => ","
  | .shiftRightZeroAssign => ">>>="
  | .shiftRightZero => ">>>"
  | .shiftRightAssign => ">>="
  | .shiftRight => ">>"
  | .greaterEqual => ">="
  | .greater => ">"
  | .shiftLeftAssign => "<<="
  | .shiftLeft => "<<"
  | .lessEqual => "<="
  | .less => "<"
  | .equalStrict => "==="
  | .equal => "=="
  | .arrow => "=>"
  | .assign => "="
  | .notEqualStrict => "!=="
  | .notEqual => "!="
  | .bang => "!"
  | .plusPlus => "++"
  | .plusAssign => "+="
  | .plus => "+"
  | .minusMinus => "--"
  | .minusAssign => "-="
  | .minus => "-"
  | .powerAssign => "**="
  | .power => "**"
  | .starAssign => "*="
  | .star => "*"
  | .slashAssign => "/="
  | .slash => "/"
  | .percentAssign => "%="
  | .percent => "%"
  | .andAssign => "&&="
  | .and => "&&"
  | .ampAssign => "&="
  | .amp => "&"
  | .orAssign => "||="
  | .or => "||"
  | .pipeAssign => "|="
  | .pipe => "|"
  | .caretAssign => "^="
  | .caret => "^"
  | .tilde => "~"
  | .coalesceAssign => "??="
  | .coalesce => "??"
  | .optionalDot => "?."
  | .question => "?"
  | .colon => ":"
  | .at => "@"

/-- The value of a literal, as far as equality and truth are concerned. -/
inductive Literal where
  | null
  | boolean (value : Bool)
  | number (value : Double)
  | bigint
  | string (value : String)
  | regex
  deriving DecidableEq, Repr

/-- The four pieces that a template can be cut into: a whole one without values, and the first,
inner and last piece of one with values. -/
inductive TemplatePiece where
  | whole | head | middle | tail
  deriving DecidableEq, Repr

/-- What a token is. -/
inductive TokenKind where
  | endOfInput
  /-- Text that is no token; a problem has been recorded for it. -/
  | invalid
  | word (name : String) (keyword : Option Keyword)
  | privateName (name : String)
  /-- A number, a big integer or a string; `described` is what messages call it. -/
  | literal (value : Literal) (described : String)
  /-- A piece of a template with its text, absent where an escape in it is invalid. -/
  | template (piece : TemplatePiece) (text : Option String)
  | punct (punct : Punct)
  deriving DecidableEq, Repr

/-- A token with its place. -/
structure Token where
  kind : TokenKind
  span : Span
  /-- A line ends between the token and the one before it. -/
  newlineBefore : Bool
  /-- The word was written with an escape. -/
  escaped : Bool
  deriving DecidableEq, Repr

/-- Words that messages call by their spelling although no rule of the grammar used here mentions
them. -/
def namedWords : List String := [
  "abstract", "any", "asserts", "bigint", "boolean", "constructor", "declare", "global",
  "implements", "infer", "interface", "intrinsic", "is", "keyof", "module", "namespace",
  "never", "number", "object", "out", "override", "package", "private", "protected", "public",
  "readonly", "require", "satisfies", "string", "symbol", "type", "undefined", "unique",
  "unknown"]

/-- What messages call a token. -/
def TokenKind.described : TokenKind → String
  | .endOfInput => "EOF"
  | .invalid => "Unknown"
  | .word name keyword =>
    if keyword.isSome || namedWords.contains name then name else "Identifier"
  | .privateName _ => "#identifier"
  | .literal _ described => described
  | .template .whole _ => "$\x7b\x7d"
  | .template .head _ => "$\x7b"
  | .template .middle _ => "$\x7bexpr\x7d"
  | .template .tail _ => "\x7d"
  | .punct p => p.text

/-- Whether a token is a word that may be used as a name. -/
def TokenKind.isName : TokenKind → Bool
  | .word _ (some k) => !k.isReserved
  | .word _ none => true
  | _ => false

/-- Whether a token is a word, reserved or not. -/
def TokenKind.isWord : TokenKind → Bool
  | .word _ _ => true
  | _ => false

end ModuleInterop.Syntax
