import ModuleInterop.Syntax.Lexer
import ModuleInterop.Syntax.Tree

/-!
# Parsers

A parser reads tokens, keeps the problems it meets, and fails at the first one that it cannot get
past.  Of a refused text one problem is reported: the first one found in a token, else the first one
found in the grammar.  A failed reading may be taken back (`attempt`), problems included.

Productions refer to one another in a circle.  `Grammar` holds the productions that the others call
back; every other production is an ordinary definition over such a record, and the circle is closed
in `ModuleInterop.Syntax.Parser.Module`.
-/

set_option autoImplicit false

namespace ModuleInterop.Syntax

/-- The parameters of the grammar at a place. -/
structure Context where
  /-- The word `in` is an operator. -/
  inOperator : Bool
  /-- The word `await` begins an expression. -/
  await : Bool
  /-- The word `yield` begins an expression. -/
  yield : Bool
  /-- A value may be returned. -/
  returns : Bool
  /-- The expression is a decorator. -/
  decorator : Bool

/-- The parameters at the top level of a module. -/
def Context.top : Context := ⟨true, true, false, true, false⟩

/-- How far reading has come. -/
structure ParseState where
  /-- The token that is looked at. -/
  token : Token
  /-- The end of the token before it. -/
  previousEnd : Nat
  /-- The text after the token, and its position. -/
  rest : List Char
  pos : Nat
  /-- The problems found in tokens, the latest first. -/
  lexical : List Problem
  /-- The problems found in the grammar, the latest first. -/
  problems : List Problem
  /-- Shorthand properties with a default that no assignment has made a target yet. -/
  pendingDefaults : List Span
  /-- The names exported so far with the positions of their entries, the latest first. -/
  exported : List (String × Nat)
  /-- Positions of parentheses that hold no parameters. -/
  notParameters : List Nat
  /-- A bound on the number of tokens. -/
  limit : Nat

/-- The problem that a text is refused for, and what has been learnt about parentheses. -/
structure Failure where
  problem : Problem
  notParameters : List Nat

/-- A reader of tokens. -/
abbrev Parser := ReaderT Context (StateT ParseState (Except Failure))

/-- The state at the beginning of a text. -/
def ParseState.start (text : List Char) : ParseState :=
  let first := firstToken text
  { token := first.token, previousEnd := 0, rest := first.rest, pos := first.pos,
    lexical := first.problems.reverse, problems := [], pendingDefaults := [], exported := [],
    notParameters := [], limit := text.length + 2 }

/-- The first problem found in a token, else the first one found in the grammar. -/
def ParseState.firstProblem? (state : ParseState) : Option Problem :=
  state.lexical.getLast?.or state.problems.getLast?

/-- The state with the problems of a token. -/
def ParseState.adopt (state : ParseState) (lexed : Lexed) : ParseState :=
  { state with
    token := lexed.token, rest := lexed.rest, pos := lexed.pos,
    lexical := lexed.problems.reverse ++ state.lexical }

namespace Parser

/-- The token that is looked at. -/
def token : Parser Token := do return (← get).token

/-- The token after the one that is looked at. -/
def nextToken : Parser Token := do
  let state ← get
  return (ModuleInterop.Syntax.nextToken state.pos state.rest).token

/-- Where the token begins. -/
def start : Parser Nat := do return (← token).span.start

/-- The span from a position to the end of the token before. -/
def spanFrom (first : Nat) : Parser Span := do return ⟨first, (← get).previousEnd⟩

/-- Records a problem that reading can get past. -/
def report (cause : Cause) (offset : Nat) : Parser Unit :=
  modify fun state => { state with problems := ⟨cause, offset⟩ :: state.problems }

/-- Fails. -/
def fatal {α : Type} (cause : Cause) (offset : Nat) : Parser α := do
  let state ← get
  throw ⟨state.firstProblem?.getD ⟨cause, offset⟩, state.notParameters⟩

/-- Fails at the token.  Where the token is missing or is none, the problem that was found in it is
the one that stops reading. -/
def unexpected {α : Type} : Parser α := do
  let state ← get
  match state.token.kind, state.lexical with
  | .endOfInput, last :: others | .invalid, last :: others =>
    let first := others.getLast?.or state.problems.getLast?
    throw ⟨first.getD last, state.notParameters⟩
  | _, _ => fatal .unexpectedToken state.token.span.start

/-- Moves on by one token. -/
def advance : Parser Unit :=
  modify fun state =>
    { state.adopt (ModuleInterop.Syntax.nextToken state.pos state.rest) with
      previousEnd := state.token.span.stop }

/-- Moves past a token that is used for what it says: a word of the grammar must be written without
escapes. -/
def bump : Parser Unit := do
  let current ← token
  match current.kind with
  | .word _ (some _) =>
    if current.escaped then report .escapedKeyword current.span.start
  | _ => pure ()
  advance

/-- Whether the token is a punctuator. -/
def at_ (p : Punct) : Parser Bool := do return (← token).kind == .punct p

/-- Whether a token is a word of the grammar. -/
def isWord (current : Token) (k : Keyword) : Bool :=
  match current.kind with
  | .word _ keyword => keyword == some k
  | _ => false

/-- Whether the token is a word of the grammar. -/
def atWord (k : Keyword) : Parser Bool := do return isWord (← token) k

/-- Moves past a punctuator if it is there. -/
def eat (p : Punct) : Parser Bool := do
  if ← at_ p then bump; return true else return false

/-- Moves past a word of the grammar if it is there. -/
def eatWord (k : Keyword) : Parser Bool := do
  if ← atWord k then bump; return true else return false

/-- Fails because something else was wanted. -/
def missing {α : Type} (wanted : String) : Parser α := do
  let current ← token
  fatal (.expected wanted current.kind.described) current.span.start

/-- Moves past a punctuator that must be there. -/
def expect (p : Punct) : Parser Unit := do
  if ← at_ p then bump else missing p.text

/-- Moves past a word of the grammar that must be there. -/
def expectWord (k : Keyword) : Parser Unit := do
  if ← atWord k then bump else missing k.text

/-- Whether a token ends every list: the text has ended or cannot be read on. -/
def endsLists (current : Token) : Bool :=
  match current.kind with
  | .endOfInput | .invalid => true
  | _ => false

/-- Whether a statement may end before the token. -/
def canEndStatement : Parser Bool := do
  let current ← token
  match current.kind with
  | .punct .semicolon | .punct .braceR | .endOfInput => return true
  | _ => return current.newlineBefore

/-- Ends a statement: with a semicolon, or where one may be left out. -/
def endStatement : Parser Unit := do
  if ← canEndStatement then
    let _ ← eat .semicolon
  else fatal .missingSemicolon (← get).previousEnd

/-- Runs a parser and takes back everything it did. -/
def lookahead {α : Type} (p : Parser α) : Parser α := fun context state =>
  match p context state with
  | .ok (a, _) => .ok (a, state)
  | .error failure => .error failure

/-- Runs a parser; if it fails, takes back what it did. -/
def attempt {α : Type} (p : Parser α) : Parser (Option α) := fun context state =>
  match p context state with
  | .ok (a, state) => .ok (some a, state)
  | .error failure => .ok (none, { state with notParameters := failure.notParameters })

/-- Repeats a step, each one of which moves on, until it gives a result; `limit` bounds the number
of steps. -/
def iterateFor {σ α : Type} (step : σ → Parser (σ ⊕ α)) : Nat → σ → Parser α
  | 0, _ => unexpected
  | limit + 1, s => do
    match ← step s with
    | .inl s => iterateFor step limit s
    | .inr a => return a

/-- Repeats a step that moves on until it gives a result. -/
def iterate {σ α : Type} (step : σ → Parser (σ ⊕ α)) (s : σ) : Parser α := do
  iterateFor step (← get).limit s

/-- A list with commas up to, and not past, a closing punctuator; with the position of a comma that
stands before it. -/
def delimited {α : Type} (close : Punct) (element : Parser α) : Parser (List α × Option Nat) := do
  let first ← token
  if first.kind == .punct close || endsLists first then return ([], none)
  iterate (fun (read : List α) => do
    let a ← element
    let read := a :: read
    let current ← token
    if current.kind == .punct close || endsLists current then
      return .inr (read.reverse, none)
    else if current.kind == .punct .comma then
      bump
      if ← at_ close then return .inr (read.reverse, some current.span.start)
      else return .inl read
    else
      fatal (.expectedSeparator Punct.comma.text close.text current.kind.described)
        current.span.start) []

/-- Elements one after the other up to, and not past, a closing brace. -/
def sequence {α : Type} (element : Parser α) : Parser (List α) :=
  iterate (fun (read : List α) => do
    let current ← token
    if current.kind == .punct .braceR || endsLists current then return .inr read.reverse
    else return .inl ((← element) :: read)) []

/-- Runs a parser where `in` is, or is not, an operator. -/
def withIn {α : Type} (allowed : Bool) (p : Parser α) : Parser α :=
  withReader (fun context => { context with inOperator := allowed }) p

/-- Refuses a word as a name where it begins an expression. -/
def checkName (current : Token) : Parser Unit := do
  let context ← read
  if context.await && isWord current .await then report .awaitName current.span.start
  else if context.yield && isWord current .yield then report .yieldName current.span.start

/-- The text of the word that is looked at; moves past it. -/
def wordText : Parser Name := do
  let current ← token
  match current.kind with
  | .word text _ => advance; return ⟨current.span, text⟩
  | _ => unexpected

/-- A name that is bound. -/
def bindingName : Parser Name := do
  let current ← token
  if current.kind.isName then
    checkName current
    wordText
  else
    match current.kind with
    | .word text _ => fatal (.reservedName text) current.span.start
    | _ => unexpected

/-- A name that is referred to. -/
def reference : Parser Expr := do
  let current ← token
  if current.kind.isName then
    checkName current
    let name ← wordText
    return .name name.span name.text
  else unexpected

/-- A string literal: its value. -/
def stringLiteral : Parser String := do
  match (← token).kind with
  | .literal (.string value) _ => advance; return value
  | _ => unexpected

/-- Reads the token again, as something else. -/
def reread (lex : Token → List Char → Lexed) : Parser Unit :=
  modify fun state => state.adopt (lex state.token state.rest)

end Parser

/-- The productions that other productions call back. -/
structure Grammar where
  /-- An expression without commas. -/
  assignment : Parser Expr
  /-- An operand with the operators before it. -/
  unary : Parser Expr
  /-- An operand with the operators that bind more tightly than a level. -/
  binary : Nat → Parser Expr
  /-- What `new` applies to; with whether an access in it is optional. -/
  member : Parser (Expr × Bool)
  /-- What an operator applies to: a value with the accesses and calls after it. -/
  operand : Parser Expr
  /-- A pattern of new bindings. -/
  pattern : Parser Pattern
  /-- A statement; `inList` if it stands in a list of statements. -/
  statement : Bool → Parser Stmt

end ModuleInterop.Syntax
