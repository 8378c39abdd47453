import ModuleInterop.Syntax.Parser.Operator

/-!
# Assignments, conditions and arrow functions

Expressions without commas.  An opening parenthesis may begin an expression or the parameters of an
arrow function; where its first tokens do not tell, it is read as parameters first.
-/

set_option autoImplicit false

namespace ModuleInterop.Syntax.Parser

/-- Whether something holds, as far as a few tokens tell. -/
inductive Guess where
  | no | maybe | yes
  deriving DecidableEq

/-- Whether an opening parenthesis, with `async` before it perhaps, begins parameters. -/
def guessParameters : Parser Guess := lookahead do
  if ← atWord .async then
    advance
    if (← token).newlineBefore then return .no
  if !(← at_ .parenL) then return .no
  advance
  let second ← token
  match second.kind with
  | .punct .parenR =>
    advance
    match (← token).kind with
    | .punct .arrow | .punct .colon | .punct .braceL => return .yes
    | _ => return .no
  | .punct .bracketL | .punct .braceL => return .maybe
  | .punct .ellipsis => return .yes
  | _ =>
    if !second.kind.isName then return .no
    advance
    match (← token).kind with
    | .punct .colon => return .yes
    | .punct .comma | .punct .assign | .punct .parenR => return .maybe
    | _ => return .no

/-- The parameters of an arrow function, with its arrow. -/
def arrowHead (g : Grammar) : Parser (Bool × List Pattern) := do
  let isAsync ← eatWord .async
  let list ← withReader (fun context => { context with await := context.await || isAsync })
    (parameters g)
  let current ← token
  if current.newlineBefore then report .arrowNewline current.span.start
  expect .arrow
  return (isAsync, list)

/-- An arrow function from its body on. -/
def arrowBody (g : Grammar) (first : Nat) (isAsync : Bool) (list : List Pattern) : Parser Expr :=
  withReader (fun context => { context with await := isAsync, yield := false }) do
    if ← at_ .braceL then
      let body ← functionBody g
      return .function (← spanFrom first) (.arrow false) none list body
    else
      let value ← g.assignment
      return .function (← spanFrom first) (.arrow true) none list [.expression value.span value]

/-- An arrow function whose parameters stand in parentheses, if one begins here. -/
def parenthesizedArrow? (g : Grammar) : Parser (Option Expr) := do
  let first ← start
  match ← guessParameters with
  | .no => return none
  | .yes =>
    let (isAsync, list) ← arrowHead g
    return some (← arrowBody g first isAsync list)
  | .maybe =>
    if (← get).notParameters.contains first then return none
    match ← attempt (arrowHead g) with
    | some (isAsync, list) => return some (← arrowBody g first isAsync list)
    | none =>
      modify fun state => { state with notParameters := first :: state.notParameters }
      return none

/-- Whether `async`, a name and an arrow follow one another on a line. -/
def atAsyncArrow : Parser Bool := lookahead do
  if !(← atWord .async) then return false
  advance
  let name ← token
  if name.newlineBefore || !name.kind.isName then return false
  advance
  let arrow ← token
  return arrow.kind == .punct .arrow && !arrow.newlineBefore

/-- An arrow function with one parameter and no parentheses, from the arrow on. -/
def simpleArrow (g : Grammar) (first : Nat) (isAsync : Bool) (name : Name) : Parser Expr := do
  let current ← token
  if current.newlineBefore then report .arrowNewline current.span.start
  expect .arrow
  arrowBody g first isAsync [.binding name]

/-- What begins with the word `yield`. -/
def yieldExpression (g : Grammar) : Parser Expr := do
  let first ← start
  bump
  if !(← ReaderT.read).yield then report .yieldOutside first
  let current ← token
  if current.newlineBefore then return .group (← spanFrom first) .yield []
  let isDelegate ← eat .star
  let isEnd ← match (← token).kind with
    | .punct .semicolon | .endOfInput | .punct .braceR | .punct .parenR | .punct .bracketR
    | .punct .colon | .punct .comma | .word _ (some .in) => pure true
    | _ => pure false
  if isEnd && !isDelegate then return .group (← spanFrom first) .yield []
  let value ← withReader (fun context => { context with yield := true }) g.assignment
  return .group (← spanFrom first) .yield [value]

/-- Whether a token assigns, and if so, whether it does nothing else. -/
def assignmentOp? (current : Token) : Option Bool :=
  match current.kind with
  | .punct .assign => some true
  | .punct .plusAssign | .punct .minusAssign | .punct .starAssign | .punct .slashAssign
  | .punct .percentAssign | .punct .powerAssign | .punct .shiftLeftAssign
  | .punct .shiftRightAssign | .punct .shiftRightZeroAssign | .punct .ampAssign
  | .punct .pipeAssign | .punct .caretAssign | .punct .andAssign | .punct .orAssign
  | .punct .coalesceAssign => some false
  | _ => none

/-- A condition with its two branches, if a question mark follows the test. -/
def conditionalRest (g : Grammar) (first : Nat) (test : Expr) : Parser Expr := do
  if ← eat .question then
    let yes ← withIn true g.assignment
    expect .colon
    let no ← g.assignment
    return .conditional (← spanFrom first) test yes no
  else return test

/-- An expression without commas. -/
def assignmentExpression (g : Grammar) : Parser Expr := do
  if ← atSuspension .yield (← ReaderT.read).yield then return ← yieldExpression g
  match ← parenthesizedArrow? g with
  | some arrow => return arrow
  | none => pure ()
  let first ← start
  if ← atAsyncArrow then
    bump
    let name ← withReader (fun context => { context with await := true }) do
      checkName (← token)
      wordText
    return ← simpleArrow g first true name
  let left ← g.binary 0
  let current ← token
  match left, current.kind with
  | .name span text, .punct .arrow => simpleArrow g first false ⟨span, text⟩
  | left, _ =>
    match assignmentOp? current with
    | some true =>
      let target ← targetOf left
      bump
      let value ← g.assignment
      return .assign (← spanFrom first) true target value
    | some false =>
      let place ← placeOf left
      bump
      let value ← g.assignment
      return .assign (← spanFrom first) false (.target place) value
    | none => conditionalRest g first left

end ModuleInterop.Syntax.Parser
