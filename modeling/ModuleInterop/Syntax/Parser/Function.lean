import ModuleInterop.Syntax.Parser.Binding

/-!
# Functions and classes

Function bodies, functions from their parameters on, methods, and classes.
-/

set_option autoImplicit false

namespace ModuleInterop.Syntax.Parser

/-- Whether a statement is a string that stands for itself. -/
def isDirective : Stmt → Bool
  | .expression span (.literal inner (.string _)) => span.start == inner.start
  | _ => false

/-- The statements of a body.  Strings that stand at its beginning as statements are directives.
`isTop` if the body is the whole module, which no brace ends. -/
def bodyStatements (g : Grammar) (isTop : Bool) : Parser (List Stmt) :=
  iterate (fun (read : List Stmt × Bool) => do
    let current ← token
    if current.kind == .endOfInput || (!isTop && current.kind == .punct .braceR) then
      return .inr read.1.reverse
    let statement ← g.statement true
    if read.2 && isDirective statement then
      return .inl (.directive statement.span :: read.1, true)
    else return .inl (statement :: read.1, false)) ([], true)

/-- The body of a function with its braces. -/
def functionBody (g : Grammar) : Parser (List Stmt) := do
  expect .braceL
  let body ← withReader (fun context => { context with returns := true, inOperator := true })
    (bodyStatements g false)
  expect .braceR
  return body

/-- A function from its parameters on. -/
def functionRest (g : Grammar) (first : Nat) (form : FunctionForm) (name : Option Name)
    (isAsync isGenerator : Bool) : Parser Expr :=
  withReader (fun context =>
    { context with inOperator := true, await := isAsync, yield := isGenerator }) do
    let list ← parameters g
    if !(← at_ .braceL) then unexpected
    let body ← functionBody g
    return .function (← spanFrom first) form name list body

/-- A method from its parameters on. -/
def method (g : Grammar) (isAsync isGenerator : Bool) : Parser Expr := do
  functionRest g (← start) .method none isAsync isGenerator

/-- Whether the token begins a function: the word `function`, or `async` on the line of it. -/
def atFunction : Parser Bool := do
  if ← atWord .function then return true
  if ← atWord .async then
    let next ← nextToken
    return isWord next .function && !next.newlineBefore
  return false

/-- What the name of a function is good for: a declaration needs one, except where it is exported as
the default, and the name of an expression is seen inside only. -/
inductive NameRole where
  | required | exportedDefault | inner
  deriving DecidableEq

/-- The name of a function. -/
def functionName (role : NameRole) (isAsync isGenerator : Bool) : Parser (Option Name) := do
  let current ← token
  if current.kind.isName then
    if role = .inner then
      withReader (fun context => { context with await := isAsync, yield := isGenerator })
        (checkName current)
    else checkName current
    return some (← wordText)
  else
    if role = .required then
      match current.kind with
      | .punct .parenL => report .functionName current.span.start
      | .word text _ => fatal (.expected "Identifier" text) current.span.start
      | _ => pure ()
    return none

/-- A function that begins with the word `function` or `async`. -/
def functionFrom (g : Grammar) (role : NameRole) : Parser (Expr × Bool × Bool) := do
  let first ← start
  let isAsync ← eatWord .async
  expectWord .function
  let isGenerator ← eat .star
  let name ← functionName role isAsync isGenerator
  let form : FunctionForm := if role = .inner then .expression else .declaration
  return (← functionRest g first form name isAsync isGenerator, isAsync, isGenerator)

/-- Whether a token may follow the words that stand before a member's key. -/
def followsModifier (current : Token) : Bool :=
  match current.kind with
  | .punct .bracketL | .punct .braceL | .punct .star | .punct .ellipsis => true
  | .word _ _ | .privateName _ => true
  | .literal (.string _) _ | .literal (.number _) _ | .literal .bigint _ => true
  | _ => false

/-- Moves past a word that modifies the member after it, on the same line if `sameLine`. -/
def eatModifier (k : Keyword) (sameLine : Bool) : Parser Bool := do
  if ← atWord k then
    let next ← nextToken
    if followsModifier next && !(sameLine && next.newlineBefore) then
      bump
      return true
    else return false
  else return false

/-- Refuses parameters that an accessor must not have. -/
def checkAccessor (isGetter isSetter : Bool) (offset : Nat) : Expr → Parser Unit
  | .function _ _ _ list _ => do
    if isGetter && !list.isEmpty then report .getterParameters offset
    if isSetter && list.length != 1 then report .setterParameters offset
  | _ => pure ()

/-- Decorators. -/
def decorators (g : Grammar) : Parser (List Expr) :=
  iterate (fun (read : List Expr) => do
    if ← eat .at then
      let inner ← withReader (fun context => { context with decorator := true }) g.operand
      return .inl (inner :: read)
    else return .inr read.reverse) []

/-- The block of statements that a class runs once. -/
def classInitializer (g : Grammar) (first : Nat) : Parser Member := do
  expect .braceL
  let body ← withReader (fun context =>
    { context with await := true, yield := false, returns := false }) (sequence (g.statement true))
  expect .braceR
  return .initializer (← spanFrom first) body

/-- A member of a class. -/
def classMember (g : Grammar) : Parser Member := do
  let marks ← decorators g
  let first ← start
  let isStatic ← eatModifier .static false
  if isStatic && (← at_ .braceL) then classInitializer g first
  else
    let isAsync ← eatModifier .async true
    let _ ← if isAsync then pure false else eatModifier .accessor true
    let isGetter ← if isAsync then pure false else eatModifier .get false
    let isSetter ← if isAsync || isGetter then pure false else eatModifier .set false
    let isGenerator ← eat .star
    let key ← memberKey g
    if isAsync || isGetter || isSetter || isGenerator || (← at_ .parenL) then
      let offset ← start
      let value ← method g isAsync isGenerator
      checkAccessor isGetter isSetter offset value
      return .method (← spanFrom first) marks key.computed value
    else
      let value ←
        if ← eat .assign then
          some <$> withReader (fun context =>
            { context with inOperator := true, await := false, yield := false }) g.assignment
        else pure none
      endStatement
      return .field (← spanFrom first) marks key.computed value

/-- The members of a class; semicolons between them stand for nothing. -/
def classMembers (g : Grammar) : Parser (List Member) :=
  iterate (fun (read : List Member) => do
    let current ← token
    if current.kind == .punct .braceR || endsLists current then return .inr read.reverse
    else if ← eat .semicolon then return .inl read
    else return .inl ((← classMember g) :: read)) []

/-- A class from the word `class` on.  A declaration needs a name, except where it is exported as
the default. -/
def classFrom (g : Grammar) (role : NameRole) (marks : List Expr) : Parser Expr := do
  let first ← start
  expectWord .class
  let current ← token
  let name ← if current.kind.isName then some <$> bindingName else pure none
  if name.isNone && role = .required then report .className (← start)
  let heritage ← if ← eatWord .extends then some <$> g.operand else pure none
  expect .braceL
  let members ← classMembers g
  expect .braceR
  return .class (← spanFrom first) (role != .inner) marks name heritage members

end ModuleInterop.Syntax.Parser
