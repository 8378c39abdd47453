import ModuleInterop.Syntax.Parser.Assignment

/-!
# Statements

Statements other than imports and exports.  A statement stands in a list, or is the one statement of
a branch, a loop or a label; some declarations are allowed in a list only.
-/

set_option autoImplicit false

namespace ModuleInterop.Syntax.Parser

/-- An expression between parentheses. -/
def condition (g : Grammar) : Parser Expr := do
  expect .parenL
  let value ← expression g
  expect .parenR
  return value

/-- The statements of a block with its braces. -/
def blockBody (g : Grammar) : Parser (List Stmt) := do
  expect .braceL
  let body ← sequence (g.statement true)
  expect .braceR
  return body

/-- Refuses a declaration that lacks a value it must have. -/
def checkInitializer (kind : VariableKind) : Declarator → Parser Unit
  | .mk _ target init =>
    match init, target with
    | some _, _ => pure ()
    | none, .binding name =>
      if kind = .lexical true then report .constInitializer name.span.start else pure ()
    | none, target => report .destructuringInitializer target.span.start

/-- One variable of a declaration; `complete` if the declaration is not the head of a loop. -/
def declarator (g : Grammar) (kind : VariableKind) (complete : Bool) : Parser Declarator := do
  let first ← start
  let target ← g.pattern
  let init ← if ← eat .assign then some <$> g.assignment else pure none
  let result : Declarator := .mk (← spanFrom first) target init
  if complete then checkInitializer kind result
  return result

/-- The variables of a declaration, after the word that begins it. -/
def declarators (g : Grammar) (kind : VariableKind) (complete : Bool) :
    Parser (List Declarator) := do
  let head ← declarator g kind complete
  iterate (fun (read : List Declarator) => do
    if ← eat .comma then return .inl ((← declarator g kind complete) :: read)
    else return .inr read.reverse) [head]

/-- The kind of variables that a word declares. -/
def variableKind? (current : Token) : Option VariableKind :=
  match current.kind with
  | .word _ (some .var) => some .var
  | .word _ (some .let) | .word _ (some .using) | .word _ (some .await) => some (.lexical false)
  | .word _ (some .const) => some (.lexical true)
  | _ => none

/-- Moves past the word, or the two words `await using`, that begin a declaration. -/
def declarationWord : Parser VariableKind := do
  let current ← token
  match variableKind? current with
  | none => unexpected
  | some kind =>
    bump
    if isWord current .await then expectWord .using
    return kind

/-- A declaration of variables that is a statement. -/
def variableStatement (g : Grammar) (inList : Bool) : Parser Stmt := do
  let first ← start
  let kind ← declarationWord
  let list ← declarators g kind true
  endStatement
  let span ← spanFrom first
  if !inList && kind != .var then report .lexicalInStatement span.start
  return .variables span kind list

/-- A statement that begins with an expression; a name with a colon after it is a label. -/
def expressionStatement (g : Grammar) : Parser Stmt := do
  let first ← start
  let value ← expression g
  match value, (← token).kind with
  | .name _ _, .punct .colon =>
    bump
    let body ← g.statement false
    return .labeled (← spanFrom first) body
  | value, _ =>
    endStatement
    return .expression (← spanFrom first) value

/-- Whether a token begins a pattern of new bindings. -/
def beginsPattern (current : Token) : Bool :=
  match current.kind with
  | .punct .braceL | .punct .bracketL => true
  | kind => kind.isName

/-- Whether a token goes on with an expression that the name `let` begins. -/
def continuesName (current : Token) : Bool :=
  (assignmentOp? current).isSome || (infixOp? true current).isSome ||
    (match current.kind with
    | .punct .dot | .punct .parenL => true
    | _ => false)

/-- A statement that begins with the word `let`. -/
def letStatement (g : Grammar) (inList : Bool) : Parser Stmt := do
  let next ← nextToken
  if continuesName next || next.kind == .punct .semicolon ||
      (!inList && next.kind != .punct .bracketL) then
    expressionStatement g
  else variableStatement g inList

/-- Whether the word `using`, with `await` before it perhaps, begins a declaration. -/
def atUsing : Parser Bool := lookahead do
  if ← atWord .await then
    advance
    if (← token).newlineBefore then return false
  if !(← atWord .using) then return false
  advance
  let next ← token
  return next.kind.isName && !next.newlineBefore

/-- The declaration of a function. -/
def functionStatement (g : Grammar) (inList : Bool) : Parser Stmt := do
  let (value, isAsync, isGenerator) ← functionFrom g .required
  if !inList then
    if isAsync then report (.functionInStatement "Async functions") value.span.start
    else if isGenerator then report (.functionInStatement "Generators") value.span.start
  return .declaration value

/-- The declaration of a class. -/
def classStatement (g : Grammar) (inList : Bool) (marks : List Expr) : Parser Stmt := do
  let value ← classFrom g .required marks
  if !inList then report .classInStatement value.span.start
  return .declaration value

/-- A conditional statement. -/
def ifStatement (g : Grammar) : Parser Stmt := do
  let first ← start
  bump
  let test ← condition g
  let yes ← g.statement false
  let no ← if ← eatWord .else then some <$> g.statement false else pure none
  return .ifElse (← spanFrom first) test yes no

/-- A loop with its test at the end; a semicolon may follow it anywhere. -/
def doStatement (g : Grammar) : Parser Stmt := do
  let first ← start
  bump
  let body ← g.statement false
  expectWord .while
  let test ← condition g
  let _ ← eat .semicolon
  return .doWhile (← spanFrom first) body test

/-- A loop with its test at the beginning. -/
def whileStatement (g : Grammar) : Parser Stmt := do
  let first ← start
  bump
  let test ← condition g
  let body ← g.statement false
  return .whileLoop (← spanFrom first) test body

/-- A loop with a head of three parts, from the first semicolon on. -/
def loopRest (g : Grammar) (first : Nat) (isAwait : Bool) (head : Option Stmt) : Parser Stmt := do
  expect .semicolon
  match head with
  | some (.variables _ kind list) => list.forM (checkInitializer kind)
  | _ => pure ()
  let test ← if ← at_ .semicolon <||> at_ .parenR then pure none
    else some <$> withIn true (expression g)
  expect .semicolon
  let update ← if ← at_ .parenR then pure none else some <$> withIn true (expression g)
  expect .parenR
  if isAwait then report .forAwait first
  let body ← g.statement false
  return .loop (← spanFrom first) head test update body

/-- A loop over properties or elements, from the word `in` or `of` on. -/
def eachRest (g : Grammar) (first : Nat) (isAwait : Bool) (declared : Option Stmt)
    (stored : Option Pattern) : Parser Stmt := do
  let isIn ← atWord .in
  bump
  let subject ← if isIn then expression g else g.assignment
  expect .parenR
  if isIn && isAwait then report .forAwait first
  let body ← g.statement false
  return .each (← spanFrom first) declared stored subject body

/-- A loop whose head declares variables. -/
def declaringLoop (g : Grammar) (first : Nat) (isAwait : Bool) : Parser Stmt := do
  let headFirst ← start
  let kind ← declarationWord
  let list ← withIn false (declarators g kind false)
  let head : Stmt := .variables (← spanFrom headFirst) kind list
  if ← atWord .in <||> atWord .of then eachRest g first isAwait (some head) none
  else loopRest g first isAwait (some head)

/-- Whether the head of a loop declares variables. -/
def atLoopDeclaration : Parser Bool := do
  let current ← token
  match current.kind with
  | .word _ (some .var) | .word _ (some .const) => return true
  | .word _ (some .let) => return beginsPattern (← nextToken)
  | .word _ (some .using) =>
    let next ← nextToken
    return next.kind.isName && !next.newlineBefore && !isWord next .of
  | .word _ (some .await) => atUsing
  | _ => return false

/-- A loop with a head in parentheses. -/
def forStatement (g : Grammar) : Parser Stmt := do
  let first ← start
  bump
  let waitAt ← start
  let isAwait ← atWord .await
  if isAwait then
    if !(← ReaderT.read).await then report .awaitOutside waitAt
    bump
  expect .parenL
  if ← at_ .semicolon <||> at_ .parenR then loopRest g first isAwait none
  else if ← atLoopDeclaration then declaringLoop g first isAwait
  else
    let headFirst ← start
    let isAsyncOf ← do
      let current ← token
      let next ← nextToken
      pure (isWord current .async && !current.escaped && isWord next .of)
    let head ← withIn false (expression g)
    if ← atWord .in then eachRest g first isAwait none (some (← targetOf head))
    else if ← atWord .of then
      if isAsyncOf && !isAwait then report .forOfAsync headFirst
      eachRest g first isAwait none (some (← targetOf head))
    else loopRest g first isAwait (some (.expression head.span head))

/-- A jump, to a label perhaps. -/
def jumpStatement : Parser Stmt := do
  let first ← start
  bump
  if !(← canEndStatement) then
    if (← token).kind.isName then let _ ← wordText else unexpected
  endStatement
  return .simple (← spanFrom first)

/-- A return. -/
def returnStatement (g : Grammar) : Parser Stmt := do
  let first ← start
  bump
  let value ←
    if ← canEndStatement then
      let _ ← eat .semicolon
      pure none
    else
      let value ← withIn true (expression g)
      endStatement
      pure (some value)
  if !(← ReaderT.read).returns then report .returnOutside first
  return .returning (← spanFrom first) value

/-- A throw; the value begins on the line of the word. -/
def throwStatement (g : Grammar) : Parser Stmt := do
  let first ← start
  bump
  if (← token).newlineBefore then report .throwNewline first
  let value ← expression g
  endStatement
  return .throwing (← spanFrom first) value

/-- A statement that adds an object to the names in scope. -/
def withStatement (g : Grammar) : Parser Stmt := do
  let first ← start
  bump
  let object ← condition g
  let body ← g.statement false
  return .withObject (← spanFrom first) object body

/-- A case of a switch. -/
def switchCase (g : Grammar) : Parser SwitchCase := do
  let current ← token
  let test ← match current.kind with
    | .word _ (some .default) => bump; pure none
    | .word _ (some .case) => bump; some <$> expression g
    | _ => fatal .switchClause current.span.start
  expect .colon
  let body ← iterate (fun (read : List Stmt) => do
    match (← token).kind with
    | .word _ (some .case) | .word _ (some .default) | .punct .braceR | .endOfInput =>
      return .inr read.reverse
    | _ => return .inl ((← g.statement true) :: read)) []
  return .mk test body

/-- A switch. -/
def switchStatement (g : Grammar) : Parser Stmt := do
  let first ← start
  bump
  let subject ← condition g
  expect .braceL
  let cases ← sequence (switchCase g)
  expect .braceR
  return .switch (← spanFrom first) subject cases

/-- A guarded block with its clauses, of which there must be one. -/
def tryStatement (g : Grammar) : Parser Stmt := do
  let first ← start
  bump
  let body ← blockBody g
  let bodyEnd := (← get).previousEnd
  let hasHandler ← eatWord .catch
  let (parameter, handler) ←
    if hasHandler then
      let parameter ←
        if ← eat .parenL then
          let pattern ← g.pattern
          expect .parenR
          pure (some pattern)
        else pure none
      pure (parameter, ← blockBody g)
    else pure (none, [])
  let hasFinalizer ← eatWord .finally
  let finalizer ← if hasFinalizer then blockBody g else pure []
  if !hasHandler && !hasFinalizer then report .missingCatch bodyEnd
  return .guarded (← spanFrom first) body parameter handler finalizer

/-- A breakpoint. -/
def debuggerStatement : Parser Stmt := do
  let first ← start
  bump
  endStatement
  return .simple (← spanFrom first)

/-- A statement other than an import or an export. -/
def plainStatement (g : Grammar) (inList : Bool) : Parser Stmt := do
  let current ← token
  match current.kind with
  | .punct .braceL =>
    let body ← blockBody g
    return .block (← spanFrom current.span.start) body
  | .punct .semicolon =>
    bump
    return .simple current.span
  | .word _ (some .if) => ifStatement g
  | .word _ (some .do) => doStatement g
  | .word _ (some .while) => whileStatement g
  | .word _ (some .for) => forStatement g
  | .word _ (some .continue) | .word _ (some .break) => jumpStatement
  | .word _ (some .with) => withStatement g
  | .word _ (some .switch) => switchStatement g
  | .word _ (some .throw) => throwStatement g
  | .word _ (some .try) => tryStatement g
  | .word _ (some .debugger) => debuggerStatement
  | .word _ (some .class) => classStatement g inList []
  | .word _ (some .return) => returnStatement g
  | .word _ (some .var) | .word _ (some .const) => variableStatement g inList
  | .word _ (some .let) =>
    if current.escaped then expressionStatement g else letStatement g inList
  | .word _ (some .using) | .word _ (some .await) =>
    if ← atUsing then variableStatement g inList else expressionStatement g
  | _ => if ← atFunction then functionStatement g inList else expressionStatement g

end ModuleInterop.Syntax.Parser
