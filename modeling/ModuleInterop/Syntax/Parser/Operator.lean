import ModuleInterop.Syntax.Parser.Primary

/-!
# Accesses, calls and operators

What follows a primary expression: accesses and calls, of which one may be optional, then the
operators by their precedence.
-/

set_option autoImplicit false

namespace ModuleInterop.Syntax.Parser

/-- An access by name, after its point. -/
def namedAccess (first : Nat) (object : Expr) : Parser Expr := do
  match (← token).kind with
  | .privateName _ =>
    advance
    return .privateMember (← spanFrom first) object
  | _ =>
    let name ← wordText
    return .member (← spanFrom first) object name.text

/-- An access by key, with its brackets. -/
def keyedAccess (g : Grammar) (first : Nat) (object : Expr) : Parser Expr := do
  expect .bracketL
  let key ← withIn true (expression g)
  expect .bracketR
  return .index (← spanFrom first) object key

/-- Accesses after an expression that begins at `first`; with whether one is optional. -/
def accesses (g : Grammar) (first : Nat) (object : Expr) (isChain : Bool) : Parser (Expr × Bool) :=
  iterate (fun (read : Expr × Bool) => do
    match (← token).kind with
    | .punct .dot =>
      bump
      return .inl (← namedAccess first read.1, read.2)
    | .punct .optionalDot =>
      let isDecorator := (← ReaderT.read).decorator
      match (← nextToken).kind with
      | .privateName _ | .word _ _ =>
        bump
        return .inl (← namedAccess first read.1, true)
      | .punct .bracketL =>
        if isDecorator then return .inr read
        bump
        return .inl (← keyedAccess g first read.1, true)
      | _ => return .inr read
    | .punct .bracketL =>
      if (← ReaderT.read).decorator then return .inr read
      else return .inl (← keyedAccess g first read.1, read.2)
    | .template .whole _ | .template .head _ =>
      let inner ← template g true
      let span ← spanFrom first
      if read.2 then report .templateInChain span.start
      return .inl (.group span .taggedTemplate [read.1, inner], read.2)
    | _ => return .inr read) (object, isChain)

/-- What `new` applies to: a primary expression with accesses. -/
def memberExpression (g : Grammar) : Parser (Expr × Bool) := do
  let first ← start
  accesses g first (← primary g) false

/-- A value with the accesses and calls after it; a chain if one of them is optional. -/
def operandExpression (g : Grammar) : Parser Expr := do
  let first ← start
  let (head, isChain) ← memberExpression g
  let (value, isChain) ← iterate (fun (read : Expr × Bool) => do
    let (value, isChain) ← accesses g first read.1 read.2
    let current ← token
    let isOptional ← eat .optionalDot
    match (← token).kind with
    | .punct .parenL =>
      let list ← arguments g
      return .inl (.call (← spanFrom first) value list, isChain || isOptional)
    | .template .whole _ | .template .head _ =>
      let inner ← template g true
      report .templateInChain current.span.start
      return .inl (.group (← spanFrom first) .taggedTemplate [value, inner], true)
    | _ => if isOptional then unexpected else return .inr (value, isChain)) (head, isChain)
  if isChain then return .chain (← spanFrom first) value else return value

/-- An operand that an increment may follow or precede. -/
def updateExpression (g : Grammar) : Parser Expr := do
  let first ← start
  if ← at_ .plusPlus <||> at_ .minusMinus then
    bump
    let place ← placeOf (← g.unary)
    return .update (← spanFrom first) place
  else
    let value ← operandExpression g
    let current ← token
    if (current.kind == .punct .plusPlus || current.kind == .punct .minusMinus) &&
        !current.newlineBefore then
      bump
      let place ← placeOf value
      return .update (← spanFrom first) place
    else return value

/-- The operator that a token is before an operand. -/
def unaryOp? (current : Token) : Option UnaryOp :=
  match current.kind with
  | .punct .plus => some .plus
  | .punct .minus => some .minus
  | .punct .tilde => some .complement
  | .punct .bang => some .not
  | .word _ (some .typeof) => some .typeof
  | .word _ (some .void) => some .void
  | .word _ (some .delete) => some .delete
  | _ => none

/-- Whether a token on the line goes on with an expression after a word such as `await`. -/
def beginsOperand (current : Token) : Bool :=
  match current.kind with
  | .word _ _ => !current.newlineBefore
  | .literal _ _ => !current.newlineBefore
  | _ => false

/-- Whether the token begins an expression with a word that only some places give a meaning. -/
def atSuspension (k : Keyword) (inContext : Bool) : Parser Bool := do
  if ← atWord k then
    if inContext then return true else return beginsOperand (← nextToken)
  else return false

/-- An operand with the operators before it. -/
def unaryExpression (g : Grammar) : Parser Expr := do
  let current ← token
  match unaryOp? current with
  | some op =>
    bump
    let operand ← g.unary
    let span ← spanFrom current.span.start
    if ← at_ .power then report (.unaryPower current.kind.described) span.start
    return .unary span op operand
  | none =>
    if ← atSuspension .await (← ReaderT.read).await then
      if !(← ReaderT.read).await then report .awaitOutside current.span.start
      bump
      let operand ← withReader (fun context => { context with await := true }) g.unary
      return .group (← spanFrom current.span.start) .await [operand]
    else updateExpression g

/-- What an operator between two operands means. -/
inductive InfixOp where
  | binary (op : BinaryOp)
  | logical (op : LogicalOp)

/-- The operator between two operands that a token is, with its level: operators of a higher level
bind more tightly. -/
def infixOp? (inOperator : Bool) (current : Token) : Option (InfixOp × Nat) :=
  match current.kind with
  | .punct .coalesce => some (.logical .coalesce, 1)
  | .punct .or => some (.logical .or, 2)
  | .punct .and => some (.logical .and, 3)
  | .punct .pipe => some (.binary .other, 4)
  | .punct .caret => some (.binary .other, 5)
  | .punct .amp => some (.binary .other, 6)
  | .punct .equal => some (.binary .equal, 7)
  | .punct .notEqual => some (.binary .notEqual, 7)
  | .punct .equalStrict => some (.binary .equalStrict, 7)
  | .punct .notEqualStrict => some (.binary .notEqualStrict, 7)
  | .punct .less | .punct .greater | .punct .lessEqual | .punct .greaterEqual
  | .word _ (some .instanceof) => some (.binary .other, 8)
  | .word _ (some .in) => if inOperator then some (.binary .other, 8) else none
  | .punct .shiftLeft | .punct .shiftRight | .punct .shiftRightZero => some (.binary .other, 9)
  | .punct .plus | .punct .minus => some (.binary .other, 10)
  | .punct .star | .punct .slash | .punct .percent => some (.binary .other, 11)
  | .punct .power => some (.binary .other, 12)
  | _ => none

/-- The level of the one operator that groups to the right. -/
def powerLevel : Nat := 12

/-- Whether an expression joins conditions by `&&` or `||`. -/
def isCondition : Expr → Bool
  | .logical _ .and _ _ | .logical _ .or _ _ => true
  | _ => false

/-- The first operand of an operator: a private name may stand before `in`. -/
def firstOperand (g : Grammar) : Parser Expr := do
  let current ← token
  match current.kind with
  | .privateName _ =>
    advance
    expectWord .in
    let right ← g.binary 8
    return .binary (← spanFrom current.span.start) .other (.atom current.span) right
  | _ => g.unary

/-- An operand with the operators that bind more tightly than a level. -/
def binaryExpression (g : Grammar) (level : Nat) : Parser Expr := do
  let first ← start
  let head ← firstOperand g
  iterate (fun (left : Expr) => do
    match infixOp? (← ReaderT.read).inOperator (← token) with
    | none => return .inr left
    | some (op, opLevel) =>
      if opLevel < level || (opLevel = level && opLevel != powerLevel) then return .inr left
      else
        bump
        let right ← g.binary opLevel
        let span ← spanFrom first
        match op with
        | .binary op => return .inl (.binary span op left right)
        | .logical op =>
          if op = .coalesce && (isCondition left || isCondition right) then
            report .mixedCoalesce span.start
          return .inl (.logical span op left right)) head

end ModuleInterop.Syntax.Parser
