import ModuleInterop.Syntax.Parser.Function
import ModuleInterop.Syntax.Parser.Target

/-!
# Primary expressions

Names, literals, templates, arrays, objects, parentheses and what words begin.
-/

set_option autoImplicit false

namespace ModuleInterop.Syntax.Parser

/-- An expression that may be several with commas between them. -/
def expression (g : Grammar) : Parser Expr := do
  let first ← start
  let head ← withReader (fun context => { context with decorator := false }) g.assignment
  if ← at_ .comma then
    let parts ← iterate (fun (read : List Expr) => do
      if ← eat .comma then return .inl ((← g.assignment) :: read)
      else return .inr read.reverse) [head]
    return .group (← spanFrom first) .sequence parts
  else return head

/-- A spread element. -/
def spread (g : Grammar) : Parser Expr := do
  let first ← start
  bump
  let inner ← g.assignment
  return .spread (← spanFrom first) inner

/-- The arguments of a call with their parentheses. -/
def arguments (g : Grammar) : Parser (List Expr) := do
  expect .parenL
  let (list, _) ← withReader
    (fun context => { context with inOperator := true, decorator := false })
    (delimited .parenR do if ← at_ .ellipsis then spread g else g.assignment)
  expect .parenR
  return list

/-- The text of the piece of a template that is looked at; moves past it. -/
def templateText (isTagged : Bool) : Parser (Option String) := do
  let current ← token
  match current.kind with
  | .template _ text =>
    if text.isNone && !isTagged then report .invalidTemplateEscape current.span.start
    advance
    return text
  | _ => unexpected

/-- A value inside a template, up to the piece that follows it. -/
def templateValue (g : Grammar) : Parser Expr := do
  let value ← withIn true (expression g)
  if ← at_ .braceR then reread templateToken
  return value

/-- A template. -/
def template (g : Grammar) (isTagged : Bool) : Parser Expr := do
  let current ← token
  match current.kind with
  | .template .whole _ =>
    let text ← templateText isTagged
    return .template (← spanFrom current.span.start) [text] []
  | .template .head _ =>
    let text ← templateText isTagged
    let value ← templateValue g
    iterate (fun (read : List (Option String) × List Expr) => do
      match (← token).kind with
      | .template .tail _ =>
        let text ← templateText isTagged
        return .inr (.template (← spanFrom current.span.start) (text :: read.1).reverse
          read.2.reverse)
      | .template .middle _ =>
        let text ← templateText isTagged
        return .inl (text :: read.1, (← templateValue g) :: read.2)
      | _ => missing Punct.braceR.text) ([text], [value])
  | _ => unexpected

/-- An array. -/
def arrayLiteral (g : Grammar) : Parser Expr := do
  let first ← start
  bump
  let (elements, comma) ← withIn true (delimited .bracketR do
    let current ← token
    match current.kind with
    | .punct .comma => return .hole ⟨current.span.start, current.span.start⟩
    | .punct .ellipsis => spread g
    | _ => g.assignment)
  expect .bracketR
  return .array (← spanFrom first) elements comma

/-- A property of an object. -/
def property (g : Grammar) : Parser Property := do
  let first ← start
  if ← at_ .ellipsis then
    bump
    let inner ← g.assignment
    return .spread (← spanFrom first) inner
  let isAsync ← eatModifier .async true
  let isGetter ← if isAsync then pure false else eatModifier .get false
  let isSetter ← if isAsync || isGetter then pure false else eatModifier .set false
  let isGenerator ← eat .star
  let current ← token
  let key ← propertyKey g
  if isAsync || isGetter || isSetter || isGenerator || (← at_ .parenL) then
    let offset ← start
    let value ← method g isAsync isGenerator
    checkAccessor isGetter isSetter offset value
    return .keyed (← spanFrom first) key.name key.computed value
  else if current.kind.isName && !(← at_ .colon) then
    checkName current
    let name : Name := ⟨current.span, key.name.getD ""⟩
    if ← eat .assign then
      let default ← g.assignment
      let span ← spanFrom first
      modify fun state => { state with pendingDefaults := span :: state.pendingDefaults }
      return .shorthand span name (some default)
    else return .shorthand (← spanFrom first) name none
  else
    expect .colon
    let value ← g.assignment
    return .keyed (← spanFrom first) key.name key.computed value

/-- An object. -/
def objectLiteral (g : Grammar) : Parser Expr := do
  let first ← start
  bump
  let (properties, comma) ← withIn true (delimited .braceR (property g))
  expect .braceR
  return .object (← spanFrom first) properties comma

/-- An expression in parentheses. -/
def parenthesized (g : Grammar) : Parser Expr := do
  let first ← start
  bump
  let innerFirst ← start
  let (parts, comma) ← withIn true (delimited .parenR g.assignment)
  match comma with
  | some offset => fatal (.expected Punct.parenR.text Punct.comma.text) offset
  | none => pure ()
  match parts with
  | [] =>
    expect .parenR
    fatal .emptyParentheses first
  | [inner] =>
    expect .parenR
    return .paren (← spanFrom first) inner
  | parts =>
    let innerSpan ← spanFrom innerFirst
    expect .parenR
    return .paren (← spanFrom first) (.group innerSpan .sequence parts)

/-- What follows the word `import` in an expression that begins at `first`. -/
def importRest (g : Grammar) (first : Nat) : Parser Expr := do
  if ← eat .dot then
    let current ← token
    if isWord current .meta then
      bump
      return .atom (← spanFrom first)
    else if !(isWord current .source || isWord current .defer) then unexpected
    else bump
  expect .parenL
  if ← eat .parenR then fatal .importSpecifier first
  let parts ← withIn true do
    let source ← g.assignment
    if ← eat .comma then
      if ← at_ .parenR then return [source]
      else
        let options ← g.assignment
        let _ ← eat .comma
        return [source, options]
    else return [source]
  if !(← eat .parenR) then fatal .importArguments first
  return .group (← spanFrom first) .importCall parts

/-- What begins with the word `new`. -/
def newExpression (g : Grammar) : Parser Expr := do
  let first ← start
  bump
  if ← eat .dot then
    if ← atWord .target then
      bump
      return .atom (← spanFrom first)
    else
      bump
      fatal .newTarget first
  else
    let (callee, isChain) ← g.member
    let list ← if ← at_ .parenL then arguments g else pure []
    match callee with
    | .group span .importCall _ => report .newImport span.start
    | _ => pure ()
    if isChain then report .newChain first
    return .group (← spanFrom first) .new (callee :: list)

/-- The word `super`. -/
def superWord : Parser Expr := do
  let first ← start
  bump
  match (← token).kind with
  | .punct .dot | .punct .bracketL | .punct .parenL => pure ()
  | _ => report .unexpectedSuper first
  return .atom (← spanFrom first)

/-- A literal of one token. -/
def literal : Parser Expr := do
  let current ← token
  match current.kind with
  | .literal value _ =>
    advance
    return .literal current.span value
  | _ => unexpected

/-- A literal written as a word. -/
def wordLiteral (value : Literal) : Parser Expr := do
  let current ← token
  bump
  return .literal current.span value

/-- A primary expression. -/
def primary (g : Grammar) : Parser Expr := do
  let marks ← decorators g
  let current ← token
  if !marks.isEmpty then classFrom g .inner marks
  else if ← atFunction then return (← functionFrom g .inner).1
  else if current.kind.isName then reference
  else
    match current.kind with
    | .literal _ _ => literal
    | .template .whole _ | .template .head _ => template g false
    | .punct .slash | .punct .slashAssign =>
      reread regexToken
      literal
    | .punct .parenL => parenthesized g
    | .punct .bracketL => arrayLiteral g
    | .punct .braceL => objectLiteral g
    | .word _ (some .true) => wordLiteral (.boolean true)
    | .word _ (some .false) => wordLiteral (.boolean false)
    | .word _ (some .null) => wordLiteral .null
    | .word _ (some .this) =>
      bump
      return .this current.span
    | .word _ (some .class) => classFrom g .inner []
    | .word _ (some .super) => superWord
    | .word _ (some .new) => newExpression g
    | .word _ (some .import) =>
      bump
      importRest g current.span.start
    | _ => unexpected

end ModuleInterop.Syntax.Parser
