import ModuleInterop.Syntax.Parser.Basic

/-!
# Bindings, keys and parameters

Patterns of new bindings, the keys of properties, and the parameter lists of functions.
-/

set_option autoImplicit false

namespace ModuleInterop.Syntax.Parser

/-- A key: the text of an identifier, or the expression of a computed key. -/
structure Key where
  name : Option String
  computed : Option Expr
  isPrivate : Bool

/-- The key of a property. -/
def propertyKey (g : Grammar) : Parser Key := do
  let current ← token
  match current.kind with
  | .literal (.string _) _ | .literal (.number _) _ | .literal .bigint _ =>
    advance
    return ⟨none, none, false⟩
  | .punct .bracketL =>
    bump
    let inner ← withIn true g.assignment
    expect .bracketR
    return ⟨none, some inner, false⟩
  | _ => return ⟨some (← wordText).text, none, false⟩

/-- The key of a class member, which may be private. -/
def memberKey (g : Grammar) : Parser Key := do
  match (← token).kind with
  | .privateName _ => advance; return ⟨none, none, true⟩
  | _ => propertyKey g

/-- A pattern that has been read up to `start`, with the default that may follow it. -/
def withDefault (g : Grammar) (start : Nat) (inner : Pattern) : Parser Pattern := do
  if ← eat .assign then
    let default ← withIn true g.assignment
    return .withDefault (← spanFrom start) inner default
  else return inner

/-- A pattern that may have a default. -/
def patternWithDefault (g : Grammar) : Parser Pattern := do
  let first ← start
  let inner ← g.pattern
  withDefault g first inner

/-- The rest of an array, an object or a parameter list. -/
def restPattern (g : Grammar) : Parser Pattern := do
  let first ← start
  bump
  let inner ← g.pattern
  return .rest (← spanFrom first) inner

/-- What a list of patterns has been read to: the patterns in reverse, whether there was an element,
and where a rest begins. -/
structure PatternList where
  read : List Pattern
  begun : Bool
  rest : Option Nat

/-- A list of patterns of which the last may be a rest, up to, and not past, its end.  An element
may be left out. -/
def patternList (g : Grammar) (close : Punct) (misplaced : Cause)
    (element : Parser (Option Pattern)) :
    Parser (List Pattern) :=
  iterate (fun (list : PatternList) => do
    let current ← token
    if current.kind == .punct close || endsLists current then return .inr list.read.reverse
    if list.begun then
      if current.kind != .punct .comma then
        fatal (.expectedSeparator Punct.comma.text close.text current.kind.described)
          current.span.start
      bump
      if ← at_ close then
        if list.rest.isSome then report .restTrailingComma current.span.start
        return .inr list.read.reverse
    match list.rest with
    | some offset => report misplaced offset
    | none => pure ()
    let first ← start
    if ← at_ .ellipsis then
      return .inl ⟨(← restPattern g) :: list.read, true, some first⟩
    else return .inl ⟨(← element).toList ++ list.read, true, list.rest⟩) ⟨[], false, none⟩

/-- A property of an object pattern. -/
def bindingProperty (g : Grammar) : Parser Pattern := do
  let current ← token
  let key ← propertyKey g
  let value ←
    if current.kind.isName && !(← at_ .colon) then
      let name : Name := ⟨current.span, key.name.getD ""⟩
      withDefault g current.span.start (.binding name)
    else
      expect .colon
      patternWithDefault g
  return .property (← spanFrom current.span.start) key.computed value

/-- An element of an array pattern, which may be left out. -/
def bindingElement (g : Grammar) : Parser (Option Pattern) := do
  if ← at_ .comma then return none else return some (← patternWithDefault g)

/-- A pattern of new bindings. -/
def bindingPattern (g : Grammar) : Parser Pattern := do
  let current ← token
  match current.kind with
  | .punct .braceL =>
    bump
    let properties ← patternList g .braceR .restElementLast (some <$> bindingProperty g)
    match properties.getLast? with
    | some (.rest _ (.binding _)) => pure ()
    | some (.rest _ inner) => fatal .restIdentifier inner.span.start
    | _ => pure ()
    expect .braceR
    return .object (← spanFrom current.span.start) properties
  | .punct .bracketL =>
    bump
    let elements ← patternList g .bracketR .restElementLast (bindingElement g)
    expect .bracketR
    return .array (← spanFrom current.span.start) elements
  | _ => return .binding (← bindingName)

/-- A parameter list with its parentheses. -/
def parameters (g : Grammar) : Parser (List Pattern) := do
  expect .parenL
  let list ← patternList g .parenR .restLast (some <$> patternWithDefault g)
  expect .parenR
  return list

end ModuleInterop.Syntax.Parser
