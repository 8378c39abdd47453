import ModuleInterop.Syntax.Parser.Basic

/-!
# Expressions as targets

What stands before an assignment operator has been read as an expression.  Here it becomes the
pattern that is stored to: a name, a member, or an array or object of such.  Parentheses around a
name or a member are dropped.
-/

set_option autoImplicit false

namespace ModuleInterop.Syntax.Parser

/-- The place that an expression denotes: a name or a member. -/
def placeOf : Expr → Parser Expr
  | .name span text => return .name span text
  | .member span object property => return .member span object property
  | .privateMember span object => return .privateMember span object
  | .index span object key => return .index span object key
  | .paren span inner =>
    match inner with
    | .object _ _ _ | .array _ _ _ => fatal .cannotAssign span.start
    | inner => placeOf inner
  | other => fatal .cannotAssign other.span.start

/-- The default of a shorthand property has found its target. -/
def settleDefault (span : Span) : Parser Unit :=
  modify fun state =>
    { state with pendingDefaults := state.pendingDefaults.filter fun s => s.start != span.start }

mutual

/-- The pattern that an expression denotes. -/
def targetOf : Expr → Parser Pattern
  | .array span elements comma => return .array span (← elementTargets comma elements)
  | .object span properties comma => return .object span (← propertyTargets comma properties)
  | other => return .target (← placeOf other)

/-- The pattern that an element denotes, which may have a default. -/
def elementTarget : Expr → Parser Pattern
  | .assign span plain target value =>
    if plain then return .withDefault span target value else fatal .cannotAssign span.start
  | .array span elements comma => return .array span (← elementTargets comma elements)
  | .object span properties comma => return .object span (← propertyTargets comma properties)
  | other => return .target (← placeOf other)

/-- The patterns that the elements of an array denote; elements left out are dropped. -/
def elementTargets (comma : Option Nat) : List Expr → Parser (List Pattern)
  | [] => return []
  | .spread span inner :: others => do
    if !others.isEmpty then fatal .spreadLast span.start
    let target ← targetOf inner
    match comma with
    | some offset => report .restTrailingComma offset
    | none => pure ()
    return [.rest span target]
  | .hole _ :: others => elementTargets comma others
  | element :: others => do
    let target ← elementTarget element
    return target :: (← elementTargets comma others)

/-- The patterns that the properties of an object denote. -/
def propertyTargets (comma : Option Nat) : List Property → Parser (List Pattern)
  | [] => return []
  | .spread span inner :: others => do
    if !others.isEmpty then fatal .spreadLast span.start
    let target ← targetOf inner
    match comma with
    | some offset => report .restTrailingComma offset
    | none => pure ()
    return [.rest span target]
  | .shorthand span name default :: others => do
    settleDefault span
    return .shorthand span name default :: (← propertyTargets comma others)
  | .keyed span _ computed value :: others => do
    let target ← elementTarget value
    return .property span computed target :: (← propertyTargets comma others)

end

end ModuleInterop.Syntax.Parser
