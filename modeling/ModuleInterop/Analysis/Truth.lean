import ModuleInterop.Syntax.Tree

/-!
# Known conditions

What can be told of the truth of a condition without running it.  Only literals, negation, equality
of literals of one kind, conjunction and disjunction are looked at; of all else nothing is known.
-/

set_option autoImplicit false

namespace ModuleInterop.Syntax

/-- Conjunction when each side may be unknown: one false side decides. -/
def knownAnd : Option Bool → Option Bool → Option Bool
  | some false, _ | _, some false => some false
  | some true, some true => some true
  | _, _ => none

/-- Disjunction when each side may be unknown: one true side decides. -/
def knownOr : Option Bool → Option Bool → Option Bool
  | some true, _ | _, some true => some true
  | some false, some false => some false
  | _, _ => none

/-- Whether a literal counts as true. -/
def Literal.truth? : Literal → Option Bool
  | .boolean b => some b
  | .null => some false
  | .number n => some (!n.isZero)
  | .string s => some (s != "")
  | .regex => some true
  | .bigint => none

/-- Whether two literals are equal, if they are of one kind.  A regular expression is an object of
its own each time. -/
def Literal.equal? : Literal → Literal → Option Bool
  | .boolean a, .boolean b => some (a == b)
  | .null, .null => some true
  | .number a, .number b => some (a == b)
  | .string a, .string b => some (a == b)
  | .regex, .regex => some false
  | _, _ => none

/-- The literal that an expression is, parentheses aside. -/
def Expr.literal? : Expr → Option Literal
  | .literal _ value => some value
  | .paren _ inner => inner.literal?
  | _ => none

/-- Whether two expressions are equal, as far as that is known. -/
def Expr.equal? (left right : Expr) : Option Bool := do
  (← left.literal?).equal? (← right.literal?)

/-- Whether an expression counts as true, as far as that is known. -/
def Expr.truth? : Expr → Option Bool
  | .literal _ value => value.truth?
  | .paren _ inner => inner.truth?
  | .unary _ .not operand => operand.truth?.map not
  | .logical _ .and left right => knownAnd left.truth? right.truth?
  | .logical _ .or left right => knownOr left.truth? right.truth?
  | .binary _ .equal left right | .binary _ .equalStrict left right => left.equal? right
  | .binary _ .notEqual left right | .binary _ .notEqualStrict left right =>
    (left.equal? right).map not
  | _ => none

/-- Whether an expression counts as false, as far as that is known. -/
def Expr.falsity? (e : Expr) : Option Bool := e.truth?.map not

end ModuleInterop.Syntax
