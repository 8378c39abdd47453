import ModuleInterop.Syntax.Tree
import ModuleInterop.Proofs.Syntax.StringValue

/-!
# Evaluating conditions

What running an expression can lead to.  Literals, parentheses, negation, conjunction, disjunction and
the comparisons for equality follow the rules of the language.  All other expressions are left to a
`World`: it says which values they can give and what becomes of the state, and also what a loose
comparison answers when it has to convert.  An expression that does not end normally has no evaluation.
-/

set_option autoImplicit false

namespace ModuleInterop.Syntax

/-- Numbers: a magnitude with its sign, or the one that is not a number. -/
inductive Number where
  | nan
  | signed (negative : Bool) (magnitude : Double)

/-- Whether two numbers are equal: nothing equals `nan`, and the two zeros are equal. -/
def Number.equals : Number → Number → Bool
  | .signed s a, .signed t b => a == b && (s == t || a.isZero)
  | _, _ => false

/-- Values.  A string is its UTF-16 units; a symbol and an object have an identity, and an object of the
one sort that counts as false is `hidden`. -/
inductive Value where
  | undefined
  | null
  | boolean (b : Bool)
  | number (n : Number)
  | bigint (n : Int)
  | string (units : List Nat)
  | symbol (identity : Nat)
  | object (identity : Nat) (hidden : Bool)

namespace Value

/-- Whether a value counts as true. -/
def truth : Value → Bool
  | .undefined | .null | .number .nan => false
  | .boolean b => b
  | .number (.signed _ magnitude) => !magnitude.isZero
  | .bigint n => n != 0
  | .string units => !units.isEmpty
  | .symbol _ => true
  | .object _ hidden => !hidden

/-- Whether two values are of one type. -/
def sameType : Value → Value → Bool
  | .undefined, .undefined | .null, .null | .boolean _, .boolean _ | .number _, .number _
  | .bigint _, .bigint _ | .string _, .string _ | .symbol _, .symbol _
  | .object _ _, .object _ _ => true
  | _, _ => false

/-- Strict equality. -/
def equals : Value → Value → Bool
  | .undefined, .undefined | .null, .null => true
  | .boolean a, .boolean b => a == b
  | .number a, .number b => a.equals b
  | .bigint a, .bigint b => a == b
  | .string a, .string b => a == b
  | .symbol a, .symbol b => a == b
  | .object a _, .object b _ => a == b
  | _, _ => false

end Value

/-- Expressions that have an evaluation rule of their own. -/
def Expr.isRuled : Expr → Bool
  | .literal _ _ | .paren _ _ | .unary _ .not _ | .logical _ .and _ _ | .logical _ .or _ _ => true
  | .binary _ op _ _ => op != .other
  | _ => false

/-- What surrounds the conditions that are evaluated. -/
structure World where
  State : Type
  /-- What is written between the quotes of the string at a place. -/
  written : Span → List TextUnit
  /-- The objects that exist. -/
  exist : State → Nat → Prop
  /-- The creation of an object: its identity, and the state after it. -/
  creates : State → Nat → State → Prop
  fresh : ∀ {s identity s'}, creates s identity s' → ¬ exist s identity ∧ exist s' identity
  /-- What an expression without a rule can give. -/
  gives : Expr → State → Value → State → Prop
  /-- What a loose comparison of values of two types can answer. -/
  converts : Value → Value → State → Bool → State → Prop

namespace World

/-- The evaluation of the literal at a place. -/
inductive Reads (w : World) (place : Span) : Literal → w.State → Value → w.State → Prop
  | null {s : w.State} : Reads w place .null s .null s
  | boolean {b : Bool} {s : w.State} : Reads w place (.boolean b) s (.boolean b) s
  | number {n : Double} {s : w.State} :
    Reads w place (.number n) s (.number (.signed false n)) s
  | bigint {n : Int} {s : w.State} : Reads w place .bigint s (.bigint n) s
  | string {text : String} {s : w.State} (kept : unitsValue (w.written place) = text) :
    Reads w place (.string text) s (.string (value16 (w.written place))) s
  | regex {identity : Nat} {s s' : w.State} (created : w.creates s identity s') :
    Reads w place .regex s (.object identity false) s'

/-- Loose equality: strict for values of one type, and otherwise as the world converts them. -/
def Compares (w : World) (v u : Value) (s : w.State) (answer : Bool) (s' : w.State) : Prop :=
  if v.sameType u then answer = v.equals u ∧ s' = s else w.converts v u s answer s'

/-- Running an expression in a state can end with a value and a state. -/
inductive Evaluates (w : World) : Expr → w.State → Value → w.State → Prop
  | literal {place : Span} {value : Literal} {s s' : w.State} {v : Value}
      (reads : w.Reads place value s v s') : Evaluates w (.literal place value) s v s'
  | paren {span : Span} {inner : Expr} {s s' : w.State} {v : Value}
      (run : Evaluates w inner s v s') : Evaluates w (.paren span inner) s v s'
  | not {span : Span} {operand : Expr} {s s' : w.State} {v : Value}
      (run : Evaluates w operand s v s') :
    Evaluates w (.unary span .not operand) s (.boolean !v.truth) s'
  | andFalse {span : Span} {left right : Expr} {s s' : w.State} {v : Value}
      (run : Evaluates w left s v s') (decided : v.truth = false) :
    Evaluates w (.logical span .and left right) s v s'
  | andTrue {span : Span} {left right : Expr} {s₀ s₁ s₂ : w.State} {v u : Value}
      (first : Evaluates w left s₀ v s₁) (decided : v.truth = true)
      (second : Evaluates w right s₁ u s₂) : Evaluates w (.logical span .and left right) s₀ u s₂
  | orTrue {span : Span} {left right : Expr} {s s' : w.State} {v : Value}
      (run : Evaluates w left s v s') (decided : v.truth = true) :
    Evaluates w (.logical span .or left right) s v s'
  | orFalse {span : Span} {left right : Expr} {s₀ s₁ s₂ : w.State} {v u : Value}
      (first : Evaluates w left s₀ v s₁) (decided : v.truth = false)
      (second : Evaluates w right s₁ u s₂) : Evaluates w (.logical span .or left right) s₀ u s₂
  | equalStrict {span : Span} {left right : Expr} {s₀ s₁ s₂ : w.State} {v u : Value}
      (first : Evaluates w left s₀ v s₁) (second : Evaluates w right s₁ u s₂) :
    Evaluates w (.binary span .equalStrict left right) s₀ (.boolean (v.equals u)) s₂
  | notEqualStrict {span : Span} {left right : Expr} {s₀ s₁ s₂ : w.State} {v u : Value}
      (first : Evaluates w left s₀ v s₁) (second : Evaluates w right s₁ u s₂) :
    Evaluates w (.binary span .notEqualStrict left right) s₀ (.boolean !(v.equals u)) s₂
  | equal {span : Span} {left right : Expr} {s₀ s₁ s₂ s₃ : w.State} {v u : Value} {answer : Bool}
      (first : Evaluates w left s₀ v s₁) (second : Evaluates w right s₁ u s₂)
      (compared : w.Compares v u s₂ answer s₃) :
    Evaluates w (.binary span .equal left right) s₀ (.boolean answer) s₃
  | notEqual {span : Span} {left right : Expr} {s₀ s₁ s₂ s₃ : w.State} {v u : Value} {answer : Bool}
      (first : Evaluates w left s₀ v s₁) (second : Evaluates w right s₁ u s₂)
      (compared : w.Compares v u s₂ answer s₃) :
    Evaluates w (.binary span .notEqual left right) s₀ (.boolean !answer) s₃
  | other {e : Expr} {s s' : w.State} {v : Value} (unruled : e.isRuled = false)
      (given : w.gives e s v s') : Evaluates w e s v s'

/-- A world in which the strings are those of a source, objects are numbered as they are created, and an
expression without a rule can give every value and changes nothing. -/
def ofSource (source : List Char) : World where
  State := Nat
  written := writtenAt source
  exist count identity := identity < count
  creates count identity count' := identity = count ∧ count' = count + 1
  fresh := by rintro _ _ _ ⟨rfl, rfl⟩; simp
  gives _ count _ count' := count' = count
  converts _ _ count _ count' := count' = count

end World

end ModuleInterop.Syntax
