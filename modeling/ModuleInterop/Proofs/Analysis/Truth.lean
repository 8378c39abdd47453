import ModuleInterop.Analysis.Truth
import ModuleInterop.Proofs.Analysis.Evaluation
import ModuleInterop.Syntax.Parser.Module
import Mathlib

/-!
# Conditions that are known are right

Where a condition is known to be true or false, each evaluation of it that ends normally gives a value of
this truth (`knownTruth_right`).  The proof is by induction on the evaluation.  The one case that looks at two
values at once is equality of literals: what is kept of two literals of one kind tells whether the values
are equal (`Reads.equal?_right`), and for strings this needs that no surrogate is without its partner.
A lone surrogate is kept as a text that another string can have as well (`surrogate_taken_for_text`).
-/

set_option autoImplicit false

namespace ModuleInterop.Syntax

open World

variable {w : World} {s s' : w.State} {v : Value}

/-! ## Knowledge with three values -/

theorem knownAnd_eq_some {a b : Option Bool} {c : Bool} (known : knownAnd a b = some c) :
    (c = false ∧ (a = some false ∨ b = some false)) ∨ (c = true ∧ a = some true ∧ b = some true) := by
  unfold knownAnd at known
  split at known <;> simp_all

theorem knownOr_eq_some {a b : Option Bool} {c : Bool} (known : knownOr a b = some c) :
    (c = true ∧ (a = some true ∨ b = some true)) ∨ (c = false ∧ a = some false ∧ b = some false) := by
  unfold knownOr at known
  split at known <;> simp_all

/-! ## Literals -/

namespace World.Reads

variable {p q : Span} {a b : Literal} {s₀ s₁ s₂ : w.State} {u : Value}

/-- A literal that is known to be true or false has a value of this truth. -/
theorem truth?_right (reads : w.Reads p a s v s') {c : Bool} (known : a.truth? = some c) :
    v.truth = c := by
  cases reads with
  | string kept =>
    obtain rfl := Option.some.inj known
    subst kept
    rw [Value.truth, Bool.eq_iff_iff]
    simp [unitsValue_eq_empty_iff]
  | bigint => contradiction
  | _ =>
    obtain rfl := Option.some.inj known
    rfl

/-- **Equality of literals** of one kind is the one of their values: a number is kept as it is, a
regular expression is an object of its own, and the text of a string without lone surrogates tells it. -/
theorem equal?_right (first : w.Reads p a s₀ v s₁) (second : w.Reads q b s₁ u s₂)
    (whole : ∀ x y, a = .string x → b = .string y → Whole (w.written p) ∧ Whole (w.written q))
    {c : Bool} (known : a.equal? b = some c) : v.sameType u = true ∧ v.equals u = c := by
  cases first <;> cases second <;> try contradiction
  case null.null => exact ⟨rfl, Option.some.inj known⟩
  case boolean.boolean => exact ⟨rfl, Option.some.inj known⟩
  case number.number =>
    obtain rfl := Option.some.inj known
    exact ⟨rfl, by simp [Value.equals, Number.equals]⟩
  case string.string x keptA y keptB =>
    obtain ⟨wholeA, wholeB⟩ := whole x y rfl rfl
    have told := wholeA.unitsValue_eq_iff wholeB
    rw [keptA, keptB] at told
    obtain rfl := Option.some.inj known
    exact ⟨rfl, by simp [Value.equals, told]⟩
  case regex.regex i made j madeNext =>
    obtain rfl := Option.some.inj known
    have other : i ≠ j := fun same => (w.fresh madeNext).1 (same ▸ (w.fresh made).2)
    exact ⟨rfl, by simp [Value.equals, other]⟩

end World.Reads

/-! ## Expressions -/

/-- The place of the string that an expression is, parentheses aside. -/
def Expr.strings : Expr → List Span
  | .literal place (.string _) => [place]
  | .paren _ inner => inner.strings
  | _ => []

/-- The places of the strings that are compared with one another to tell the truth of an expression. -/
def Expr.compared : Expr → List (Span × Span)
  | .paren _ inner => inner.compared
  | .unary _ .not operand => operand.compared
  | .logical _ .and left right | .logical _ .or left right => left.compared ++ right.compared
  | .binary _ .other _ _ => []
  | .binary _ _ left right => left.strings.product right.strings
  | _ => []

/-- No string that is compared has a lone surrogate. -/
def World.Plain (w : World) (e : Expr) : Prop :=
  ∀ pair ∈ e.compared, Whole (w.written pair.1) ∧ Whole (w.written pair.2)

instance (w : World) (e : Expr) : Decidable (w.Plain e) :=
  inferInstanceAs (Decidable (∀ pair ∈ e.compared,
    Whole (w.written pair.1) ∧ Whole (w.written pair.2)))

/-- An expression that is a literal evaluates as this literal. -/
theorem World.Evaluates.reads_literal {e : Expr} {value : Literal} (run : w.Evaluates e s v s')
    (is : e.literal? = some value) :
    ∃ place, w.Reads place value s v s' ∧ ∀ text, value = .string text → place ∈ e.strings := by
  induction run with
  | @literal place _ _ _ _ reads =>
    obtain rfl := Option.some.inj is
    refine ⟨place, reads, fun text string => ?_⟩
    subst string
    exact List.mem_singleton_self place
  | paren run ih => exact ih is
  | @other e _ _ _ unruled _ => cases e <;> contradiction
  | _ => contradiction

/-- Two expressions that are known to be equal or not have values for which this is so. -/
theorem Expr.equal?_right {left right : Expr} {s₀ s₁ s₂ : w.State} {u : Value}
    (whole : ∀ pair ∈ left.strings.product right.strings,
      Whole (w.written pair.1) ∧ Whole (w.written pair.2))
    (first : w.Evaluates left s₀ v s₁) (second : w.Evaluates right s₁ u s₂) {c : Bool}
    (known : left.equal? right = some c) : v.sameType u = true ∧ v.equals u = c := by
  obtain ⟨a, isA, known⟩ := Option.bind_eq_some_iff.mp known
  obtain ⟨b, isB, known⟩ := Option.bind_eq_some_iff.mp known
  obtain ⟨p, first, placeA⟩ := first.reads_literal isA
  obtain ⟨q, second, placeB⟩ := second.reads_literal isB
  refine first.equal?_right second (fun x y stringA stringB => ?_) known
  exact whole (p, q) (List.pair_mem_product.mpr ⟨placeA x stringA, placeB y stringB⟩)

/-- A comparison of values of one type leaves the state alone and is strict. -/
theorem World.Compares.strict {u : Value} {answer : Bool} (compared : w.Compares v u s answer s')
    (type : v.sameType u = true) : answer = v.equals u := by
  rw [World.Compares, if_pos type] at compared
  exact compared.1

theorem World.Evaluates.truth_of_known {e : Expr} (run : w.Evaluates e s v s') (plain : w.Plain e)
    {c : Bool} (known : e.truth? = some c) : v.truth = c := by
  induction run generalizing c with
  | literal reads => exact reads.truth?_right known
  | paren run ih => exact ih plain known
  | not run ih =>
    obtain ⟨d, inner, rfl⟩ := Option.map_eq_some_iff.mp known
    exact congrArg Bool.not (ih plain inner)
  | andFalse run decided ih =>
    obtain ⟨rfl, -⟩ | ⟨rfl, known, -⟩ := knownAnd_eq_some known
    · exact decided
    · exact ih (fun pair mem => plain pair (List.mem_append_left _ mem)) known
  | andTrue first decided second ihFirst ihSecond =>
    have plainLeft := fun pair mem => plain pair (List.mem_append_left _ mem)
    have plainRight := fun pair mem => plain pair (List.mem_append_right _ mem)
    obtain ⟨rfl, known | known⟩ | ⟨rfl, -, known⟩ := knownAnd_eq_some known
    · -- The left side is known to be false, and then it would have decided.
      exact absurd (ihFirst plainLeft known) (by simp [decided])
    · exact ihSecond plainRight known
    · exact ihSecond plainRight known
  | orTrue run decided ih =>
    obtain ⟨rfl, -⟩ | ⟨rfl, known, -⟩ := knownOr_eq_some known
    · exact decided
    · exact ih (fun pair mem => plain pair (List.mem_append_left _ mem)) known
  | orFalse first decided second ihFirst ihSecond =>
    have plainLeft := fun pair mem => plain pair (List.mem_append_left _ mem)
    have plainRight := fun pair mem => plain pair (List.mem_append_right _ mem)
    obtain ⟨rfl, known | known⟩ | ⟨rfl, -, known⟩ := knownOr_eq_some known
    · exact absurd (ihFirst plainLeft known) (by simp [decided])
    · exact ihSecond plainRight known
    · exact ihSecond plainRight known
  | equalStrict first second => exact (Expr.equal?_right plain first second known).2
  | notEqualStrict first second =>
    obtain ⟨d, same, rfl⟩ := Option.map_eq_some_iff.mp known
    exact congrArg Bool.not (Expr.equal?_right plain first second same).2
  | equal first second compared =>
    obtain ⟨type, same⟩ := Expr.equal?_right plain first second known
    exact (compared.strict type).trans same
  | notEqual first second compared =>
    obtain ⟨d, equal, rfl⟩ := Option.map_eq_some_iff.mp known
    obtain ⟨type, same⟩ := Expr.equal?_right plain first second equal
    exact congrArg Bool.not ((compared.strict type).trans same)
  | @other e _ _ _ unruled _ =>
    -- Of an expression without a rule nothing is known.
    unfold Expr.truth? at known
    unfold Expr.isRuled at unruled
    split at known <;> simp_all

/-- **What is known of a condition is right**: an evaluation that ends normally gives a value that counts
as true exactly if the condition is known to be true, or known not to be false. -/
theorem knownTruth_right {e : Expr} (plain : w.Plain e) (run : w.Evaluates e s v s') :
    (∀ c, e.truth? = some c → v.truth = c) ∧ ∀ c, e.falsity? = some c → v.truth = !c := by
  refine ⟨fun c known => run.truth_of_known plain known, fun c known => ?_⟩
  obtain ⟨d, truth, rfl⟩ := Option.map_eq_some_iff.mp known
  rw [Bool.not_not]
  exact run.truth_of_known plain truth

/-- Here `x` counts as true, so that the comparison decides; the condition is known to be false. -/
theorem comparison_decides :
    ∃ (w : World) (e : Expr) (s s' : w.State) (v : Value),
      parseModule "x && 'a' != 'a'".toList = .ok ⟨[.expression ⟨0, 15⟩ e]⟩ ∧
      w.Plain e ∧ w.Evaluates e s v s' ∧ e.truth? = some false ∧ e.falsity? = some true ∧
      v.truth = false := by
  let w : World := .ofSource "x && 'a' != 'a'".toList
  let comparison : Expr :=
    .binary ⟨5, 15⟩ .notEqual (.literal ⟨5, 8⟩ (.string "a")) (.literal ⟨12, 15⟩ (.string "a"))
  let e : Expr := .logical ⟨0, 15⟩ .and (.name ⟨0, 1⟩ "x") comparison
  have plain : w.Plain e := by decide
  have reads (place : Span) (kept : unitsValue (w.written place) = "a") :
      w.Evaluates (.literal place (.string "a")) (0 : Nat) (.string (value16 (w.written place)))
        (0 : Nat) := .literal (.string kept)
  have first : w.Evaluates (.name ⟨0, 1⟩ "x") (0 : Nat) (.string [120]) (0 : Nat) := .other rfl rfl
  have second : w.Evaluates comparison (0 : Nat) (.boolean !true) (0 : Nat) :=
    .notEqual (reads ⟨5, 8⟩ (by decide)) (reads ⟨12, 15⟩ (by decide)) ⟨by decide, rfl⟩
  have run : w.Evaluates e (0 : Nat) (.boolean false) (0 : Nat) := .andTrue first rfl second
  exact ⟨w, e, _, _, _, by cbv, plain, run, rfl, rfl, (knownTruth_right plain run).1 false rfl⟩

/-- A lone surrogate and the text that is kept for it are not equal, but they are taken to be. -/
theorem surrogate_taken_for_text :
    ∃ (w : World) (e : Expr) (s s' : w.State) (v : Value),
      parseModule "'\\uD800' === '\\uFFFDd800'".toList = .ok ⟨[.expression ⟨0, 25⟩ e]⟩ ∧
      w = .ofSource "'\\uD800' === '\\uFFFDd800'".toList ∧ w.Evaluates e s v s' ∧
      e.truth? = some true ∧ v.truth = false := by
  let w : World := .ofSource "'\\uD800' === '\\uFFFDd800'".toList
  let literal (place : Span) : Expr := .literal place (.string "\uFFFDd800")
  have reads (place : Span) (kept : unitsValue (w.written place) = "\uFFFDd800") :
      w.Evaluates (literal place) (0 : Nat) (.string (value16 (w.written place))) (0 : Nat) :=
    .literal (.string kept)
  have run : w.Evaluates (.binary ⟨0, 25⟩ .equalStrict (literal ⟨0, 8⟩) (literal ⟨13, 25⟩)) (0 : Nat)
      _ (0 : Nat) := .equalStrict (reads ⟨0, 8⟩ (by decide)) (reads ⟨13, 25⟩ (by decide))
  exact ⟨w, _, _, _, _, by cbv, rfl, run, rfl, by decide⟩

end ModuleInterop.Syntax
