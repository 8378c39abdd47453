import ModuleInterop.Proofs.Syntax.Accepted.Basic

/-!
# Names and calls that are accepted

A name is an expression where the token after it ends one, and so is the call of a name with another one
(`ParseState.Faces.assignment`).  A name that is the word `async` would begin a function or an arrow
function before some tokens, and the operators of all levels are looked for in vain.
-/

set_option autoImplicit false

namespace ModuleInterop.Syntax

variable {c : Context} {s : ParseState} {names : List String} {kind next : TokenKind}
  {row rest : List TokenKind} {text : String} {keyword : Option Keyword} {g : Grammar}

/-- A token ends an expression that it follows. -/
inductive EndsExpression : TokenKind → Prop
  | endOfInput : EndsExpression .endOfInput
  | semicolon : EndsExpression (.punct .semicolon)
  | parenR : EndsExpression (.punct .parenR)

/-- A token goes on with an expression by arguments, or ends it. -/
inductive FollowsName (keyword : Option Keyword) : TokenKind → Prop
  | ends {kind : TokenKind} : EndsExpression kind → FollowsName keyword kind
  | arguments : keyword = none → FollowsName keyword (.punct .parenL)

namespace ParseState.Faces

theorem decorators (h : s.Faces names (kind :: row)) (other : kind ≠ .punct .at) :
    (Parser.decorators g).Succeeds c s fun list s' => list = [] ∧ s' = s := by
  unfold Parser.decorators
  refine h.iterate_stops (.after (h.eat_other other) ?_)
  rw [if_neg Bool.false_ne_true]
  exact Parser.succeeds_pure ⟨_, rfl, rfl, rfl⟩

/-- A token of a punctuator is no word. -/
theorem isWord_next (h : s.Faces names (kind :: next :: row)) (follows : FollowsName keyword next)
    (k : Keyword) : Parser.isWord (nextToken s.pos s.rest).token k = false := by
  rw [Parser.isWord, h.next_eq]
  cases follows with
  | ends last => cases last <;> rfl
  | arguments => rfl

/-- No function begins with a name. -/
theorem atFunction (h : s.Faces names (.word text keyword :: next :: row)) (free : FreeWord keyword)
    (follows : FollowsName keyword next) : Parser.atFunction c s = .ok (false, s) := by
  have noFunction : Parser.isWord s.token .function = false :=
    h.isWord_eq fun t same => by
      have reserved := (free _ (TokenKind.word.inj same).2).1
      contradiction
  refine Parser.Succeeds.run_eq ?_
  unfold Parser.atFunction
  apply Parser.succeeds_atWord.mpr
  rw [noFunction, if_neg Bool.false_ne_true]
  apply Parser.succeeds_atWord.mpr
  split
  · apply Parser.succeeds_nextToken.mpr
    rw [h.isWord_next follows, Bool.false_and]
    exact Parser.succeeds_pure ⟨rfl, rfl⟩
  · exact Parser.succeeds_pure ⟨rfl, rfl⟩

theorem primary (h : s.Faces names (.word text keyword :: next :: row)) (free : FreeWord keyword)
    (follows : FollowsName keyword next) :
    (Parser.primary g).Succeeds c s fun e s' =>
      (∃ span, e = .name span text) ∧ s'.Faces names (next :: row) := by
  unfold Parser.primary
  refine (h.decorators nofun).bind fun list s₁ ⟨unmarked, same⟩ => ?_
  subst unmarked
  subst same
  apply Parser.succeeds_token.mpr
  rw [if_neg (by simp)]
  refine .after (h.atFunction free follows) ?_
  rw [if_neg Bool.false_ne_true, if_pos (h.isName free)]
  exact h.reference free

/-- What ends an expression, or begins arguments, is no access. -/
theorem accesses (h : s.Faces names (kind :: row)) (follows : FollowsName keyword kind) (first : Nat)
    (object : Expr) (isChain : Bool) :
    (Parser.accesses g first object isChain).Succeeds c s fun r s' =>
      r = (object, isChain) ∧ s' = s := by
  unfold Parser.accesses
  refine h.iterate_stops (Parser.succeeds_token.mpr ?_)
  rw [h.kind_eq]
  cases follows with
  | ends last => cases last <;> exact Parser.succeeds_pure ⟨_, rfl, rfl, rfl⟩
  | arguments => exact Parser.succeeds_pure ⟨_, rfl, rfl, rfl⟩

theorem memberExpression (h : s.Faces names (.word text keyword :: next :: row))
    (free : FreeWord keyword) (follows : FollowsName keyword next) :
    (Parser.memberExpression g).Succeeds c s fun r s' =>
      (∃ span, r = (.name span text, false)) ∧ s'.Faces names (next :: row) := by
  unfold Parser.memberExpression
  apply Parser.succeeds_start.mpr
  refine (h.primary free follows).bind fun e s₁ ⟨⟨span, name⟩, h₁⟩ => ?_
  refine (h₁.accesses follows _ e false).mono ?_
  rintro _ _ ⟨rfl, rfl⟩
  exact ⟨⟨span, by rw [name]⟩, h₁⟩

theorem arguments (h : s.Faces names (.punct .parenL :: .word text keyword :: row))
    {good : Expr → Prop}
    (argument : ∀ c s, s.Faces names (.word text keyword :: row) →
      g.assignment.Succeeds c s fun e s' => good e ∧ s'.Faces names (.punct .parenR :: next :: rest)) :
    (Parser.arguments g).Succeeds c s fun list s' =>
      (∃ e, list = [e] ∧ good e) ∧ s'.Faces names (next :: rest) := by
  unfold Parser.arguments
  refine h.expect.bind fun _ s₁ h₁ => ?_
  have element (c : Context) : Parser.Succeeds
      (do if ← Parser.at_ .ellipsis then Parser.spread g else g.assignment) c s₁ fun e s' =>
        good e ∧ s'.Faces names (.punct .parenR :: next :: rest) := by
    apply Parser.succeeds_at.mpr
    rw [h₁.kind_eq, if_neg (by simp)]
    exact argument _ _ h₁
  refine Parser.Succeeds.bind (Parser.succeeds_withReader.mpr
    (h₁.delimited nofun ⟨nofun, nofun⟩ (element _))) fun r s₂ ⟨one, h₂⟩ => ?_
  refine h₂.expect.bind fun _ s₃ h₃ => ?_
  exact Parser.succeeds_pure ⟨one, h₃⟩

end ParseState.Faces

/-- The tokens of a name, or of a call of a name with another one as its argument, and what they are read
as. -/
inductive Operand : List TokenKind → (Expr → Prop) → Prop
  | name {text : String} {keyword : Option Keyword} : FreeWord keyword →
      Operand [.word text keyword] fun e => ∃ span, e = .name span text
  | call {callee text : String} {keyword : Option Keyword} : FreeWord keyword →
      Operand [.word callee none, .punct .parenL, .word text keyword, .punct .parenR] fun e =>
        ∃ span span' span'', e = .call span (.name span' callee) [.name span'' text]

namespace ParseState.Faces

/-- What an operand begins with is read first.  It is all of the operand, or the arguments of a call follow. -/
theorem operandHead {tokens : List TokenKind} {means : Expr → Prop} (operand : Operand tokens means)
    (h : s.Faces names (tokens ++ next :: row)) (ends : EndsExpression next) :
    (Parser.memberExpression g).Succeeds c s fun r s₁ => r.2 = false ∧
      ((means r.1 ∧ s₁.Faces names (next :: row)) ∨
        ∃ callee text keyword, (∃ span, r.1 = .name span callee) ∧
          (tokens.length ≠ 1 ∧ FreeWord keyword) ∧
          s₁.Faces names (.punct .parenL :: .word text keyword :: .punct .parenR :: next :: row) ∧
          ∀ span span' span'', means (.call span (.name span' callee) [.name span'' text])) := by
  cases operand with
  | name free =>
    refine (h.memberExpression free (.ends ends)).mono ?_
    rintro _ s₁ ⟨⟨span, rfl⟩, h₁⟩
    exact ⟨rfl, .inl ⟨⟨span, rfl⟩, h₁⟩⟩
  | call free =>
    refine (h.memberExpression nofun (.arguments rfl)).mono ?_
    rintro _ s₁ ⟨⟨span, rfl⟩, h₁⟩
    exact ⟨rfl, .inr ⟨_, _, _, ⟨span, rfl⟩, ⟨nofun, free⟩, h₁, fun _ _ _ => ⟨_, _, _, rfl⟩⟩⟩

/-- A name, or the call of one with an argument that is accepted itself. -/
theorem operandExpression {tokens : List TokenKind} {means : Expr → Prop} (operand : Operand tokens means)
    (h : s.Faces names (tokens ++ next :: row)) (ends : EndsExpression next)
    (argument : tokens.length ≠ 1 → ∀ c s text keyword, FreeWord keyword →
      s.Faces names (.word text keyword :: .punct .parenR :: next :: row) →
      g.assignment.Succeeds c s fun e s' =>
        (∃ span, e = .name span text) ∧ s'.Faces names (.punct .parenR :: next :: row)) :
    (Parser.operandExpression g).Succeeds c s fun e s' => means e ∧ s'.Faces names (next :: row) := by
  unfold Parser.operandExpression
  apply Parser.succeeds_start.mpr
  refine (h.operandHead operand ends).bind fun r s₁ ⟨plain, reached⟩ => ?_
  let settled (r : Expr × Bool) (s' : ParseState) :=
    r.2 = false ∧ means r.1 ∧ s'.Faces names (next :: row)
  have row₁ : ∃ row, s₁.Faces names row := by
    rcases reached with ⟨_, h₁⟩ | ⟨_, _, _, _, _, h₁, _⟩
    · exact ⟨_, h₁⟩
    · exact ⟨_, h₁⟩
  obtain ⟨row₁, h₁⟩ := row₁
  refine Parser.Succeeds.bind (show Parser.Succeeds _ c s₁ settled from h₁.iterate_upTo
    (fun r => r.2 = false ∧ means r.1) (next :: row) ?_ ?_) ?_
  · rintro ⟨e, _⟩ s₂ ⟨rfl, fits⟩ h₂
    refine (h₂.accesses (show FollowsName none next from .ends ends) _ e false).bind ?_
    rintro _ _ ⟨rfl, rfl⟩
    refine Parser.succeeds_token.mpr (.after (h₂.eat_other (by cases ends <;> simp)) ?_)
    apply Parser.succeeds_token.mpr
    rw [h₂.kind_eq]
    cases ends <;> exact Parser.succeeds_pure ⟨_, rfl, rfl, fits, h₂⟩
  · rcases reached with ⟨fits, h₁⟩ | ⟨callee, text, keyword, ⟨span, name⟩, ⟨several, free⟩, h₁, fits⟩
    · exact .inl ⟨⟨plain, fits⟩, h₁⟩
    · refine .inr ?_
      refine (h₁.accesses (show FollowsName none _ from .arguments rfl) _ r.1 r.2).bind ?_
      rintro _ _ ⟨rfl, rfl⟩
      refine Parser.succeeds_token.mpr (.after (h₁.eat_other nofun) ?_)
      apply Parser.succeeds_token.mpr
      rw [h₁.kind_eq]
      refine (h₁.arguments (argument several · · text keyword free)).bind
        fun list s₂ ⟨⟨e, one, span', same⟩, h₂⟩ => ?_
      refine Parser.succeeds_spanFrom.mpr (Parser.succeeds_pure ⟨_, rfl, ⟨?_, ?_⟩, h₂⟩)
      · rw [plain]
        rfl
      · rw [one, same, name]
        exact fits _ _ _
  · rintro ⟨e, _⟩ s₂ ⟨rfl, fits, h₂⟩
    exact Parser.succeeds_pure ⟨fits, h₂⟩

/-! ## Operators that are not there -/

variable {good : Expr → Prop}

theorem updateExpression (h : s.Faces names (.word text keyword :: row)) (ends : EndsExpression next)
    (operand : (Parser.operandExpression g).Succeeds c s fun e s' =>
      good e ∧ s'.Faces names (next :: rest)) :
    (Parser.updateExpression g).Succeeds c s fun e s' => good e ∧ s'.Faces names (next :: rest) := by
  unfold Parser.updateExpression
  have plain : (Parser.at_ .plusPlus <||> Parser.at_ .minusMinus : Parser Bool) c s = .ok (false, s) := by
    refine Parser.Succeeds.run_eq (Parser.succeeds_at.mpr ?_)
    rw [h.kind_beq_eq nofun]
    apply Parser.succeeds_at.mpr
    rw [h.kind_beq_eq nofun]
    exact Parser.succeeds_pure ⟨rfl, rfl⟩
  refine Parser.succeeds_start.mpr (.after plain ?_)
  rw [if_neg Bool.false_ne_true]
  refine operand.bind fun e s₁ ⟨fits, h₁⟩ => Parser.succeeds_token.mpr ?_
  rw [h₁.kind_eq, if_neg (by cases ends <;> simp)]
  exact Parser.succeeds_pure ⟨fits, h₁⟩

theorem atSuspension (h : s.Faces names (.word text keyword :: row)) {k : Keyword}
    (other : keyword ≠ some k) (inContext : Bool) :
    Parser.atSuspension k inContext c s = .ok (false, s) := by
  refine Parser.Succeeds.run_eq ?_
  unfold Parser.atSuspension
  apply Parser.succeeds_atWord.mpr
  rw [h.isWord_eq (fun t same => other (TokenKind.word.inj same).2), if_neg Bool.false_ne_true]
  exact Parser.succeeds_pure ⟨rfl, rfl⟩

theorem unaryExpression (h : s.Faces names (.word text keyword :: row)) (free : FreeWord keyword)
    (ends : EndsExpression next)
    (operand : (Parser.operandExpression g).Succeeds c s fun e s' =>
      good e ∧ s'.Faces names (next :: rest)) :
    (Parser.unaryExpression g).Succeeds c s fun e s' => good e ∧ s'.Faces names (next :: rest) := by
  have plain : Parser.unaryOp? s.token = none := by
    unfold Parser.unaryOp?
    rw [h.kind_eq]
    cases keyword with
    | none => rfl
    | some k =>
      have reserved := (free k rfl).1
      cases k <;> first | rfl | contradiction
  unfold Parser.unaryExpression
  apply Parser.succeeds_token.mpr
  rw [plain]
  refine Parser.succeeds_read.mpr (.after (h.atSuspension ?_ _) ?_)
  · rintro rfl
    exact (free _ rfl).2.1 rfl
  rw [if_neg Bool.false_ne_true]
  exact h.updateExpression ends operand

theorem binaryExpression (h : s.Faces names (.word text keyword :: row)) (level : Nat)
    (ends : EndsExpression next)
    (operand : g.unary.Succeeds c s fun e s' => good e ∧ s'.Faces names (next :: rest)) :
    (Parser.binaryExpression g level).Succeeds c s fun e s' =>
      good e ∧ s'.Faces names (next :: rest) := by
  have first : (Parser.firstOperand g).Succeeds c s fun e s' =>
      good e ∧ s'.Faces names (next :: rest) := by
    unfold Parser.firstOperand
    apply Parser.succeeds_token.mpr
    rw [h.kind_eq]
    exact operand
  unfold Parser.binaryExpression
  refine Parser.succeeds_start.mpr (first.bind fun e s₁ ⟨fits, h₁⟩ => ?_)
  refine h₁.iterate_stops (Parser.succeeds_read.mpr (Parser.succeeds_token.mpr ?_))
  have none : Parser.infixOp? c.inOperator s₁.token = none := by
    unfold Parser.infixOp?
    rw [h₁.kind_eq]
    cases ends <;> rfl
  rw [none]
  exact Parser.succeeds_pure ⟨_, rfl, fits, h₁⟩

/-- No arrow function begins with a name. -/
theorem guessParameters (h : s.Faces names (.word text keyword :: next :: row))
    (follows : FollowsName keyword next) :
    Parser.guessParameters c s = .ok (.no, s) := by
  refine Parser.succeeds_lookahead (Parser.succeeds_atWord.mpr ?_)
  split
  · rename_i isAsync
    -- A name that is the word `async` ends the expression.
    have other : next ≠ .punct .parenL := by
      rintro rfl
      cases follows with
      | ends last => cases last
      | arguments unnamed =>
        rw [h.isWord_eq (by simp [unnamed])] at isAsync
        contradiction
    refine h.advance.bind fun _ s₁ h₁ => ?_
    apply Parser.succeeds_token.mpr
    rw [h₁.onLine, if_neg Bool.false_ne_true]
    apply Parser.succeeds_at.mpr
    rw [h₁.kind_beq_eq other, Bool.not_false, if_pos rfl]
    exact Parser.succeeds_pure rfl
  · apply Parser.succeeds_at.mpr
    rw [h.kind_beq_eq nofun, Bool.not_false, if_pos rfl]
    exact Parser.succeeds_pure rfl

theorem atAsyncArrow (h : s.Faces names (.word text keyword :: next :: row))
    (follows : FollowsName keyword next) :
    Parser.atAsyncArrow c s = .ok (false, s) := by
  refine Parser.succeeds_lookahead (Parser.succeeds_atWord.mpr ?_)
  split
  · exact Parser.succeeds_pure rfl
  refine h.advance.bind fun _ s₁ h₁ => ?_
  apply Parser.succeeds_token.mpr
  have noName : s₁.token.kind.isName = false := by
    rw [h₁.kind_eq]
    cases follows with
    | ends last => cases last <;> rfl
    | arguments => rfl
  rw [noName, Bool.not_false, Bool.or_true, if_pos rfl]
  exact Parser.succeeds_pure rfl

theorem assignmentExpression (h : s.Faces names (.word text keyword :: kind :: row))
    (free : FreeWord keyword) (follows : FollowsName keyword kind) (ends : EndsExpression next)
    (operand : (g.binary 0).Succeeds c s fun e s' => good e ∧ s'.Faces names (next :: rest)) :
    (Parser.assignmentExpression g).Succeeds c s fun e s' => good e ∧ s'.Faces names (next :: rest) := by
  have noArrow : Parser.parenthesizedArrow? g c s = .ok (none, s) := by
    refine Parser.Succeeds.run_eq ?_
    unfold Parser.parenthesizedArrow?
    exact Parser.succeeds_start.mpr (.after (h.guessParameters follows)
      (Parser.succeeds_pure ⟨rfl, rfl⟩))
  unfold Parser.assignmentExpression
  refine Parser.succeeds_read.mpr (.after (h.atSuspension ?_ _) ?_)
  · rintro rfl
    exact (free _ rfl).2.2 rfl
  rw [if_neg Bool.false_ne_true]
  refine .after noArrow (Parser.succeeds_start.mpr (.after (h.atAsyncArrow follows) ?_))
  rw [if_neg Bool.false_ne_true]
  refine operand.bind fun e s₁ ⟨fits, h₁⟩ => Parser.succeeds_token.mpr ?_
  have noAssign : Parser.assignmentOp? s₁.token = none := by
    unfold Parser.assignmentOp?
    rw [h₁.kind_eq]
    cases ends <;> rfl
  split
  · rename_i arrow _
    rw [h₁.kind_eq] at arrow
    cases ends <;> contradiction
  · rw [noAssign]
    unfold Parser.conditionalRest
    refine .after (h₁.eat_other (by cases ends <;> simp)) ?_
    rw [if_neg Bool.false_ne_true]
    exact Parser.succeeds_pure ⟨fits, h₁⟩

/-- The operators that an expression may have are passed on three levels of the grammar. -/
theorem assignment_of_operand (h : s.Faces names (.word text keyword :: kind :: row))
    (free : FreeWord keyword) (follows : FollowsName keyword kind) (ends : EndsExpression next)
    {depth : Nat}
    (operand : (Parser.operandExpression (Grammar.level depth)).Succeeds c s fun e s' =>
      good e ∧ s'.Faces names (next :: rest)) :
    (Grammar.level (depth + 3)).assignment.Succeeds c s fun e s' =>
      good e ∧ s'.Faces names (next :: rest) :=
  have unary : (Grammar.level (depth + 1)).unary.Succeeds c s fun e s' =>
      good e ∧ s'.Faces names (next :: rest) := h.unaryExpression free ends operand
  have binary : ((Grammar.level (depth + 2)).binary 0).Succeeds c s fun e s' =>
      good e ∧ s'.Faces names (next :: rest) := h.binaryExpression 0 ends unary
  h.assignmentExpression free follows ends binary

/-- A name is an expression. -/
theorem assignment_name (h : s.Faces names (.word text keyword :: next :: row))
    (free : FreeWord keyword) (ends : EndsExpression next) (depth : Nat) :
    (Grammar.level (depth + 3)).assignment.Succeeds c s fun e s' =>
      (∃ span, e = .name span text) ∧ s'.Faces names (next :: row) :=
  h.assignment_of_operand free (.ends ends) ends
    (ParseState.Faces.operandExpression (.name free) h ends (absurd rfl))

/-- **A name, or the call of one with another, is an expression** of a grammar that is deep enough. -/
theorem assignment {tokens : List TokenKind} {means : Expr → Prop} (operand : Operand tokens means)
    (h : s.Faces names (tokens ++ next :: row)) (ends : EndsExpression next) (depth : Nat) :
    (Grammar.level (depth + 6)).assignment.Succeeds c s fun e s' =>
      means e ∧ s'.Faces names (next :: row) := by
  cases operand with
  | name free => exact h.assignment_name free ends (depth + 3)
  | call free =>
    refine h.assignment_of_operand nofun (.arguments rfl) ends
      (ParseState.Faces.operandExpression (.call free) h ends ?_)
    intro _ c s text keyword free h
    exact h.assignment_name free .parenR depth

end ParseState.Faces

end ModuleInterop.Syntax
