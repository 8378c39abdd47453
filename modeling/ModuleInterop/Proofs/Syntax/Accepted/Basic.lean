import ModuleInterop.Syntax.Parser.Module
import ModuleInterop.Proofs.Syntax.Row

/-!
# Runs that succeed

What `Parser.Gives` says of the runs that do not fail, `Parser.Succeeds` says together with that they do
not fail.  What a run succeeds on is a row of tokens that the state stands before (`ParseState.Faces`):
each piece of the grammar takes its tokens off the row, and leaves the state before the rest of it.
-/

set_option autoImplicit false

namespace ModuleInterop.Syntax

variable {α β σ : Type} {c : Context} {s s' : ParseState}

/-! ## Runs that succeed -/

namespace Parser

/-- A run does not fail, and this holds of its result and of the state after it. -/
def Succeeds (p : Parser α) (c : Context) (s : ParseState) (post : α → ParseState → Prop) : Prop :=
  ∃ a s', p c s = .ok (a, s') ∧ post a s'

/-- What follows a run starts where it ended. -/
theorem bind_run {p : Parser α} {f : α → Parser β} {a : α} (run : p c s = .ok (a, s')) :
    (p >>= f) c s = f a c s' := by
  show (p c s >>= fun r => f r.1 c r.2) = _
  rw [run]
  rfl

theorem Succeeds.bind {p : Parser α} {f : α → Parser β} {mid : α → ParseState → Prop}
    {post : β → ParseState → Prop} (h : p.Succeeds c s mid)
    (next : ∀ a s', mid a s' → (f a).Succeeds c s' post) : (p >>= f).Succeeds c s post := by
  obtain ⟨a, s₁, run, here⟩ := h
  obtain ⟨b, s₂, run', there⟩ := next a s₁ here
  exact ⟨b, s₂, (bind_run run).trans run', there⟩

/-- After a run whose result is known. -/
theorem Succeeds.after {p : Parser α} {f : α → Parser β} {a : α} {post : β → ParseState → Prop}
    (run : p c s = .ok (a, s')) (h : (f a).Succeeds c s' post) : (p >>= f).Succeeds c s post := by
  obtain ⟨b, s₂, run', here⟩ := h
  exact ⟨b, s₂, (bind_run run).trans run', here⟩

/-- A run whose result and state are known. -/
theorem Succeeds.run_eq {p : Parser α} {a : α} (h : p.Succeeds c s fun b t => b = a ∧ t = s') :
    p c s = .ok (a, s') := by
  obtain ⟨_, _, run, rfl, rfl⟩ := h
  exact run

theorem succeeds_pure {a : α} {post : α → ParseState → Prop} (h : post a s) :
    (pure a : Parser α).Succeeds c s post := ⟨a, s, rfl, h⟩

theorem Succeeds.mono {p : Parser α} {post post' : α → ParseState → Prop} (h : p.Succeeds c s post)
    (weaker : ∀ a s', post a s' → post' a s') : p.Succeeds c s post' := by
  obtain ⟨a, s', run, here⟩ := h
  exact ⟨a, s', run, weaker a s' here⟩

/-- A run whose effects are taken back. -/
theorem succeeds_lookahead {p : Parser α} {a : α} (h : p.Succeeds c s fun b _ => b = a) :
    lookahead p c s = .ok (a, s) := by
  obtain ⟨_, _, run, rfl⟩ := h
  rw [lookahead, run]

/-- A loop that ends with its next step. -/
theorem Succeeds.stops {step : σ → Parser (σ ⊕ α)} {limit : Nat} {x : σ}
    {post : α → ParseState → Prop}
    (h : (step x).Succeeds c s fun r s' => ∃ a, r = .inr a ∧ post a s') :
    (iterateFor step (limit + 1) x).Succeeds c s post := by
  refine h.bind fun r s' ⟨a, same, here⟩ => ?_
  subst same
  exact succeeds_pure here

/-- A loop that goes on after its next step. -/
theorem Succeeds.continues {step : σ → Parser (σ ⊕ α)} {limit : Nat} {x : σ}
    {post : α → ParseState → Prop}
    (h : (step x).Succeeds c s fun r s' =>
      ∃ y, r = .inl y ∧ (iterateFor step limit y).Succeeds c s' post) :
    (iterateFor step (limit + 1) x).Succeeds c s post := by
  refine h.bind fun r s' ⟨y, same, here⟩ => ?_
  subst same
  exact here

/-! What only looks at the state leaves it as it is. -/

section Looking

variable {post : β → ParseState → Prop}

theorem succeeds_get {f : ParseState → Parser β} :
    ((get : Parser ParseState) >>= f).Succeeds c s post ↔ (f s).Succeeds c s post := Iff.rfl

theorem succeeds_read {f : Context → Parser β} :
    (bind (ReaderT.read : Parser Context) f : Parser β).Succeeds c s post ↔ (f c).Succeeds c s post :=
  Iff.rfl

theorem succeeds_token {f : Token → Parser β} :
    (token >>= f).Succeeds c s post ↔ (f s.token).Succeeds c s post := Iff.rfl

theorem succeeds_start {f : Nat → Parser β} :
    (start >>= f).Succeeds c s post ↔ (f s.token.span.start).Succeeds c s post := Iff.rfl

theorem succeeds_nextToken {f : Token → Parser β} :
    (nextToken >>= f).Succeeds c s post ↔
      (f (ModuleInterop.Syntax.nextToken s.pos s.rest).token).Succeeds c s post := Iff.rfl

theorem succeeds_spanFrom {first : Nat} {f : Span → Parser β} :
    (spanFrom first >>= f).Succeeds c s post ↔ (f ⟨first, s.previousEnd⟩).Succeeds c s post := Iff.rfl

theorem succeeds_at {p : Punct} {f : Bool → Parser β} :
    (at_ p >>= f).Succeeds c s post ↔ (f (s.token.kind == .punct p)).Succeeds c s post := Iff.rfl

theorem succeeds_atWord {k : Keyword} {f : Bool → Parser β} :
    (atWord k >>= f).Succeeds c s post ↔ (f (isWord s.token k)).Succeeds c s post := Iff.rfl

theorem succeeds_withReader {p : Parser β} {change : Context → Context} :
    (withReader change p).Succeeds c s post ↔ p.Succeeds (change c) s post := Iff.rfl

end Looking

end Parser

/-! ## What is ahead -/

/-- Reading stands before a row of tokens, nothing has gone wrong, and these names have been exported, the
latest first.  There is room for the steps of a loop that reads three things and sees that there is no
fourth one. -/
structure ParseState.Faces (s : ParseState) (names : List String) (row : List TokenKind) : Prop where
  here : row.head? = some s.token.kind
  onLine : s.token.newlineBefore = false
  unescaped : s.token.escaped = false
  ahead : Spells s.pos s.rest row.tail
  lexical : s.lexical = []
  problems : s.problems = []
  pending : s.pendingDefaults = []
  exported : s.exported.map Prod.fst = names
  roomy : 4 ≤ s.limit

variable {names : List String} {kind next : TokenKind} {row : List TokenKind}

namespace ParseState.Faces

/-- The token that is looked at. -/
theorem kind_eq (h : s.Faces names (kind :: row)) : s.token.kind = kind := by
  simpa using h.here.symm

/-- The token after it. -/
theorem next_eq (h : s.Faces names (kind :: next :: row)) :
    (nextToken s.pos s.rest).token.kind = next := h.ahead.1.kind

/-- A token of another kind is not a punctuator. -/
theorem kind_beq_eq (h : s.Faces names (kind :: row)) {p : Punct} (other : kind ≠ .punct p) :
    (s.token.kind == .punct p) = false := by
  rw [h.kind_eq]
  exact beq_eq_false_iff_ne.mpr other

/-- A token of another kind is not a word of the grammar. -/
theorem isWord_eq (h : s.Faces names (kind :: row)) {k : Keyword}
    (other : ∀ text, kind ≠ .word text (some k)) : Parser.isWord s.token k = false := by
  unfold Parser.isWord
  rw [h.kind_eq]
  split
  · rename_i text keyword
    rw [beq_eq_false_iff_ne]
    rintro rfl
    exact other _ rfl
  · rfl

theorem advance (h : s.Faces names (kind :: next :: row)) :
    Parser.advance.Succeeds c s fun _ s' => s'.Faces names (next :: row) := by
  obtain ⟨plain, ahead⟩ := h.ahead
  refine ⟨(), _, rfl, ?_⟩
  exact {
    here := congrArg some plain.kind.symm
    onLine := plain.onLine
    unescaped := plain.unescaped
    ahead := ahead
    lexical := by simp [ParseState.adopt, plain.fine, h.lexical]
    problems := h.problems
    pending := h.pending
    exported := h.exported
    roomy := h.roomy }

theorem bump (h : s.Faces names (kind :: next :: row)) :
    Parser.bump.Succeeds c s fun _ s' => s'.Faces names (next :: row) := by
  unfold Parser.bump
  apply Parser.succeeds_token.mpr
  split
  · rw [h.unescaped, if_neg Bool.false_ne_true]
    exact h.advance
  · exact h.advance

theorem eat {p : Punct} (h : s.Faces names (.punct p :: next :: row)) :
    (Parser.eat p).Succeeds c s fun _ s' => s'.Faces names (next :: row) := by
  unfold Parser.eat
  apply Parser.succeeds_at.mpr
  rw [h.kind_eq, if_pos (beq_self_eq_true _)]
  exact h.bump.bind fun _ _ h => Parser.succeeds_pure h

theorem eat_other {p : Punct} (h : s.Faces names (kind :: row)) (other : kind ≠ .punct p) :
    Parser.eat p c s = .ok (false, s) := by
  show (if s.token.kind == .punct p then _ else _ : Parser Bool) c s = _
  rw [h.kind_beq_eq other]
  rfl

theorem expect {p : Punct} (h : s.Faces names (.punct p :: next :: row)) :
    (Parser.expect p).Succeeds c s fun _ s' => s'.Faces names (next :: row) := by
  unfold Parser.expect
  apply Parser.succeeds_at.mpr
  rw [h.kind_eq, if_pos (beq_self_eq_true _)]
  exact h.bump

theorem isWord_self {text : String} {k : Keyword} (h : s.Faces names (.word text (some k) :: row)) :
    Parser.isWord s.token k = true := by
  unfold Parser.isWord
  rw [h.kind_eq]
  exact beq_self_eq_true _

theorem expectWord {text : String} {k : Keyword}
    (h : s.Faces names (.word text (some k) :: next :: row)) :
    (Parser.expectWord k).Succeeds c s fun _ s' => s'.Faces names (next :: row) := by
  unfold Parser.expectWord
  apply Parser.succeeds_atWord.mpr
  rw [h.isWord_self]
  exact h.bump

theorem eatWord {text : String} {k : Keyword}
    (h : s.Faces names (.word text (some k) :: next :: row)) :
    (Parser.eatWord k).Succeeds c s fun b s' => b = true ∧ s'.Faces names (next :: row) := by
  unfold Parser.eatWord
  apply Parser.succeeds_atWord.mpr
  rw [h.isWord_self]
  exact h.bump.bind fun _ _ h => Parser.succeeds_pure ⟨rfl, h⟩

theorem eatWord_other {k : Keyword} (h : s.Faces names (kind :: row))
    (other : ∀ text, kind ≠ .word text (some k)) : Parser.eatWord k c s = .ok (false, s) := by
  show (if Parser.isWord s.token k then _ else _ : Parser Bool) c s = _
  rw [h.isWord_eq other]
  rfl

theorem wordText {text : String} {keyword : Option Keyword}
    (h : s.Faces names (.word text keyword :: next :: row)) :
    Parser.wordText.Succeeds c s fun name s' => name.text = text ∧ s'.Faces names (next :: row) := by
  unfold Parser.wordText
  apply Parser.succeeds_token.mpr
  rw [h.kind_eq]
  exact h.advance.bind fun _ _ h => Parser.succeeds_pure ⟨rfl, h⟩

theorem stringLiteral {value described : String}
    (h : s.Faces names (.literal (.string value) described :: next :: row)) :
    Parser.stringLiteral.Succeeds c s fun a s' => a = value ∧ s'.Faces names (next :: row) := by
  unfold Parser.stringLiteral
  apply Parser.succeeds_token.mpr
  rw [h.kind_eq]
  exact h.advance.bind fun _ _ h => Parser.succeeds_pure ⟨rfl, h⟩

end ParseState.Faces

/-- A word that may be used as a name in a module, whether it has a meaning elsewhere or not. -/
def FreeWord (keyword : Option Keyword) : Prop :=
  ∀ k ∈ keyword, k.isReserved = false ∧ k ≠ .await ∧ k ≠ .yield

/-- A word that is not reserved in modules may be used as a name. -/
theorem freeWord_of_not_reserved {word : String} (free : word ∉ moduleReservedWords) :
    FreeWord (Keyword.ofText? word) := by
  intro k found
  have spelled : k.text = word := by
    simpa using List.find?_some (p := fun k : Keyword => k.text == word) found
  have all : ∀ k ∈ Keyword.all, k.isReserved = true ∨ k = .await ∨ k = .yield →
      k.text ∈ moduleReservedWords := by decide
  have none := mt (all k (List.mem_of_find?_eq_some found)) (by rwa [spelled])
  simp only [not_or, Bool.not_eq_true] at none
  exact none

namespace ParseState.Faces

variable {text : String} {keyword : Option Keyword}

theorem isName (h : s.Faces names (.word text keyword :: row)) (free : FreeWord keyword) :
    s.token.kind.isName = true := by
  rw [h.kind_eq]
  cases keyword with
  | none => rfl
  | some k => simp [TokenKind.isName, (free k rfl).1]

theorem checkName (h : s.Faces names (.word text keyword :: row)) (free : FreeWord keyword) :
    Parser.checkName s.token c s = .ok ((), s) := by
  have noAwait : Parser.isWord s.token .await = false :=
    h.isWord_eq fun t same => (free _ (TokenKind.word.inj same).2).2.1 rfl
  have noYield : Parser.isWord s.token .yield = false :=
    h.isWord_eq fun t same => (free _ (TokenKind.word.inj same).2).2.2 rfl
  show (if c.await && Parser.isWord s.token .await then _ else if c.yield && Parser.isWord s.token .yield
    then _ else _ : Parser Unit) c s = _
  rw [noAwait, noYield, Bool.and_false, Bool.and_false]
  rfl

theorem bindingName (h : s.Faces names (.word text keyword :: next :: row))
    (free : FreeWord keyword) :
    Parser.bindingName.Succeeds c s fun name s' =>
      name.text = text ∧ s'.Faces names (next :: row) := by
  unfold Parser.bindingName
  apply Parser.succeeds_token.mpr
  rw [if_pos (h.isName free)]
  exact .after (h.checkName free) h.wordText

theorem reference (h : s.Faces names (.word text keyword :: next :: row))
    (free : FreeWord keyword) :
    Parser.reference.Succeeds c s fun e s' =>
      (∃ span, e = .name span text) ∧ s'.Faces names (next :: row) := by
  unfold Parser.reference
  apply Parser.succeeds_token.mpr
  rw [if_pos (h.isName free)]
  refine .after (h.checkName free) (h.wordText.bind fun name s₁ ⟨same, h₁⟩ => ?_)
  subst same
  exact Parser.succeeds_pure ⟨⟨_, rfl⟩, h₁⟩

/-- There is room for as many steps of a loop. -/
theorem limit_eq (h : s.Faces names row) : ∃ more, s.limit = more + 4 :=
  Nat.exists_eq_add_of_le' h.roomy

theorem iterate_stops {step : σ → Parser (σ ⊕ α)} {x : σ} {post : α → ParseState → Prop}
    (h : s.Faces names row)
    (last : (step x).Succeeds c s fun r s' => ∃ a, r = .inr a ∧ post a s') :
    (Parser.iterate step x).Succeeds c s post := by
  obtain ⟨more, limit⟩ := h.limit_eq
  apply Parser.succeeds_get.mpr
  rw [limit]
  exact last.stops

/-- A loop that ends before the row `rest`, which it reaches at once or by one step. -/
theorem iterate_upTo {step : σ → Parser (σ ⊕ α)} {x : σ} {post : α → ParseState → Prop}
    (good : σ → Prop) (rest : List TokenKind) (h : s.Faces names row)
    (last : ∀ y s', good y → s'.Faces names rest →
      (step y).Succeeds c s' fun r s'' => ∃ a, r = .inr a ∧ post a s'')
    (first : good x ∧ s.Faces names rest ∨
      (step x).Succeeds c s fun r s' => ∃ y, r = .inl y ∧ good y ∧ s'.Faces names rest) :
    (Parser.iterate step x).Succeeds c s post := by
  obtain ⟨more, limit⟩ := h.limit_eq
  apply Parser.succeeds_get.mpr
  rw [limit]
  rcases first with ⟨fit, there⟩ | once
  · exact (last x s fit there).stops
  · refine Parser.Succeeds.continues (once.mono fun r s' ⟨y, same, fit, there⟩ => ?_)
    exact ⟨y, same, (last y s' fit there).stops⟩

/-- A list with one element. -/
theorem delimited {close : Punct} {element : Parser α} {good : α → Prop}
    (h : s.Faces names (kind :: row)) (other : kind ≠ .punct close)
    (begins : kind ≠ .endOfInput ∧ kind ≠ .invalid) {rest : List TokenKind}
    (one : element.Succeeds c s fun a s' => good a ∧ s'.Faces names (.punct close :: rest)) :
    (Parser.delimited close element).Succeeds c s fun r s' =>
      (∃ a, r.1 = [a] ∧ good a) ∧ s'.Faces names (.punct close :: rest) := by
  have noClose : (s.token.kind == .punct close || Parser.endsLists s.token) = false := by
    rw [h.kind_beq_eq other, Bool.false_or, Parser.endsLists, h.kind_eq]
    split
    · exact absurd rfl begins.1
    · exact absurd rfl begins.2
    · rfl
  unfold Parser.delimited
  apply Parser.succeeds_token.mpr
  rw [noClose, if_neg Bool.false_ne_true]
  refine h.iterate_stops (one.bind fun a s₁ ⟨good, h₁⟩ => ?_)
  apply Parser.succeeds_token.mpr
  have closed : (s₁.token.kind == .punct close) = true := by
    rw [h₁.kind_eq]
    exact beq_self_eq_true _
  rw [closed, Bool.true_or, if_pos rfl]
  exact Parser.succeeds_pure ⟨_, rfl, ⟨a, rfl, good⟩, h₁⟩

end ParseState.Faces

/-- How a row goes on after the end of a statement: behind a semicolon, or not at all. -/
inductive EndsStatement : List TokenKind → List TokenKind → Prop
  | semicolon {next : TokenKind} {row : List TokenKind} :
      EndsStatement (.punct .semicolon :: next :: row) (next :: row)
  | last : EndsStatement [.endOfInput] [.endOfInput]

theorem EndsStatement.exists_cons {rest : List TokenKind} (h : EndsStatement row rest) :
    ∃ next more, row = next :: more := by
  cases h with
  | semicolon => exact ⟨_, _, rfl⟩
  | last => exact ⟨_, _, rfl⟩

namespace ParseState.Faces

variable {text : String} {keyword : Option Keyword} {rest : List TokenKind}

theorem canEndStatement (h : s.Faces names (kind :: row))
    (ends : kind = .punct .semicolon ∨ kind = .endOfInput) :
    Parser.canEndStatement c s = .ok (true, s) := by
  refine Parser.Succeeds.run_eq ?_
  unfold Parser.canEndStatement
  apply Parser.succeeds_token.mpr
  rw [h.kind_eq]
  rcases ends with rfl | rfl <;> exact Parser.succeeds_pure ⟨rfl, rfl⟩

theorem endStatement (h : s.Faces names row) (ends : EndsStatement row rest) :
    Parser.endStatement.Succeeds c s fun _ s' => s'.Faces names rest := by
  unfold Parser.endStatement
  cases ends with
  | semicolon =>
    refine .after (h.canEndStatement (.inl rfl)) ?_
    rw [if_pos rfl]
    exact h.eat.bind fun _ _ h => Parser.succeeds_pure h
  | last =>
    refine .after (h.canEndStatement (.inr rfl)) ?_
    rw [if_pos rfl]
    exact .after (h.eat_other (by simp)) (Parser.succeeds_pure h)

end ParseState.Faces

end ModuleInterop.Syntax
