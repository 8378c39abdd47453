import ModuleInterop.Proofs.Syntax.Accepted.Import
import ModuleInterop.Proofs.Syntax.Accepted.Expression

/-!
# Modules that are accepted

A module of imports, default exports and names taken from another module is read statement by statement
(`parseModule_of_spells`): each form of a statement comes with the tokens that it is written with, what it
is read as and the names that it exports (`Item`), and a module is a row of such statements (`Items`).
-/

set_option autoImplicit false

namespace ModuleInterop.Syntax

variable {c : Context} {s : ParseState} {names : List String} {kind next : TokenKind}
  {row rest tokens : List TokenKind} {first : Nat} {g : Grammar}

/-- An operand begins with a name that may stand there. -/
theorem Operand.begins {means : Expr → Prop} (operand : Operand tokens means)
    (ends : EndsExpression next) (row : List TokenKind) :
    ∃ text keyword kind others, tokens ++ next :: row = .word text keyword :: kind :: others ∧
      FreeWord keyword ∧ FollowsName keyword kind := by
  cases operand with
  | name free => exact ⟨_, _, _, _, rfl, free, .ends ends⟩
  | call => exact ⟨_, _, _, _, rfl, nofun, .arguments rfl⟩

namespace ParseState.Faces

/-- A name is recorded as exported. -/
theorem recordExport (h : s.Faces names row) (text : String) (offset : Nat) :
    (Parser.recordExport text offset).Succeeds c s fun _ s' => s'.Faces (text :: names) row :=
  ⟨(), _, rfl, { h with exported := congrArg (text :: ·) h.exported }⟩

/-! ## Exports -/

theorem exportDefault {means : Expr → Prop} (operand : Operand tokens means) {depth : Nat}
    (h : s.Faces names (.word "default" (some .default) :: (tokens ++ next :: row)))
    (expression : EndsExpression next) (ends : EndsStatement (next :: row) rest) :
    (Parser.exportDefault (Grammar.level (depth + 6)) first []).Succeeds c s fun d s' =>
      (∃ span e, d = .exportDefault span e ∧ means e) ∧ s'.Faces ("default" :: names) rest := by
  obtain ⟨text, keyword, kind, others, same, free, follows⟩ := operand.begins expression row
  unfold Parser.exportDefault
  refine Parser.succeeds_start.mpr ((h.recordExport _ _).bind fun _ s₁ h₁ => ?_)
  rw [same] at h₁
  refine h₁.bump.bind fun _ s₂ h₂ => ?_
  refine (h₂.decorators nofun).bind fun list s₃ ⟨unmarked, stays⟩ => ?_
  subst unmarked stays
  have noClass : Parser.isWord s₃.token .class = false :=
    h₂.isWord_eq fun t same => by
      have reserved := (free _ (TokenKind.word.inj same).2).1
      contradiction
  apply Parser.succeeds_atWord.mpr
  rw [noClass, if_neg Bool.false_ne_true]
  refine .after (h₂.atFunction free follows) ?_
  rw [if_neg Bool.false_ne_true]
  rw [← same] at h₂
  refine (h₂.assignment operand expression depth).bind fun e s₃ ⟨fits, h₃⟩ => ?_
  refine (h₃.endStatement ends).bind fun _ s₄ h₄ => ?_
  exact Parser.succeeds_spanFrom.mpr (Parser.succeeds_pure ⟨⟨_, e, rfl, fits⟩, h₄⟩)

/-- An entry of an export list without another name. -/
theorem exportSpecifier {text : String} {keyword : Option Keyword}
    (h : s.Faces names (.word text keyword :: .punct .braceR :: row)) :
    Parser.exportSpecifier.Succeeds c s fun entry s' =>
      (entry.exported.text = text ∧ entry.inner.text = text) ∧ s'.Faces names (.punct .braceR :: row) := by
  have name : Parser.externalName.Succeeds c s fun inner s' =>
      inner.text = text ∧ s'.Faces names (.punct .braceR :: row) := by
    unfold Parser.externalName
    apply Parser.succeeds_token.mpr
    rw [h.kind_eq]
    exact h.wordText.bind fun name s₁ ⟨same, h₁⟩ => Parser.succeeds_pure ⟨same, h₁⟩
  unfold Parser.exportSpecifier
  refine name.bind fun inner s₁ ⟨same, h₁⟩ => ?_
  refine .after (h₁.eatWord_other nofun) ?_
  rw [if_neg Bool.false_ne_true]
  exact .after rfl (Parser.succeeds_pure ⟨⟨same, same⟩, h₁⟩)

/-- A list with one entry that is taken from another module. -/
theorem exportList {text source described : String} {keyword : Option Keyword}
    (h : s.Faces names (.punct .braceL :: .word text keyword :: .punct .braceR ::
      .word "from" (some .from) :: .literal (.string source) described :: row))
    (ends : EndsStatement row rest) :
    (Parser.exportList first).Succeeds c s fun d s' =>
      (∃ span entry, d = .exportNames span [entry] (some source) ∧ entry.exported.text = text) ∧
        s'.Faces (text :: names) rest := by
  unfold Parser.exportList
  refine h.bump.bind fun _ s₁ h₁ => ?_
  refine (h₁.delimited nofun ⟨nofun, nofun⟩ h₁.exportSpecifier).bind
    fun r s₂ ⟨⟨entry, one, same, _⟩, h₂⟩ => ?_
  refine h₂.expect.bind fun _ s₃ h₃ => ?_
  refine h₃.eatWord.bind fun _ s₄ ⟨there, h₄⟩ => ?_
  subst there
  rw [if_pos rfl]
  obtain ⟨next, more, cons⟩ := ends.exists_cons
  rw [cons] at h₄
  refine h₄.stringLiteral.bind fun _ s₅ ⟨value, h₅⟩ => ?_
  subst value
  rw [← cons] at h₅
  refine .after (h₅.importAttributes ends) ?_
  refine .after rfl ?_
  have recorded : Parser.Succeeds
      (r.1.forM fun entry => Parser.recordExport entry.exported.text entry.exported.span.start) c s₅
      fun _ s' => s'.Faces (text :: names) row := by
    rw [one, ← same]
    exact (h₅.recordExport _ _).bind fun _ _ h => Parser.succeeds_pure h
  refine recorded.bind fun _ s₆ h₆ => ?_
  refine (h₆.endStatement ends).bind fun _ s₇ h₇ => ?_
  refine Parser.succeeds_spanFrom.mpr (Parser.succeeds_pure ?_)
  rw [one]
  exact ⟨⟨_, entry, rfl, same⟩, h₇⟩

end ParseState.Faces

/-! ## Statements -/

/-- The tokens of a statement, what it is read as, and the names that it exports. -/
inductive Item : List TokenKind → (Stmt → Prop) → List String → Prop
  | importing {clause : List TokenKind} {bound : List String} {source described : String} :
      ImportClause clause bound →
      Item (.word "import" (some .import) :: (clause ++
          [.word "from" (some .from), .literal (.string source) described]))
        (fun d => ∃ span list, d = .importing span list ∧ list.map Name.text = bound) []
  | exportDefault {tokens : List TokenKind} {means : Expr → Prop} : Operand tokens means →
      Item (.word "export" (some .export) :: .word "default" (some .default) :: tokens)
        (fun d => ∃ span e, d = .exportDefault span e ∧ means e) ["default"]
  | exportFrom {text source described : String} {keyword : Option Keyword} :
      Item [.word "export" (some .export), .punct .braceL, .word text keyword, .punct .braceR,
          .word "from" (some .from), .literal (.string source) described]
        (fun d => ∃ span entry, d = .exportNames span [entry] (some source) ∧
          entry.exported.text = text) [text]

theorem EndsStatement.endsExpression (ends : EndsStatement (next :: row) rest) : EndsExpression next := by
  cases ends with
  | semicolon => exact .semicolon
  | last => exact .endOfInput

/-- **A statement is read** from its tokens. -/
theorem Item.read {means : Stmt → Prop} {added : List String} (item : Item tokens means added)
    (h : s.Faces names (tokens ++ row)) (ends : EndsStatement row rest) (depth : Nat) (inList : Bool) :
    ((Grammar.level (depth + 7)).statement inList).Succeeds c s fun d s' =>
      means d ∧ s'.Faces (added ++ names) rest := by
  show (Parser.statement (Grammar.level (depth + 6)) inList).Succeeds c s _
  unfold Parser.statement
  apply Parser.succeeds_token.mpr
  cases item with
  | importing clause =>
    rw [List.cons_append, List.append_assoc] at h
    rw [h.kind_eq]
    apply Parser.succeeds_nextToken.mpr
    have imports := h.importStatement (c := c) clause ends
    cases clause <;> rw [h.next_eq] <;> exact imports
  | exportDefault operand =>
    rw [h.kind_eq]
    obtain ⟨next, more, rfl⟩ := ends.exists_cons
    refine Parser.succeeds_start.mpr (h.bump.bind fun _ s₁ h₁ => Parser.succeeds_token.mpr ?_)
    rw [h₁.kind_eq]
    exact h₁.exportDefault operand ends.endsExpression ends
  | exportFrom =>
    rw [h.kind_eq]
    refine Parser.succeeds_start.mpr (h.bump.bind fun _ s₁ h₁ => Parser.succeeds_token.mpr ?_)
    rw [h₁.kind_eq]
    exact h₁.exportList ends

/-! ## Modules -/

/-- The tokens of a module with `count` statements, what they are read as, and the names that they export,
the latest first. -/
inductive Items : Nat → List TokenKind → (List Stmt → Prop) → List String → Prop
  | nil : Items 0 [.endOfInput] (· = []) []
  | cons {count : Nat} {tokens row rest : List TokenKind} {means : Stmt → Prop}
      {others : List Stmt → Prop} {added names : List String} :
      Item tokens means added → EndsStatement row rest → Items count rest others names →
      Items (count + 1) (tokens ++ row) (fun body => ∃ d list, body = d :: list ∧ means d ∧ others list)
        (names ++ added)

/-- A statement of these forms is no directive, and the text has not ended before it. -/
theorem Item.begins {means : Stmt → Prop} {added : List String} (item : Item tokens means added) :
    (∃ kind others, tokens = kind :: others ∧ kind ≠ .endOfInput) ∧
      ∀ d, means d → Parser.isDirective d = false := by
  cases item with
  | importing =>
    refine ⟨⟨_, _, rfl, nofun⟩, ?_⟩
    rintro _ ⟨span, list, rfl, -⟩
    rfl
  | exportDefault =>
    refine ⟨⟨_, _, rfl, nofun⟩, ?_⟩
    rintro _ ⟨span, e, rfl, -⟩
    rfl
  | exportFrom =>
    refine ⟨⟨_, _, rfl, nofun⟩, ?_⟩
    rintro _ ⟨span, entry, rfl, -⟩
    rfl

/-- A loop that reads one statement with each step reads a module, if it has room for that many steps. -/
theorem Items.run {step : List Stmt × Bool → Parser (List Stmt × Bool ⊕ List Stmt)} {c : Context}
    (one : ∀ {tokens row rest : List TokenKind} {means : Stmt → Prop} {added names : List String} x s,
      Item tokens means added → EndsStatement row rest → s.Faces names (tokens ++ row) →
      (step x).Succeeds c s fun r s' =>
        ∃ d, r = .inl (d :: x.1, false) ∧ means d ∧ s'.Faces (added ++ names) rest)
    (last : ∀ {names : List String} x s, s.Faces names [.endOfInput] →
      (step x).Succeeds c s fun r s' => r = .inr x.1.reverse ∧ s' = s)
    {count : Nat} {row : List TokenKind} {means : List Stmt → Prop} {added : List String}
    (items : Items count row means added) :
    ∀ {names : List String} limit x s, count < limit → s.Faces names row →
      (Parser.iterateFor step limit x).Succeeds c s fun body s' =>
        (∃ list, body = x.1.reverse ++ list ∧ means list) ∧
          s'.Faces (added ++ names) [.endOfInput] := by
  induction items with
  | nil =>
    intro names limit x s room h
    obtain ⟨limit, rfl⟩ := Nat.exists_eq_add_of_lt room
    rw [Nat.zero_add]
    refine ((last x s h).mono ?_).stops
    rintro r s' ⟨same, rfl⟩
    exact ⟨_, same, ⟨[], (List.append_nil _).symm, rfl⟩, h⟩
  | @cons count tokens row rest means others added later item ends items ih =>
    intro names limit x s room h
    obtain ⟨limit, rfl⟩ := Nat.exists_eq_add_of_lt room
    refine ((one x s item ends h).mono ?_).continues
    rintro r s₁ ⟨d, same, fits, h₁⟩
    refine ⟨_, same, (ih _ _ _ (by omega) h₁).mono ?_⟩
    rintro body s₂ ⟨⟨list, whole, fit⟩, h₂⟩
    refine ⟨⟨d :: list, ?_, d, list, rfl, fits, fit⟩, ?_⟩
    · rw [whole, List.reverse_cons, List.append_assoc, List.singleton_append]
    · rwa [List.append_assoc]

/-- **The statements of a module are read** one after the other. -/
theorem Items.read {count : Nat} {means : List Stmt → Prop} {added : List String}
    (items : Items count row means added) (depth : Nat) (h : s.Faces names row) (few : count < 4) :
    (Parser.bodyStatements (Grammar.level (depth + 7)) true).Succeeds c s fun body s' =>
      means body ∧ s'.Faces (added ++ names) [.endOfInput] := by
  unfold Parser.bodyStatements
  obtain ⟨more, limit⟩ := h.limit_eq
  apply Parser.succeeds_get.mpr
  rw [limit]
  refine (Items.run ?_ ?_ items (more + 4) ([], true) s (by omega) h).mono ?_
  · intro tokens row rest means added names x s item ends h
    obtain ⟨⟨kind, others, same, notEnd⟩, noDirective⟩ := item.begins
    apply Parser.succeeds_token.mpr
    have goesOn : (s.token.kind == .endOfInput || (!true && s.token.kind == .punct .braceR)) = false := by
      rw [same] at h
      rw [h.kind_eq, Bool.not_true, Bool.false_and, Bool.or_false]
      exact beq_eq_false_iff_ne.mpr notEnd
    rw [goesOn, if_neg Bool.false_ne_true]
    refine (item.read h ends depth true).bind fun d s₁ ⟨fits, h₁⟩ => ?_
    rw [noDirective d fits, Bool.and_false, if_neg Bool.false_ne_true]
    exact Parser.succeeds_pure ⟨d, rfl, fits, h₁⟩
  · intro names x s h
    apply Parser.succeeds_token.mpr
    rw [h.kind_eq, if_pos (by decide)]
    exact Parser.succeeds_pure ⟨rfl, rfl⟩
  · rintro _ s' ⟨⟨list, rfl, fits⟩, h⟩
    exact ⟨fits, h⟩

/-- Names that are exported once each. -/
theorem duplicateExport?_eq_none {seen entries : List (String × Nat)}
    (once : ((seen ++ entries).map Prod.fst).Nodup) : duplicateExport? seen entries = none := by
  induction entries generalizing seen with
  | nil => rfl
  | cons entry entries ih =>
    have new : (seen.find? fun e => e.1 == entry.1) = none := by
      rw [List.find?_eq_none]
      intro e mem same
      rw [List.map_append, List.nodup_append] at once
      exact once.2.2 _ (List.mem_map_of_mem mem) _ List.mem_cons_self (beq_iff_eq.mp same)
    rw [duplicateExport?, new]
    refine ih ?_
    refine (List.Perm.nodup_iff (List.Perm.map _ ?_)).mp once
    exact List.perm_middle

/-- Reading begins before the row of tokens that a text spells, if no mark stands before them. -/
theorem faces_start {text : List Char} (spells : Spells 0 text (kind :: row))
    (plain : ∀ c ∈ text.head?, c.toNat ≠ 0xFEFF ∧ c ≠ '#') (long : 2 ≤ text.length) :
    (ParseState.start text).Faces [] (kind :: row) := by
  have first : firstToken text = nextToken 0 text := by
    cases text with
    | nil => rfl
    | cons c text =>
      obtain ⟨noMark, noHash⟩ := plain c rfl
      unfold firstToken
      simp only [noMark, ↓reduceIte]
      split
      · rename_i begins
        exact absurd (List.cons.inj begins).1 noHash
      · rfl
  obtain ⟨plain, ahead⟩ := spells
  rw [← first] at plain ahead
  exact {
    here := congrArg some plain.kind.symm
    onLine := plain.onLine
    unescaped := plain.unescaped
    ahead := ahead
    lexical := by simp [ParseState.start, plain.fine]
    problems := rfl
    pending := rfl
    exported := rfl
    roomy := by simpa [ParseState.start] using long }

/-- **A module is read from its tokens**, if it exports no name twice. -/
theorem parseModule_of_spells {count : Nat} {means : List Stmt → Prop} {added : List String}
    {text : List Char} (items : Items count (kind :: row) means added) (few : count < 4)
    (spells : Spells 0 text (kind :: row)) (once : added.Nodup)
    (plain : ∀ c ∈ text.head?, c.toNat ≠ 0xFEFF ∧ c ≠ '#') (long : 2 ≤ text.length) :
    ∃ program, parseModule text = .ok program ∧ means program.body := by
  have start := faces_start spells plain long
  obtain ⟨body, s, run, fits, h⟩ := items.read (c := .top) (4 * text.length + 1) start few
  have whole : Parser.bodyStatements (Grammar.ofText text) true Context.top (ParseState.start text) =
      .ok (body, s) := run
  have fine : s.finalProblem? = none := by
    have exported : duplicateExport? [] s.exported.reverse = none := by
      refine duplicateExport?_eq_none ?_
      rw [List.nil_append, List.map_reverse, h.exported, List.append_nil]
      exact (List.reverse_perm added).nodup_iff.mpr once
    simp [ParseState.finalProblem?, ParseState.firstProblem?, h.lexical, h.problems, h.pending, exported]
  refine ⟨⟨body⟩, ?_, fits⟩
  unfold parseModule
  rw [whole]
  simp only [fine]

end ModuleInterop.Syntax
