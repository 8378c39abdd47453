import ModuleInterop.Proofs.Syntax.Accepted.Basic

/-!
# Imports that are accepted

An import of a whole module, of one of its names or of its default is read, whatever name it binds
(`ParseState.Faces.importStatement`): also a word that means something elsewhere in an import, such as
`from` or `defer`, is a name here.
-/

set_option autoImplicit false

namespace ModuleInterop.Syntax

variable {c : Context} {s : ParseState} {names : List String} {next : TokenKind}
  {row rest : List TokenKind} {text : String} {keyword : Option Keyword}

/-- What an import binds, and the tokens that say so. -/
inductive ImportClause : List TokenKind → List String → Prop
  | whole {text : String} {keyword : Option Keyword} : FreeWord keyword →
      ImportClause [.punct .star, .word "as" (some .as), .word text keyword] [text]
  | list {text : String} :
      ImportClause [.punct .braceL, .word text none, .punct .braceR] [text]
  | default {text : String} {keyword : Option Keyword} : FreeWord keyword →
      ImportClause [.word text keyword] [text]

namespace ParseState.Faces

/-- No attributes follow. -/
theorem importAttributes (h : s.Faces names row) (ends : EndsStatement row rest) :
    Parser.importAttributes c s = .ok ((), s) := by
  have none (k : Keyword) : Parser.isWord s.token k = false := by
    cases ends with
    | semicolon => exact h.isWord_eq (by simp)
    | last => exact h.isWord_eq (by simp)
  show (if Parser.isWord s.token .with || (Parser.isWord s.token .assert && !s.token.newlineBefore)
    then _ else _ : Parser Unit) c s = _
  rw [none, none]
  rfl

theorem importNamespace
    (h : s.Faces names
      (.punct .star :: .word "as" (some .as) :: .word text keyword :: next :: row))
    (free : FreeWord keyword) :
    Parser.importNamespace.Succeeds c s fun name s' =>
      name.text = text ∧ s'.Faces names (next :: row) := by
  unfold Parser.importNamespace
  refine h.expect.bind fun _ s₁ h₁ => ?_
  refine h₁.expectWord.bind fun _ s₂ h₂ => ?_
  exact h₂.bindingName free

/-- An entry of an import list without another name. -/
theorem importSpecifier (h : s.Faces names (.word text none :: .punct .braceR :: row)) :
    Parser.importSpecifier.Succeeds c s fun name s' =>
      name.text = text ∧ s'.Faces names (.punct .braceR :: row) := by
  unfold Parser.importSpecifier
  apply Parser.succeeds_token.mpr
  rw [h.kind_eq]
  apply Parser.succeeds_nextToken.mpr
  have other : Parser.isWord (nextToken s.pos s.rest).token .as = false := by
    rw [Parser.isWord, h.next_eq]
  rw [other, if_neg Bool.false_ne_true]
  exact h.bindingName nofun

/-- What an import binds is told neither by a text nor by a word for a phase. -/
theorem noPhase {clause : List TokenKind} {bound : List String} (clauseOf : ImportClause clause bound)
    (h : s.Faces names (clause ++ .word "from" (some .from) :: row)) :
    (∀ value described, s.token.kind ≠ .literal (.string value) described) ∧
      (Parser.isWord s.token .defer &&
        (nextToken s.pos s.rest).token.kind == .punct .star) = false ∧
      (Parser.isWord s.token .source && (nextToken s.pos s.rest).token.kind.isName &&
        !Parser.isWord (nextToken s.pos s.rest).token .from) = false := by
  cases clauseOf with
  | whole =>
    rw [h.kind_eq, h.isWord_eq (by simp), h.isWord_eq (by simp)]
    exact ⟨nofun, rfl, rfl⟩
  | list =>
    rw [h.kind_eq, h.isWord_eq (by simp), h.isWord_eq (by simp)]
    exact ⟨nofun, rfl, rfl⟩
  | default =>
    have isFrom : Parser.isWord (nextToken s.pos s.rest).token .from = true := by
      rw [Parser.isWord, h.next_eq]
      rfl
    rw [h.kind_eq, h.next_eq, isFrom]
    exact ⟨nofun, Bool.and_false _, Bool.and_false _⟩

theorem importList_whole
    (h : s.Faces names
      (.punct .star :: .word "as" (some .as) :: .word text keyword :: next :: row))
    (free : FreeWord keyword) :
    Parser.importList.Succeeds c s fun list s' =>
      list.map Name.text = [text] ∧ s'.Faces names (next :: row) := by
  unfold Parser.importList
  apply Parser.succeeds_token.mpr
  rw [h.kind_eq]
  refine (h.importNamespace free).bind fun name s₁ ⟨same, h₁⟩ => ?_
  exact Parser.succeeds_pure ⟨congrArg (fun t => [t]) same, h₁⟩

theorem importList_entry
    (h : s.Faces names (.punct .braceL :: .word text none :: .punct .braceR :: next :: row)) :
    Parser.importList.Succeeds c s fun list s' =>
      list.map Name.text = [text] ∧ s'.Faces names (next :: row) := by
  unfold Parser.importList
  apply Parser.succeeds_token.mpr
  rw [h.kind_eq]
  refine h.bump.bind fun _ s₁ h₁ => ?_
  refine (h₁.delimited nofun ⟨nofun, nofun⟩ h₁.importSpecifier).bind
    fun r s₂ ⟨⟨name, one, same⟩, h₂⟩ => ?_
  refine h₂.expect.bind fun _ s₃ h₃ => ?_
  refine Parser.succeeds_pure ⟨?_, h₃⟩
  rw [one, List.map_singleton, same]

/-- **An import is read** with what it binds. -/
theorem importStatement {clause : List TokenKind} {bound : List String} {source described : String}
    (clauseOf : ImportClause clause bound)
    (h : s.Faces names (.word "import" (some .import) :: (clause ++ .word "from" (some .from) ::
      .literal (.string source) described :: row))) (ends : EndsStatement row rest) :
    Parser.importStatement.Succeeds c s fun d s' =>
      (∃ span list, d = .importing span list ∧ list.map Name.text = bound) ∧ s'.Faces names rest := by
  unfold Parser.importStatement
  apply Parser.succeeds_start.mpr
  have passed : Parser.bump.Succeeds c s fun _ s' => s'.Faces names
      (clause ++ .word "from" (some .from) :: .literal (.string source) described :: row) := by
    obtain ⟨first, others, same⟩ : ∃ first others, clause ++ .word "from" (some .from) ::
        .literal (.string source) described :: row = first :: others :=
      List.exists_cons_of_ne_nil (by simp)
    rw [same] at h ⊢
    exact h.bump
  refine passed.bind fun _ s₁ h₁ => ?_
  apply Parser.succeeds_token.mpr
  extract_lets ending listed named
  let done (d : Stmt) (s' : ParseState) :=
    (∃ span list, d = .importing span list ∧ list.map Name.text = bound) ∧ s'.Faces names rest
  have ending_succeeds (list : List Name) (binds : list.map Name.text = bound) (s₂ : ParseState)
      (h₂ : s₂.Faces names (.literal (.string source) described :: row)) :
      (ending list).Succeeds c s₂ done := by
    obtain ⟨next, more, same⟩ := ends.exists_cons
    rw [same] at h₂
    refine h₂.stringLiteral.bind fun _ s₃ ⟨_, h₃⟩ => ?_
    rw [← same] at h₃
    refine .after (h₃.importAttributes ends) ?_
    refine (h₃.endStatement ends).bind fun _ s₄ h₄ => ?_
    exact Parser.succeeds_spanFrom.mpr (Parser.succeeds_pure ⟨⟨_, list, rfl, binds⟩, h₄⟩)
  have listed_succeeds (list : List Name) (binds : list.map Name.text = bound) (s₂ : ParseState)
      (h₂ : s₂.Faces names (.word "from" (some .from) :: .literal (.string source) described :: row)) :
      (listed list).Succeeds c s₂ done := by
    refine h₂.expectWord.bind fun _ s₃ h₃ => ?_
    exact .after rfl (ending_succeeds list binds s₃ h₃)
  have named_succeeds : (named ()).Succeeds c s₁ done := by
    apply Parser.succeeds_token.mpr
    cases clauseOf with
    | whole free =>
      have noName : s₁.token.kind.isName = false := by
        rw [h₁.kind_eq]
        rfl
      rw [noName, if_neg Bool.false_ne_true]
      apply Parser.succeeds_token.mpr
      rw [h₁.kind_eq]
      exact (h₁.importList_whole free).bind fun list s₂ ⟨binds, h₂⟩ =>
        listed_succeeds list binds s₂ h₂
    | list =>
      have noName : s₁.token.kind.isName = false := by
        rw [h₁.kind_eq]
        rfl
      rw [noName, if_neg Bool.false_ne_true]
      apply Parser.succeeds_token.mpr
      rw [h₁.kind_eq]
      exact h₁.importList_entry.bind fun list s₂ ⟨binds, h₂⟩ => listed_succeeds list binds s₂ h₂
    | default free =>
      rw [if_pos (h₁.isName free)]
      refine (h₁.bindingName free).bind fun name s₂ ⟨same, h₂⟩ => ?_
      refine .after (h₂.eat_other (by simp)) ?_
      rw [if_neg Bool.false_ne_true]
      exact .after rfl (listed_succeeds [name] (congrArg (fun t => [t]) same) s₂ h₂)
  obtain ⟨noText, noDefer, noSource⟩ := h₁.noPhase clauseOf
  split
  · rename_i text
    exact absurd text (noText _ _)
  · refine Parser.succeeds_token.mpr (Parser.succeeds_nextToken.mpr ?_)
    rw [noDefer, noSource, if_neg Bool.false_ne_true, if_neg Bool.false_ne_true]
    exact named_succeeds

end ParseState.Faces

end ModuleInterop.Syntax
