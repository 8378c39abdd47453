import ModuleInterop.Proofs.Syntax.Parser.Statement
import ModuleInterop.Syntax.Parser.Module

/-!
# The statements of a module are laid in its text

What the parsers of imports and exports give, and from all productions together that the statements
of a module are laid one after the other between the beginning and the end of its text
(`laid_parseModule`).
-/

set_option autoImplicit false

namespace ModuleInterop.Syntax

open ModuleInterop.Text

attribute [local simp] Node.inside Node.pieces Node.parts Node.bare Node.part Node.listed

variable {source : List Char} {g : Grammar} {c : Context} {s : ParseState}

namespace Parser

theorem notes_recordExport (text : String) (offset : Nat) : Notes (recordExport text offset) :=
  notes_modify fun _ => ⟨rfl, rfl, rfl, rfl, Nat.le_refl _⟩

/-- A name in an import or export list has text, and unless it is a string, it is a word. -/
theorem gives_externalName (hs : s.Sound source) :
    externalName.Gives c s fun name s' => Moved source s s' ∧ name.span = s.token.span ∧
      name.span.start < name.span.stop ∧
        (name.isString = false → name.span.Spells source name.text ∧
          (s'.faults = 0 → name.span.Alone source)) := by
  unfold externalName
  refine token_bind.mpr ?_
  split
  · rename_i isString
    refine (passes_advance c s hs).bind fun _ s₁ moved =>
      gives_pure ⟨moved, rfl, hs.text ?_, nofun⟩
    rw [isString]
    rfl
  · refine (gives_wordText hs).bind fun name s₁ ⟨moved, span, keyword, word⟩ => ?_
    obtain ⟨-, spells, -⟩ := hs.word _ _ word
    have isWord : s.token.kind.isWord = true := by rw [word]; rfl
    have text := hs.text (TokenKind.hasText_of_isWord isWord)
    have alone (fine : s₁.faults = 0) : s.token.span.Alone source := moved.alone fine isWord
    rw [← span] at text spells alone
    exact gives_pure ⟨moved, span, text, fun _ => ⟨spells, alone⟩⟩

/-! ## Imports -/

theorem goesOn_delimited {α : Type} {close : Punct} {element : Parser α}
    (h : GoesOn source element) : GoesOn source (delimited close element) := by
  intro c s hs
  have element_gives (c : Context) (s : ParseState) (hs : s.Sound source) :
      element.Gives c s fun _ s' => Step source s s' ∧
        LaidAll source s'.faults s.token.span.start s'.token.span.start [] ∧
        (False → LaidAll source s'.faults s.token.span.start s'.previousEnd []) :=
    (h c s hs).mono fun _ _ step => ⟨step, .none step.start_le, False.elim⟩
  exact (gives_delimited False element_gives hs).mono fun _ _ ⟨step, _⟩ => step

theorem goesOn_externalName : GoesOn source externalName := fun _ _ hs =>
  (gives_externalName hs).mono fun _ _ h => h.1.toStep

theorem goesOn_importAttributes : GoesOn source importAttributes := by
  intro c s hs
  unfold importAttributes
  refine token_bind.mpr ?_
  split
  · refine (passes_bump.goesOn.bind fun _ => (passes_expect _).goesOn.bind fun _ =>
      (goesOn_delimited ?_).bind fun _ => (passes_expect _).goesOn) c s hs
    exact goesOn_externalName.bind fun _ => (passes_expect _).goesOn.bind fun _ =>
      passes_stringLiteral.goesOn
  · exact gives_pure (.refl hs)

theorem reads_importSpecifier : Reads source importSpecifier fun name => [.bound name] := by
  intro c s hs
  unfold importSpecifier
  refine token_bind.mpr ?_
  split
  · exact (passes_advance.goesOn.reads fun _ => (passes_expectWord _).goesOn.reads fun _ =>
      reads_bindingName) c s hs
  · refine nextToken_bind.mpr ?_
    split
    · exact (passes_wordText.goesOn.reads fun _ => passes_bump.goesOn.reads fun _ =>
        reads_bindingName) c s hs
    · exact reads_bindingName c s hs

theorem reads_importNamespace : Reads source importNamespace fun name => [.bound name] :=
  (passes_expect _).goesOn.reads fun _ => (passes_expectWord _).goesOn.reads fun _ =>
    reads_bindingName

theorem reads_importList : Reads source importList fun names => names.map .bound := by
  intro c s hs
  unfold importList
  refine token_bind.mpr ?_
  split
  · exact (reads_importNamespace c s hs).bind fun name s₁ read => gives_pure read
  · refine (passes_bump c s hs).bind fun _ s₁ ⟨⟨h₁, _, _, _, _, _⟩, _, _, _⟩ => ?_
    refine (readsUpTo_delimited .bound reads_importSpecifier.upTo c s₁ h₁).bind
      fun (list, _) s₂ ⟨⟨h₂, _, _, _, _, _⟩, laid⟩ => ?_
    refine (passes_expect _ c s₂ h₂).bind fun _ s₃ ⟨⟨h₃, _, _, _, _, _⟩, _, _, _⟩ => ?_
    exact gives_pure ⟨.of h₃ (by omega), laid.wide (by omega)⟩
  · exact gives_unexpected

theorem gives_importStatement (hs : s.Sound source) {word : String}
    (isImport : s.token.kind = .word word (some .import)) :
    importStatement.Gives c s fun d s' =>
      Step source s s' ∧ LaidAll source s'.faults s.token.span.start s'.previousEnd [.listed d] := by
  unfold importStatement
  refine start_bind.mpr ?_
  refine ((passes_bump c s hs).and (gives_bump_keyword hs isImport)).bind
    fun _ s₁ ⟨⟨⟨h₁, _, _, _, _, _⟩, begun, _, _⟩, announced⟩ => ?_
  refine token_bind.mpr ?_
  extract_lets ending listed named
  -- The names that have been read lie between the word at the beginning and what is read next.
  let has (names : List Name) (s₂ : ParseState) := Step source s₁ s₂ ∧
    LaidAll source s₂.faults s.token.span.start s₂.previousEnd (names.map .bound)
  let done (d : Stmt) (s' : ParseState) := Step source s s' ∧
    LaidAll source s'.faults s.token.span.start s'.previousEnd [.listed d]
  have ending_gives (names : List Name) (s₂ : ParseState) (h : has names s₂) :
      (ending names).Gives c s₂ done := by
    obtain ⟨⟨h₂, _, _, _, _, _⟩, laid⟩ := h
    refine (passes_stringLiteral c s₂ h₂).bind fun _ s₃ ⟨⟨h₃, _, _, _, _, _⟩, _, _, _⟩ => ?_
    refine (goesOn_importAttributes c s₃ h₃).bind fun _ s₄ ⟨h₄, _, _, _, _, _⟩ => ?_
    refine (goesOn_endStatement c s₄ h₄).bind fun _ s₅ ⟨h₅, _, _, _, _, _⟩ => ?_
    have announced (fine : s₅.faults = 0) : Announced source s.token.span.start :=
      .inl (announced (by omega))
    exact spanFrom_bind.mpr (gives_pure (laid_between h₅ hs.start laid (by omega)
      ⟨fun within => ⟨within, announced⟩, rfl, by simp, rfl⟩))
  have listed_gives (names : List Name) (s₂ : ParseState) (h : has names s₂) :
      (listed names).Gives c s₂ done := by
    obtain ⟨⟨h₂, _, _, _, _, _⟩, laid⟩ := h
    refine (passes_expectWord _ c s₂ h₂).bind fun _ s₃ ⟨⟨h₃, _, _, _, _, _⟩, _, _, _⟩ =>
      pure_bind.mpr (ending_gives names s₃ ⟨.of h₃ (by omega), laid.wide (by omega)⟩)
  have named_gives (s₂ : ParseState) (step : Step source s₁ s₂) :
      (named ()).Gives c s₂ done := by
    obtain ⟨h₂, _, _, _, _, _⟩ := step
    have list_gives : Gives (importList >>= listed) c s₂ done := by
      refine (reads_importList c s₂ h₂).bind fun names s₃ ⟨⟨h₃, _, _, _, _, _⟩, laid⟩ => ?_
      exact listed_gives names s₃ ⟨.of h₃ (by omega), laid.wide (by omega)⟩
    refine token_bind.mpr ?_
    split
    · refine (reads_bindingName c s₂ h₂).bind fun name s₃ ⟨⟨h₃, _, _, _, _, _⟩, laid₃⟩ => ?_
      refine ((mayPass_eat _).goesOn c s₃ h₃).bind fun _ s₄ ⟨h₄, _, _, _, _, _⟩ => ?_
      split
      · refine (reads_importList c s₄ h₄).bind fun names s₅ ⟨⟨h₅, _, _, _, _, _⟩, laid₅⟩ => ?_
        have laid : LaidAll source s₅.faults s.token.span.start s₅.previousEnd
            ([.bound name] ++ names.map .bound) := (laid₃.add laid₅ (by omega)).wide (by omega)
        exact pure_bind.mpr (listed_gives _ s₅ ⟨.of h₅ (by omega), laid⟩)
      · exact pure_bind.mpr (listed_gives [name] s₄ ⟨.of h₄ (by omega), laid₃.wide (by omega)⟩)
    · refine token_bind.mpr ?_
      split
      · exact list_gives
      · exact list_gives
      · exact pure_bind.mpr (listed_gives [] s₂ ⟨.of h₂ (by omega), .none (by omega)⟩)
  split
  · exact pure_bind.mpr (ending_gives [] s₁ ⟨.refl h₁, .none (by omega)⟩)
  refine token_bind.mpr (nextToken_bind.mpr ?_)
  split
  · exact (passes_advance.goesOn c s₁ h₁).bind fun _ => named_gives
  · split
    · exact (passes_advance.goesOn c s₁ h₁).bind fun _ => named_gives
    · exact named_gives s₁ (.refl h₁)

/-! ## Exports

The decorators of an exported class may stand before the word `export`, which the span of the
statement begins with. -/

section Export

variable {lo first : Nat} {marks : List Expr}

theorem gives_exportDeclaration (hg : g.Sound source) (hs : s.Sound source)
    (start : Boundary source first) (low : lo ≤ first) (le : first ≤ s.previousEnd)
    (announced : s.faults = 0 → Announced source first)
    (decorated : LaidAll source s.faults lo s.token.span.start (marks.map .part)) :
    (exportDeclaration g first marks).Gives c s fun d s' =>
      Step source s s' ∧ LaidAll source s'.faults lo s'.previousEnd [.listed d] := by
  have order := hs.order
  unfold exportDeclaration
  refine token_bind.mpr ?_
  refine (readsUpTo_decorators hg c s hs).bind fun own s₁ ⟨⟨h₁, _, _, _, _, _⟩, laid⟩ => ?_
  extract_lets ending
  have ending_gives (d : Stmt) (s₂ : ParseState) (h : (Step source s₁ s₂ ∧
      LaidAll source s₂.faults lo s₂.previousEnd [.listed d]) ∧ d.isDeclaration = true) :
      (ending d).Gives c s₂ fun d s' => Step source s s' ∧
        LaidAll source s'.faults lo s'.previousEnd [.listed d] := by
    obtain ⟨⟨⟨h₂, _, _, _, _, _⟩, laid₂⟩, declares⟩ := h
    refine (notes_forM (fun _ => notes_recordExport _ _) _ c s₂).bind fun _ s₃ same => ?_
    obtain ⟨h₃, start₃, ended⟩ := same.after h₂
    have announced (fine : s₃.faults = 0) : Announced source first := announced (by omega)
    exact spanFrom_bind.mpr (gives_pure (laid_between h₃ start laid₂ (by omega)
      ⟨fun within => ⟨within, declares, announced⟩, rfl, by simp, rfl⟩))
  have class_gives (marks : List Expr)
      (decorated : LaidAll source s₁.faults lo s₁.token.span.start (marks.map .part)) :
      Gives (classStatement g true marks >>= ending) c s₁ fun d s' => Step source s s' ∧
        LaidAll source s'.faults lo s'.previousEnd [.listed d] :=
    ((gives_classStatement hg h₁ true decorated).and gives_classDeclaration).bind ending_gives
  have declaration_gives {p : Parser Stmt} (h : Reads source p fun d => [.listed d])
      (form : p.Gives c s₁ fun d _ => d.isDeclaration = true) :
      Gives (p >>= ending) c s₁ fun d s' => Step source s s' ∧
        LaidAll source s'.faults lo s'.previousEnd [.listed d] :=
    ((h c s₁ h₁).and form).bind fun d s₂ ⟨⟨step, laid⟩, declares⟩ =>
      ending_gives d s₂ ⟨⟨step, laid.wide (by omega)⟩, declares⟩
  have variables_gives : Gives (variableStatement g true >>= ending) c s₁ fun d s' =>
      Step source s s' ∧ LaidAll source s'.faults lo s'.previousEnd [.listed d] :=
    declaration_gives (reads_variableStatement hg true) gives_variables
  split
  · exact class_gives own (laid.wide (by omega))
  · exact class_gives marks (decorated.wide (by omega))
  · exact variables_gives
  · exact variables_gives
  · exact variables_gives
  · refine looks_atUsing.bind fun _ => ?_
    split
    · exact variables_gives
    · exact gives_unexpected.bind fun _ _ h => h
  · refine looks_atUsing.bind fun _ => ?_
    split
    · exact variables_gives
    · exact gives_unexpected.bind fun _ _ h => h
  · refine looks_atFunction.bind fun _ => ?_
    split
    · exact declaration_gives (reads_functionStatement hg true) gives_functionDeclaration
    · exact gives_unexpected.bind fun _ _ h => h

theorem gives_exportDefault (hg : g.Sound source) (hs : s.Sound source)
    (start : Boundary source first) (low : lo ≤ first) (le : first ≤ s.previousEnd)
    (announced : s.faults = 0 → Announced source first)
    (decorated : LaidAll source s.faults lo s.token.span.start (marks.map .part)) :
    (exportDefault g first marks).Gives c s fun d s' =>
      Step source s s' ∧ LaidAll source s'.faults lo s'.previousEnd [.listed d] := by
  unfold exportDefault
  refine start_bind.mpr ?_
  refine (notes_recordExport _ _ c s).bind fun _ s₁ same => ?_
  obtain ⟨h₁, start₁, ended₁⟩ := same.after hs
  refine (passes_bump c s₁ h₁).bind fun _ s₂ ⟨⟨h₂, _, _, _, _, _⟩, _, _, _⟩ => ?_
  refine (readsUpTo_decorators hg c s₂ h₂).bind fun own s₃ ⟨⟨h₃, _, _, _, _, _⟩, laid⟩ => ?_
  refine atWord_bind.mpr ?_
  split
  · have all : LaidAll source s₃.faults lo s₃.token.span.start ((marks ++ own).map .part) := by
      simpa using decorated.add laid (by omega)
    refine (gives_classFrom hg h₃ _ all).bind fun value s₄ ⟨⟨h₄, _, _, _, _, _⟩, laid⟩ => ?_
    have announced (fine : s₄.faults = 0) : Announced source first := announced (by omega)
    exact spanFrom_bind.mpr (gives_pure (laid_between h₄ start laid (by omega)
      ⟨fun within => ⟨within, announced⟩, rfl, by simp, rfl⟩))
  refine looks_atFunction.bind fun _ => ?_
  split
  · refine (reads_functionFrom hg _ c s₃ h₃).bind fun r s₄ ⟨⟨h₄, _, _, _, _, _⟩, laid⟩ => ?_
    have value : LaidAll source s₄.faults lo s₄.previousEnd [.part r.1] := laid.wide (by omega)
    have announced (fine : s₄.faults = 0) : Announced source first := announced (by omega)
    exact spanFrom_bind.mpr (gives_pure (laid_between h₄ start value (by omega)
      ⟨fun within => ⟨within, announced⟩, rfl, by simp, rfl⟩))
  · refine (hg.assignment c s₃ h₃).bind fun value s₄ ⟨⟨h₄, _, _, _, _, _⟩, laid⟩ => ?_
    refine (goesOn_endStatement c s₄ h₄).bind fun _ s₅ ⟨h₅, _, _, _, _, _⟩ => ?_
    have value : LaidAll source s₅.faults first s₅.previousEnd [.part value] := laid.wide (by omega)
    have announced (fine : s₅.faults = 0) : Announced source first := announced (by omega)
    exact spanFrom_bind.mpr (gives_pure (laid_from h₅ start value (by omega)
      ⟨fun within => ⟨within, announced⟩, rfl, by simp, rfl⟩))

theorem gives_exportAll (hs : s.Sound source) (start : Boundary source first)
    (low : lo ≤ first) (le : first ≤ s.previousEnd)
    (announced : s.faults = 0 → Announced source first) :
    (exportAll first).Gives c s fun d s' =>
      Step source s s' ∧ LaidAll source s'.faults lo s'.previousEnd [.listed d] := by
  unfold exportAll
  refine (passes_bump c s hs).bind fun _ s₁ ⟨⟨h₁, _, _, _, _, _⟩, _, _, _⟩ => ?_
  refine ((mayPass_eatWord _).goesOn c _ h₁).bind fun _ s₂ ⟨h₂, _, _, _, _, _⟩ => ?_
  refine gives_either (fun _ s' => Step source s₂ s') ?_ (gives_pure (.refl h₂))
    fun exported s₃ ⟨h₃, _, _, _, _, _⟩ => ?_
  · exact (goesOn_externalName c s₂ h₂).map fun _ _ step => step
  dsimp -zeta only
  extract_lets ending
  have ending_gives (s₄ : ParseState) (same : s₃.Same s₄) : (ending ()).Gives c s₄ fun d s' =>
      Step source s s' ∧ LaidAll source s'.faults lo s'.previousEnd [.listed d] := by
    obtain ⟨h₄, start₄, ended₄⟩ := same.after h₃
    refine (passes_expectWord _ c s₄ h₄).bind fun _ s₅ ⟨⟨h₅, _, _, _, _, _⟩, _, _, _⟩ => ?_
    refine (passes_stringLiteral c s₅ h₅).bind fun _ s₆ ⟨⟨h₆, _, _, _, _, _⟩, _, _, _⟩ => ?_
    refine (goesOn_importAttributes c s₆ h₆).bind fun _ s₇ ⟨h₇, _, _, _, _, _⟩ => ?_
    refine (goesOn_endStatement c s₇ h₇).bind fun _ s₈ ⟨h₈, _, _, _, _, _⟩ => ?_
    have announced (fine : s₈.faults = 0) : Announced source first := announced (by omega)
    exact spanFrom_bind.mpr (gives_pure (laid_from h₈ start
      (show LaidAll source s₈.faults s₈.previousEnd s₈.previousEnd [] from .none (Nat.le_refl _))
      (by omega) ⟨fun within => ⟨within, announced⟩, rfl, by simp, rfl⟩))
  split
  · exact (notes_recordExport _ _ c s₃).bind fun _ => ending_gives
  · exact ending_gives s₃ (.refl s₃)

theorem readsUpTo_exportSpecifier :
    ReadsUpTo source exportSpecifier fun x => [.specifier x] := by
  intro c s hs
  unfold exportSpecifier
  refine (gives_externalName hs).bind fun inner s₁ ⟨moved, span, text⟩ => ?_
  have within : inner.span.Within source s.token.span.start s₁.previousEnd :=
    span ▸ moved.token_within hs
  obtain ⟨⟨h₁, _, _, _, _, _⟩, _, _, _⟩ := moved
  refine ((mayPass_eatWord _).goesOn c _ h₁).bind fun _ s₂ ⟨h₂, _, _, _, _, _⟩ => ?_
  refine gives_either (fun _ s' => Step source s₂ s') (goesOn_externalName c s₂ h₂)
    (gives_pure (.refl h₂)) fun exported s₃ ⟨h₃, _, _, _, _, _⟩ => ?_
  have fits : inner.span.Within source s.token.span.start s₃.token.span.start :=
    within.mono (Nat.le_refl _) (by omega)
  have none (fine : s₃.faults = 0) : s₁.faults = 0 := by omega
  exact gives_pure ⟨.of h₃ (by omega), .plain ⟨fits, text.1, fun plain =>
    ⟨(text.2 plain).1, fun fine => (text.2 plain).2 (none fine)⟩⟩ (.none fits.le) ⟨rfl, by simp, rfl⟩⟩

theorem notes_checkOwnExport (entry : ExportSpecifier) : Notes (checkOwnExport entry) := by
  intro c s
  unfold checkOwnExport
  split
  · exact notes_report _ _ c s
  · split
    · exact notes_report _ _ c s
    · exact gives_pure (.refl s)

theorem gives_exportList (hs : s.Sound source) (start : Boundary source first)
    (low : lo ≤ first) (le : first ≤ s.previousEnd)
    (announced : s.faults = 0 → Announced source first) :
    (exportList first).Gives c s fun d s' =>
      Step source s s' ∧ LaidAll source s'.faults lo s'.previousEnd [.listed d] := by
  have order := hs.order
  unfold exportList
  refine (passes_bump c s hs).bind fun _ s₁ ⟨⟨h₁, _, _, _, _, _⟩, _, _, _⟩ => ?_
  refine (readsUpTo_delimited .specifier readsUpTo_exportSpecifier c s₁ h₁).bind
    fun (list, _) s₂ ⟨⟨h₂, _, _, _, _, _⟩, laid⟩ => ?_
  refine (passes_expect _ c s₂ h₂).bind fun _ s₃ ⟨⟨h₃, _, _, _, _, _⟩, _, _, _⟩ => ?_
  refine ((mayPass_eatWord _).goesOn c _ h₃).bind fun _ s₄ ⟨h₄, _, _, _, _, _⟩ => ?_
  extract_lets ending
  have ending_gives (origin : Option String) (s₅ : ParseState) (step : Step source s₄ s₅) :
      (ending origin).Gives c s₅ fun d s' => Step source s s' ∧
        LaidAll source s'.faults lo s'.previousEnd [.listed d] := by
    obtain ⟨h₅, _, _, _, _, _⟩ := step
    refine gives_noteIf (notes_forM notes_checkOwnExport _) fun s₆ same₆ => ?_
    refine (notes_forM (fun _ => notes_recordExport _ _) _ c s₆).bind fun _ s₇ same₇ => ?_
    obtain ⟨h₇, start₇, ended₇⟩ := (same₆.trans same₇).after h₅
    refine (goesOn_endStatement c s₇ h₇).bind fun _ s₈ ⟨h₈, _, _, _, _, _⟩ => ?_
    have entries : LaidAll source s₈.faults first s₈.previousEnd (list.map .specifier) :=
      laid.wide (by omega)
    have announced (fine : s₈.faults = 0) : Announced source first := announced (by omega)
    have fits : Span.Within source lo s₈.previousEnd ⟨first, s₈.previousEnd⟩ :=
      .between start h₈.ended (by omega)
    refine spanFrom_bind.mpr (gives_pure ⟨.of h₈ (by omega), ?_⟩)
    -- Only the entries of a list without a module are parts of the statement.
    cases origin with
    | none =>
      have own : LaidAll source s₈.faults first s₈.previousEnd
          ((list.filter fun x => !x.inner.isString).map .specifier) :=
        entries.sublist (List.filter_sublist.map _)
      exact .of_fits ⟨fits, announced⟩ own ⟨by simp, rfl⟩
    | some _ => exact .of_fits ⟨fits, announced⟩ (.none entries.le) ⟨by simp, rfl⟩
  split
  · refine (passes_stringLiteral c s₄ h₄).bind fun _ s₅ ⟨⟨h₅, _, _, _, _, _⟩, _, _, _⟩ => ?_
    refine (goesOn_importAttributes c s₅ h₅).bind fun _ s₆ ⟨h₆, _, _, _, _, _⟩ => pure_bind.mpr ?_
    exact ending_gives _ s₆ (.of h₆ (by omega))
  · exact pure_bind.mpr (ending_gives _ s₄ (.refl h₄))

theorem gives_exportStatement (hg : g.Sound source) (hs : s.Sound source) {word : String}
    (isExport : s.token.kind = .word word (some .export))
    (decorated : LaidAll source s.faults lo s.token.span.start (marks.map .part)) :
    (exportStatement g marks).Gives c s fun d s' =>
      Step source s s' ∧ LaidAll source s'.faults lo s'.previousEnd [.listed d] := by
  have low := decorated.le
  unfold exportStatement
  refine start_bind.mpr ?_
  refine ((passes_bump c s hs).and (gives_bump_keyword hs isExport)).bind
    fun _ s₁ ⟨⟨⟨h₁, _, _, _, _, _⟩, begun, _, _⟩, announced⟩ => token_bind.mpr ?_
  have announced (fine : s₁.faults = 0) : Announced source s.token.span.start :=
    .inr (announced fine)
  have later {d : Stmt} {s' : ParseState} (h : Step source s₁ s' ∧
      LaidAll source s'.faults lo s'.previousEnd [.listed d]) : Step source s s' ∧
      LaidAll source s'.faults lo s'.previousEnd [.listed d] := by
    obtain ⟨⟨h', _, _, _, _, _⟩, laid⟩ := h
    exact ⟨.of h' (by omega), laid⟩
  split
  · have decorated : LaidAll source s₁.faults lo s₁.token.span.start (marks.map .part) :=
      decorated.wide (by omega)
    exact (gives_exportDefault hg h₁ hs.start low begun announced decorated).mono fun _ _ => later
  · exact (gives_exportAll h₁ hs.start low begun announced).mono fun _ _ => later
  · exact (gives_exportList h₁ hs.start low begun announced).mono fun _ _ => later
  · have decorated : LaidAll source s₁.faults lo s₁.token.span.start (marks.map .part) :=
      decorated.wide (by omega)
    exact (gives_exportDeclaration hg h₁ hs.start low begun announced decorated).mono fun _ _ => later

end Export

theorem reads_statement (hg : g.Sound source) (inList : Bool) :
    Reads source (statement g inList) fun s => [.listed s] := by
  intro c s hs
  unfold statement
  refine token_bind.mpr ?_
  split
  · refine (readsUpTo_decorators hg c s hs).bind fun marks s₁ ⟨⟨h₁, _, _, _, _, _⟩, decorated⟩ => ?_
    have later {d : Stmt} {s' : ParseState} (h : Step source s₁ s' ∧
        LaidAll source s'.faults s.token.span.start s'.previousEnd [.listed d]) : Step source s s' ∧
        LaidAll source s'.faults s.token.span.start s'.previousEnd [.listed d] := by
      obtain ⟨⟨h', _, _, _, _, _⟩, laid⟩ := h
      exact ⟨.of h' (by omega), laid⟩
    refine atWord_bind.mpr ?_
    split
    case isTrue isExport =>
      obtain ⟨word, isExport⟩ := kind_of_isWord isExport
      exact (gives_exportStatement hg h₁ isExport decorated).mono fun _ _ => later
    refine atWord_bind.mpr ?_
    split
    · exact (gives_classStatement hg h₁ inList decorated).mono fun _ _ => later
    · exact gives_unexpected
  case _ word isExport => exact gives_exportStatement hg hs isExport (.none (by omega))
  case _ word isImport =>
    refine nextToken_bind.mpr ?_
    split
    · exact reads_expressionStatement hg c s hs
    · exact reads_expressionStatement hg c s hs
    · exact gives_importStatement hs isImport
  · exact reads_plainStatement hg inList c s hs

end Parser

/-! ## The whole grammar -/

theorem Grammar.sound_level (source : List Char) (n : Nat) : (Grammar.level n).Sound source := by
  induction n with
  | zero =>
    constructor
    all_goals first
      | exact fun _ _ _ => Parser.gives_unexpected
      | exact fun _ _ _ _ => Parser.gives_unexpected
  | succ n ih =>
    exact
      { assignment := Parser.reads_assignmentExpression ih
        unary := Parser.reads_unaryExpression ih
        binary := Parser.reads_binaryExpression ih
        member := Parser.reads_memberExpression ih
        operand := Parser.reads_operandExpression ih
        pattern := fun _ _ hs => Parser.gives_bindingPattern ih hs
        statement := Parser.reads_statement ih }

theorem ParseState.sound_start (source : List Char) : (ParseState.start source).Sound source := by
  have placed := placed_firstToken source
  obtain ⟨mode, pos, text, begun, left, parted, same⟩ := firstToken_parted source
  have clean (fine : (ParseState.start source).faults = 0) : (firstToken source).problems = [] := by
    simpa [ParseState.start, ParseState.faults] using fine
  refine ⟨placed.stands, boundary_zero _, placed.start, placed.stop, Nat.zero_le _, placed.start_le,
    placed.text, spelled_firstToken source, fun fine => ?_, fun fine => ?_, ?_⟩
  all_goals simp only [ParseState.start]
  · have fine := clean fine
    rw [same] at fine ⊢
    exact parted_tokenAfter left begun fine
  · rw [same]
    exact seam_tokenAfter left parted
  · rw [same]
    exact wordEnd_tokenAfter left begun

/-- A text that is not refused has no problems at all. -/
theorem faults_of_finalProblem? {s : ParseState} (none : s.finalProblem? = none) : s.faults = 0 := by
  unfold ParseState.finalProblem? at none
  split at none
  · contradiction
  · rename_i clean
    obtain ⟨lexical, problems⟩ := Option.or_eq_none_iff.mp clean
    simp only [List.getLast?_eq_none_iff] at lexical problems
    simp [ParseState.faults, lexical, problems]

/-- The statements of a module are laid one after the other in its text. -/
theorem laid_parseModule {program : Program} (h : parseModule source = .ok program) :
    LaidAll source 0 0 (byteLength source) (program.body.map .listed) := by
  unfold parseModule at h
  split at h
  · contradiction
  rename_i body state run
  split at h
  · contradiction
  rename_i none
  obtain rfl := Except.ok.inj h
  have fine := faults_of_finalProblem? none
  have start := ParseState.sound_start source
  obtain ⟨step, laid⟩ := Parser.readsUpTo_bodyStatements
    (Grammar.sound_level source _) true _ _ start _ _ run
  have inside := step.sound.start.le
  exact laid.wide ⟨Nat.zero_le _, inside, Nat.le_of_eq fine⟩

end ModuleInterop.Syntax
