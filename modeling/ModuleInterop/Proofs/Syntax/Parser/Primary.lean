import ModuleInterop.Proofs.Syntax.Parser.Function
import ModuleInterop.Proofs.Syntax.Parser.Target
import ModuleInterop.Syntax.Parser.Primary

/-!
# What the parsers of primary expressions give
-/

set_option autoImplicit false

namespace ModuleInterop.Syntax.Parser

open ModuleInterop.Text

attribute [local simp] Node.inside Node.pieces Node.parts Node.bare Node.part Node.listed

variable {source : List Char} {g : Grammar} {c : Context} {s : ParseState}

theorem reads_expression (hg : g.Sound source) :
    Reads source (expression g) fun e => [.part e] := by
  intro c s hs
  unfold expression
  refine start_bind.mpr ?_
  refine (hg.assignment.withReader _ c s hs).bind fun head s₁ ⟨⟨h₁, _, _, _, _, _⟩, laid⟩ => ?_
  have le := laid.le
  refine at_bind.mpr ?_
  split
  · let keeps (read : List Expr) (s' : ParseState) := Step source s s' ∧
      LaidAll source s'.faults s.token.span.start s'.previousEnd (read.reverse.map .part)
    let done (parts : List Expr) (s' : ParseState) := Step source s s' ∧
      LaidAll source s'.faults s.token.span.start s'.previousEnd (parts.map .part)
    have init : keeps [head] s₁ := ⟨.of h₁ (by omega), laid⟩
    refine (gives_iterate keeps done init ?_).bind fun parts s' ⟨⟨h', _, _, _, _, _⟩, laid'⟩ => ?_
    · rintro read s₂ ⟨⟨h₂, _, _, _, _, _⟩, laid₂⟩
      refine ((mayPass_eat _).goesOn c _ h₂).bind fun _ s₃ ⟨h₃, _, _, _, _, _⟩ => ?_
      split
      · refine (hg.assignment c s₃ h₃).bind fun e s₄ ⟨⟨h₄, _, _, _, _, _⟩, laid₄⟩ => ?_
        refine gives_pure ⟨.of h₄ (by omega), ?_⟩
        simpa using laid₂.add laid₄ (by omega)
      · exact gives_pure ⟨.of h₃ (by omega), laid₂.wide (by omega)⟩
    · have le' := laid'.le
      exact spanFrom_bind.mpr
        (gives_pure (laid_between h' hs.start laid' (by omega) ⟨id, rfl, by simp, rfl⟩))
  · exact gives_pure ⟨.of h₁ (by omega), laid⟩

theorem reads_spread (hg : g.Sound source) : Reads source (spread g) fun e => [.part e] := by
  intro c s hs
  unfold spread
  refine start_bind.mpr ?_
  refine (passes_bump c s hs).bind fun _ s₁ ⟨⟨h₁, _, _, _, _, _⟩, _, _, _⟩ => ?_
  refine (hg.assignment c s₁ h₁).bind fun inner s₂ ⟨⟨h₂, _, _, _, _, _⟩, laid⟩ => ?_
  have le := laid.le
  exact spanFrom_bind.mpr
    (gives_pure (laid_between h₂ hs.start laid (by omega) ⟨id, rfl, by simp, rfl⟩))

theorem reads_arguments (hg : g.Sound source) :
    Reads source (arguments g) fun list => list.map .part := by
  intro c s hs
  unfold arguments
  refine (passes_expect _ c s hs).bind fun _ s₁ ⟨⟨h₁, _, _, _, _, _⟩, _, _, _⟩ => ?_
  refine ((readsUpTo_delimited .part ?_).withReader _ c s₁ h₁).bind
    fun list s₂ ⟨⟨h₂, _, _, _, _, _⟩, laid⟩ => ?_
  · intro c s hs
    refine at_bind.mpr ?_
    split
    · exact (reads_spread hg).upTo c s hs
    · exact hg.assignment.upTo c s hs
  · refine (passes_expect _ c s₂ h₂).bind fun _ s₃ ⟨⟨h₃, _, _, _, _, _⟩, _, _, _⟩ => ?_
    exact gives_pure ⟨.of h₃ (by omega), laid.wide (by omega)⟩

/-- The token has been read again as something else that begins no earlier and is no word. -/
theorem gives_reread {lex : Token → List Char → Lexed} (hs : s.Sound source)
    (placed : (lex s.token s.rest).Placed source s.token.span.start)
    (other : (lex s.token s.rest).token.kind.isWord = false)
    (parted : (lex s.token s.rest).problems = [] →
      PartedAt source (lex s.token s.rest).pos (lex s.token s.rest).rest) :
    (reread lex).Gives c s fun _ s' => Step source s s' ∧ s'.previousEnd = s.previousEnd := by
  intro _ _ run
  obtain ⟨rfl, rfl⟩ := Prod.mk.inj (Except.ok.inj run)
  have order := Nat.le_trans hs.order placed.first_le
  have count := s.faults_adopt (lex s.token s.rest)
  have noWord : (s.adopt (lex s.token s.rest)).token.kind.isWord ≠ true := by
    simp [ParseState.adopt, other]
  have sound : (s.adopt (lex s.token s.rest)).Sound source := by
    refine ⟨placed.stands, hs.ended, placed.start, placed.stop, order, placed.start_le, placed.text,
      fun name keyword word => ?_, fun fine => ?_, fun _ word => absurd word noWord,
      fun word => absurd word noWord⟩
    · rw [word] at noWord
      exact absurd rfl noWord
    · exact parted (List.eq_nil_of_length_eq_zero (by omega))
  exact ⟨.of sound ⟨placed.first_le, Nat.le_refl _, Nat.le.intro ((Nat.add_comm _ _).trans count.symm)⟩,
    rfl⟩

theorem passes_templateText (isTagged : Bool) : Passes source (templateText isTagged) := by
  intro c s hs
  unfold templateText
  refine token_bind.mpr ?_
  split
  · refine gives_noteIf (notes_report _ _) fun s₁ same => ?_
    refine (passes_advance c s₁ (same.sound hs)).bind fun _ s₂ moved => ?_
    exact gives_pure (same.moved moved)
  · exact gives_unexpected

theorem reads_templateValue (hg : g.Sound source) :
    Reads source (templateValue g) fun e => [.part e] := by
  intro c s hs
  unfold templateValue
  refine ((reads_expression hg).withReader _ c s hs).bind fun e s₁ ⟨⟨h₁, _, _, _, _, _⟩, laid⟩ => ?_
  refine at_bind.mpr ?_
  split
  · have stands : LeftAt source s₁.token.span.stop s₁.rest := h₁.stop ▸ h₁.stands
    refine (gives_reread h₁ (placed_templateToken stands h₁.start h₁.le)
      (isWord_templateToken _ _) (parted_templateToken stands)).bind
      fun _ s₂ ⟨⟨h₂, _, _, _, _, _⟩, same⟩ => gives_pure ⟨.of h₂ (by omega), laid.wide (by omega)⟩
  · exact gives_pure ⟨.of h₁ (by omega), laid⟩

theorem reads_template (hg : g.Sound source) (isTagged : Bool) :
    Reads source (template g isTagged) fun e => [.part e] := by
  intro c s hs
  unfold template
  refine token_bind.mpr ?_
  split
  · refine (passes_templateText _ c s hs).bind fun _ s₁ ⟨⟨h₁, _, _, _, _, _⟩, _, _, _⟩ => ?_
    exact spanFrom_bind.mpr (gives_pure (laid_alone h₁ hs.start (by omega) ⟨id, rfl, by simp, rfl⟩))
  · refine (passes_templateText _ c s hs).bind fun text s₁ ⟨⟨h₁, _, _, _, _, _⟩, _, _, _⟩ => ?_
    refine (reads_templateValue hg c s₁ h₁).bind fun value s₂ ⟨⟨h₂, _, _, _, _, _⟩, laid⟩ => ?_
    let keeps (read : List (Option String) × List Expr) (s' : ParseState) := Step source s s' ∧
      LaidAll source s'.faults s.token.span.start s'.previousEnd (read.2.reverse.map .part)
    refine gives_iterate keeps _ ⟨.of h₂ (by omega), laid.wide (by omega)⟩ ?_
    rintro read s₃ ⟨⟨h₃, _, _, _, _, _⟩, laid₃⟩
    have le₃ := laid₃.le
    refine token_bind.mpr ?_
    split
    · refine (passes_templateText _ c s₃ h₃).bind fun _ s₄ ⟨⟨h₄, _, _, _, _, _⟩, _, _, _⟩ => ?_
      refine spanFrom_bind.mpr (gives_pure ⟨.of h₄ (by omega), ?_⟩)
      exact .plain (.between hs.start h₄.ended (by omega)) (laid₃.wide (by omega))
        ⟨rfl, by simp, rfl⟩
    · refine (passes_templateText _ c s₃ h₃).bind fun _ s₄ ⟨⟨h₄, _, _, _, _, _⟩, _, _, _⟩ => ?_
      refine (reads_templateValue hg c s₄ h₄).bind fun _ s₅ ⟨⟨h₅, _, _, _, _, _⟩, laid₅⟩ => ?_
      refine gives_pure ⟨.of h₅ (by omega), ?_⟩
      simpa using laid₃.add laid₅ (by omega)
    · exact gives_missing
  · exact gives_unexpected

theorem reads_arrayLiteral (hg : g.Sound source) :
    Reads source (arrayLiteral g) fun e => [.part e] := by
  intro c s hs
  unfold arrayLiteral
  refine start_bind.mpr ?_
  refine (passes_bump c s hs).bind fun _ s₁ ⟨⟨h₁, _, _, _, _, _⟩, _, _, _⟩ => ?_
  refine ((readsUpTo_delimited .part ?_).withReader _ c s₁ h₁).bind
    fun list s₂ ⟨⟨h₂, _, _, _, _, _⟩, laid⟩ => ?_
  · intro c s hs
    refine token_bind.mpr ?_
    split
    · exact gives_pure ⟨.refl hs,
        .plain (.between hs.start hs.start (by omega)) (.none (by omega)) ⟨rfl, by simp, rfl⟩⟩
    · exact (reads_spread hg).upTo c s hs
    · exact hg.assignment.upTo c s hs
  · refine (passes_expect _ c s₂ h₂).bind fun _ s₃ ⟨⟨h₃, _, _, _, _, _⟩, _, _, _⟩ => ?_
    exact spanFrom_bind.mpr
      (gives_pure (laid_between h₃ hs.start laid (by omega) ⟨id, rfl, by simp, rfl⟩))

theorem reads_property (hg : g.Sound source) :
    Reads source (property g) fun p => [.property p] := by
  intro c s hs
  unfold property
  refine start_bind.mpr (at_bind.mpr ?_)
  split
  · refine (passes_bump c s hs).bind fun _ s₁ ⟨⟨h₁, _, _, _, _, _⟩, _, _, _⟩ => ?_
    refine (hg.assignment c s₁ h₁).bind fun inner s₂ ⟨⟨h₂, _, _, _, _, _⟩, laid⟩ => ?_
    have le := laid.le
    exact spanFrom_bind.mpr
      (gives_pure (laid_between h₂ hs.start laid (by omega) ⟨id, rfl, by simp, rfl⟩))
  refine ((mayPass_eatModifier _ _).goesOn c _ hs).bind fun isAsync s₁ ⟨h₁, _, _, _, _, _⟩ => ?_
  refine gives_modifier h₁ fun isGetter s₂ ⟨h₂, _, _, _, _, _⟩ => ?_
  refine gives_modifier h₂ fun isSetter s₃ ⟨h₃, _, _, _, _, _⟩ => ?_
  refine ((mayPass_eat _).goesOn c _ h₃).bind fun isGenerator s₄ ⟨h₄, _, _, _, _, _⟩ => ?_
  refine token_bind.mpr ?_
  refine (gives_propertyKey hg h₄).bind
    fun key s₅ ⟨⟨⟨h₅, _, _, _, _, _⟩, _, passed, alone⟩, computed, word⟩ => ?_
  refine at_bind.mpr ?_
  split
  · refine start_bind.mpr ?_
    refine (reads_method hg _ _ c s₅ h₅).bind fun value s₆ ⟨⟨h₆, _, _, _, _, _⟩, laid⟩ => ?_
    refine (notes_checkAccessor _ _ _ _ c s₆).bind fun _ s' same => ?_
    obtain ⟨h', start, ended⟩ := same.after h₆
    have pieces : LaidAll source s'.faults s.token.span.start s'.previousEnd
        (key.computed.toList.map Node.part ++ [Node.part value]) :=
          (computed.add laid (by omega)).wide (by omega)
    exact spanFrom_bind.mpr
      (gives_pure (laid_between h' hs.start pieces (by omega) ⟨id, rfl, by simp, rfl⟩))
  refine at_bind.mpr ?_
  split
  · rename_i shorthand
    have isName := (Bool.and_eq_true_iff.mp shorthand).1
    obtain ⟨-, keyword, word⟩ := word (TokenKind.isWord_of_isName isName)
    have usable := h₄.usable isName word alone
    have text := usable.text
    refine (notes_checkName _ c s₅).bind fun _ s₆ same => ?_
    obtain ⟨h₆, start, ended⟩ := same.after h₅
    have le := h₄.le
    refine ((mayPass_eat _).goesOn c _ h₆).bind fun _ s₇ ⟨h₇, _, _, _, _, _⟩ => ?_
    split
    · refine (hg.assignment c s₇ h₇).bind fun value s₈ ⟨⟨h₈, _, _, _, _, _⟩, laid⟩ => ?_
      have le' := laid.le
      refine spanFrom_bind.mpr ?_
      refine Gives.bind (notes_modify ?_ c s₈) fun _ s₉ same' => ?_
      · exact fun _ => ⟨rfl, rfl, rfl, rfl, Nat.le_refl _⟩
      obtain ⟨h₉, start', ended'⟩ := same'.after h₈
      have within : s₄.token.span.Within source s.token.span.start s₉.previousEnd :=
        .of h₄.start h₄.end_boundary (by omega)
      have inner : LaidAll source s₉.faults s₄.token.span.stop s₉.previousEnd [.part value] :=
        laid.wide (by omega)
      have usable := usable.later (show s₅.faults ≤ s₉.faults by omega)
      exact gives_pure ⟨.of h₉ (by omega), .of_fits ⟨within, usable⟩ inner ⟨by simp, rfl⟩⟩
    · have within : s₄.token.span.Within source s.token.span.start s₇.previousEnd :=
        .of h₄.start h₄.end_boundary (by omega)
      have usable := usable.later (show s₅.faults ≤ s₇.faults by omega)
      have nothing : LaidAll source s₇.faults s₄.token.span.stop s₇.previousEnd [] := .none (by omega)
      exact spanFrom_bind.mpr
        (gives_pure ⟨.of h₇ (by omega), .of_fits ⟨within, usable⟩ nothing ⟨by simp, rfl⟩⟩)
  · refine (passes_expect _ c s₅ h₅).bind fun _ s₆ ⟨⟨h₆, _, _, _, _, _⟩, _, _, _⟩ => ?_
    refine (hg.assignment c s₆ h₆).bind fun value s₇ ⟨⟨h₇, _, _, _, _, _⟩, laid⟩ => ?_
    have pieces : LaidAll source s₇.faults s.token.span.start s₇.previousEnd
        (key.computed.toList.map Node.part ++ [Node.part value]) :=
          (computed.add laid (by omega)).wide (by omega)
    have le := pieces.le
    exact spanFrom_bind.mpr
      (gives_pure (laid_between h₇ hs.start pieces (by omega) ⟨id, rfl, by simp, rfl⟩))

theorem reads_objectLiteral (hg : g.Sound source) :
    Reads source (objectLiteral g) fun e => [.part e] := by
  intro c s hs
  unfold objectLiteral
  refine start_bind.mpr ?_
  refine (passes_bump c s hs).bind fun _ s₁ ⟨⟨h₁, _, _, _, _, _⟩, _, _, _⟩ => ?_
  refine ((readsUpTo_delimited .property (reads_property hg).upTo).withReader _ c s₁ h₁).bind
    fun list s₂ ⟨⟨h₂, _, _, _, _, _⟩, laid⟩ => ?_
  refine (passes_expect _ c s₂ h₂).bind fun _ s₃ ⟨⟨h₃, _, _, _, _, _⟩, _, _, _⟩ => ?_
  exact spanFrom_bind.mpr
    (gives_pure (laid_between h₃ hs.start laid (by omega) ⟨id, rfl, by simp, rfl⟩))

theorem reads_parenthesized (hg : g.Sound source) :
    Reads source (parenthesized g) fun e => [.part e] := by
  intro c s hs
  unfold parenthesized
  refine start_bind.mpr ?_
  refine (passes_bump c s hs).bind fun _ s₁ ⟨⟨h₁, _, _, _, _, _⟩, _, _, _⟩ => start_bind.mpr ?_
  have element (c : Context) (s : ParseState) (hs : s.Sound source) :
      g.assignment.Gives c s fun e s' => Step source s s' ∧
        LaidAll source s'.faults s.token.span.start s'.token.span.start [.part e] ∧
        (True → LaidAll source s'.faults s.token.span.start s'.previousEnd [.part e]) :=
    (hg.assignment c s hs).mono fun _ _ ⟨step, laid⟩ =>
      ⟨step, laid.mono (Nat.le_refl _) step.order, fun _ => laid⟩
  refine Gives.bind (gives_withReader.mpr (gives_delimited True element h₁))
    fun r s₂ ⟨⟨h₂, _, _, _, _, _⟩, laid, ended⟩ => ?_
  obtain ⟨parts, comma⟩ := r
  rw [← List.map_eq_flatMap] at laid ended
  dsimp -zeta only at laid ended ⊢
  extract_lets close
  suffices close_gives : (close ()).Gives c s₂ fun e s' => Step source s s' ∧
      LaidAll source s'.faults s.token.span.start s'.previousEnd [.part e] by
    split
    · exact gives_fatal.bind fun _ _ h => h
    · exact close_gives
  unfold close
  split
  · exact (passes_expect _ c s₂ h₂).bind fun _ _ _ => gives_fatal
  · refine (passes_expect _ c s₂ h₂).bind fun _ s₃ ⟨⟨h₃, _, _, _, _, _⟩, _, _, _⟩ => ?_
    exact spanFrom_bind.mpr
      (gives_pure (laid_between h₃ hs.start laid (by omega) ⟨id, rfl, by simp, rfl⟩))
  · rename_i notEmpty _
    have inner := (ended trivial).resolve_left notEmpty
    have le := inner.le
    refine spanFrom_bind.mpr ?_
    refine (passes_expect _ c s₂ h₂).bind fun _ s₃ ⟨⟨h₃, _, _, _, _, _⟩, _, _, _⟩ => ?_
    have group : LaidAll source s₃.faults s.token.span.start s₃.previousEnd
        [.part (.group ⟨s₁.token.span.start, s₂.previousEnd⟩ .sequence parts)] :=
      .of_fits (.between h₁.start h₂.ended (by omega)) (inner.later (by omega)) ⟨by simp, rfl⟩
    exact spanFrom_bind.mpr
      (gives_pure (laid_between h₃ hs.start group (by omega) ⟨id, rfl, by simp, rfl⟩))

/-- What follows the word `import`. -/
theorem gives_importRest (hg : g.Sound source) (hs : s.Sound source) {first : Nat}
    (start : Boundary source first) (le : first ≤ s.previousEnd) :
    (importRest g first).Gives c s fun e s' =>
      Step source s s' ∧ LaidAll source s'.faults first s'.previousEnd [.part e] := by
  unfold importRest
  refine ((mayPass_eat _).goesOn c _ hs).bind fun _ s₁ ⟨h₁, _, _, _, _, _⟩ => ?_
  extract_lets _ call
  have call_gives (s₂ : ParseState) (step : Step source s₁ s₂) : (call ()).Gives c s₂ fun e s' =>
      Step source s s' ∧ LaidAll source s'.faults first s'.previousEnd [.part e] := by
    obtain ⟨h₂, _, _, _, _, _⟩ := step
    refine (passes_expect _ c s₂ h₂).bind fun _ s₃ ⟨⟨h₃, _, _, _, _, _⟩, _, _, _⟩ => ?_
    refine ((mayPass_eat _).goesOn c _ h₃).bind fun _ s₄ ⟨h₄, _, _, _, _, _⟩ => gives_failIf fun _ =>
      ?_
    let read (parts : List Expr) (s' : ParseState) := Step source s₄ s' ∧
      LaidAll source s'.faults s₄.token.span.start s'.previousEnd (parts.map .part)
    refine Gives.bind (show Gives _ c s₄ read from gives_withReader.mpr ?_)
      fun parts s₅ ⟨⟨h₅, _, _, _, _, _⟩, laid⟩ => ?_
    · refine (hg.assignment _ s₄ h₄).bind fun e s₅ ⟨⟨h₅, _, _, _, _, _⟩, laid⟩ => ?_
      refine ((mayPass_eat _).goesOn _ _ h₅).bind fun _ s₆ ⟨h₆, _, _, _, _, _⟩ => ?_
      split
      · refine at_bind.mpr ?_
        split
        · exact gives_pure ⟨.of h₆ (by omega), laid.wide (by omega)⟩
        · refine (hg.assignment _ s₆ h₆).bind fun e' s₇ ⟨⟨h₇, _, _, _, _, _⟩, laid'⟩ => ?_
          refine ((mayPass_eat _).goesOn _ _ h₇).bind fun _ s₈ ⟨h₈, _, _, _, _, _⟩ => ?_
          exact gives_pure ⟨.of h₈ (by omega), (laid.add laid' (by omega)).wide (by omega)⟩
      · exact gives_pure ⟨.of h₆ (by omega), laid.wide (by omega)⟩
    · refine ((mayPass_eat _).goesOn _ _ h₅).bind fun _ s₆ ⟨h₆, _, _, _, _, _⟩ => gives_failIf fun _
        => ?_
      have le' := laid.le
      exact spanFrom_bind.mpr
        (gives_pure (laid_between h₆ start laid (by omega) ⟨id, rfl, by simp, rfl⟩))
  split
  · refine token_bind.mpr ?_
    split
    · refine (passes_bump c s₁ h₁).bind fun _ s₂ ⟨⟨h₂, _, _, _, _, _⟩, _, _, _⟩ => ?_
      exact spanFrom_bind.mpr (gives_pure (laid_alone h₂ start (by omega) ⟨id, rfl, by simp, rfl⟩))
    · split
      · exact gives_unexpected.bind fun _ _ h => h
      · exact (passes_bump c s₁ h₁).bind fun _ s₂ moved => call_gives s₂ moved.toStep
  · exact call_gives s₁ (.refl h₁)

theorem reads_newExpression (hg : g.Sound source) :
    Reads source (newExpression g) fun e => [.part e] := by
  intro c s hs
  unfold newExpression
  refine start_bind.mpr ?_
  refine (passes_bump c s hs).bind fun _ s₁ ⟨⟨h₁, _, _, _, _, _⟩, _, _, _⟩ => ?_
  refine ((mayPass_eat _).goesOn c _ h₁).bind fun _ s₂ ⟨h₂, _, _, _, _, _⟩ => ?_
  split
  · refine atWord_bind.mpr ?_
    split
    · refine (passes_bump c s₂ h₂).bind fun _ s₃ ⟨⟨h₃, _, _, _, _, _⟩, _, _, _⟩ => ?_
      exact spanFrom_bind.mpr
        (gives_pure (laid_alone h₃ hs.start (by omega) ⟨id, rfl, by simp, rfl⟩))
    · exact (passes_bump c s₂ h₂).bind fun _ _ _ => gives_fatal
  · refine (hg.member c s₂ h₂).bind fun (callee, isChain) s₃ ⟨⟨h₃, _, _, _, _, _⟩, laid⟩ => ?_
    have le := laid.le
    refine at_bind.mpr ?_
    let read (list : List Expr) (s' : ParseState) := Step source s₃ s' ∧
      LaidAll source s'.faults s₃.previousEnd s'.previousEnd (list.map .part)
    refine gives_either read ?_ (gives_pure ⟨.refl h₃, .none (by omega)⟩)
      fun list s₄ ⟨⟨h₄, _, _, _, _, _⟩, laid'⟩ => ?_
    · refine (reads_arguments hg c s₃ h₃).mono fun list s₄ ⟨step, laid'⟩ => ⟨step, ?_⟩
      exact laid'.wide (by omega)
    dsimp -zeta only
    extract_lets _ last
    suffices last_gives : ∀ s₅, s₄.Same s₅ → (last ()).Gives c s₅ fun e s' => Step source s s' ∧
        LaidAll source s'.faults s.token.span.start s'.previousEnd [.part e] by
      split
      · exact (notes_report _ _ c s₄).bind fun _ => last_gives
      · exact last_gives s₄ (.refl s₄)
    intro s₅ same
    refine gives_noteIf (notes_report _ _) fun s₆ same' => ?_
    obtain ⟨h₆, start, ended⟩ := (same.trans same').after h₄
    have pieces : LaidAll source s₆.faults s.token.span.start s₆.previousEnd ((callee :: list).map .part) :=
      (laid.add laid' (by omega)).wide (by omega)
    exact spanFrom_bind.mpr
      (gives_pure (laid_between h₆ hs.start pieces (by omega) ⟨id, rfl, by simp, rfl⟩))

theorem reads_superWord : Reads source superWord fun e => [.part e] := by
  intro c s hs
  unfold superWord
  refine start_bind.mpr ?_
  refine (passes_bump c s hs).bind fun _ s₁ ⟨⟨h₁, _, _, _, _, _⟩, _, _, _⟩ => token_bind.mpr ?_
  extract_lets word
  have word_gives (s₂ : ParseState) (same : s₁.Same s₂) : (word ()).Gives c s₂ fun e s' =>
      Step source s s' ∧ LaidAll source s'.faults s.token.span.start s'.previousEnd [.part e] := by
    obtain ⟨h₂, start, ended⟩ := same.after h₁
    exact spanFrom_bind.mpr (gives_pure (laid_alone h₂ hs.start (by omega) ⟨id, rfl, by simp, rfl⟩))
  split
  · exact word_gives s₁ (.refl s₁)
  · exact word_gives s₁ (.refl s₁)
  · exact word_gives s₁ (.refl s₁)
  · exact (notes_report _ _ c s₁).bind fun _ => word_gives

theorem reads_literal : Reads source literal fun e => [.part e] := by
  intro c s hs
  unfold literal
  refine token_bind.mpr ?_
  split
  · refine (passes_advance c s hs).bind fun _ s₁ moved => gives_pure ⟨moved.toStep, ?_⟩
    exact .leaf (moved.token_within hs) ⟨rfl, rfl⟩
  · exact gives_unexpected

theorem reads_wordLiteral (value : Literal) :
    Reads source (wordLiteral value) fun e => [.part e] := by
  intro c s hs
  unfold wordLiteral
  refine token_bind.mpr ?_
  refine (passes_bump c s hs).bind fun _ s₁ moved => gives_pure ⟨moved.toStep, ?_⟩
  exact .leaf (moved.token_within hs) ⟨rfl, rfl⟩

theorem reads_primary (hg : g.Sound source) : Reads source (primary g) fun e => [.part e] := by
  intro c s hs
  unfold primary
  refine (readsUpTo_decorators hg c s hs).bind fun marks s₁ ⟨⟨h₁, _, _, _, _, _⟩, decorated⟩ => ?_
  refine token_bind.mpr ?_
  split
  · refine (gives_classFrom hg h₁ _ decorated).mono fun e s₂ ⟨⟨h₂, _, _, _, _, _⟩, laid⟩ => ?_
    exact ⟨.of h₂ (by omega), laid⟩
  -- Without decorators the expression begins at the token.
  refine Gives.mono (?_ : Gives _ c s₁ fun e s' => Step source s₁ s' ∧
    LaidAll source s'.faults s₁.token.span.start s'.previousEnd [.part e])
      fun e s' ⟨⟨h', _, _, _, _, _⟩, laid⟩ => ⟨.of h' (by omega), laid.wide (by omega)⟩
  refine looks_atFunction.bind fun isFunction => ?_
  have regex_gives : Gives (do reread regexToken; literal) c s₁ fun e s' => Step source s₁ s' ∧
      LaidAll source s'.faults s₁.token.span.start s'.previousEnd [.part e] := by
    have stands : LeftAt source s₁.token.span.stop s₁.rest := h₁.stop ▸ h₁.stands
    refine (gives_reread h₁ (placed_regexToken stands h₁.start h₁.le)
      (isWord_regexToken _ _) (parted_regexToken stands)).bind
      fun _ s₃ ⟨⟨h₃, _, _, _, _, _⟩, _⟩ => ?_
    refine (reads_literal c s₃ h₃).mono fun e s₄ ⟨⟨h₄, _, _, _, _, _⟩, laid⟩ => ?_
    exact ⟨.of h₄ (by omega), laid.wide (by omega)⟩
  split
  · exact (reads_functionFrom hg _ c s₁ h₁).bind fun r s₁ read => gives_pure read
  split
  · exact reads_reference c s₁ h₁
  split
  · exact reads_literal c s₁ h₁
  · exact reads_template hg _ c s₁ h₁
  · exact reads_template hg _ c s₁ h₁
  · exact regex_gives
  · exact regex_gives
  · exact reads_parenthesized hg c s₁ h₁
  · exact reads_arrayLiteral hg c s₁ h₁
  · exact reads_objectLiteral hg c s₁ h₁
  · exact reads_wordLiteral _ c s₁ h₁
  · exact reads_wordLiteral _ c s₁ h₁
  · exact reads_wordLiteral _ c s₁ h₁
  · rename_i isThis
    refine (passes_bump c s₁ h₁).bind fun _ s₃ moved => gives_pure ⟨moved.toStep, ?_⟩
    exact .leaf ⟨moved.token_within h₁, h₁.text (isThis ▸ rfl)⟩ ⟨rfl, rfl⟩
  · exact gives_classFrom hg h₁ _ (.none (by omega))
  · exact reads_superWord c s₁ h₁
  · exact reads_newExpression hg c s₁ h₁
  · refine (passes_bump c s₁ h₁).bind fun _ s₃ ⟨⟨h₃, _, _, _, _, _⟩, _, _, _⟩ => ?_
    refine (gives_importRest hg h₃ h₁.start (by omega)).mono fun e s₄ ⟨⟨h₄, _, _, _, _, _⟩, laid⟩ => ?_
    exact ⟨.of h₄ (by omega), laid⟩
  · exact gives_unexpected

end ModuleInterop.Syntax.Parser
