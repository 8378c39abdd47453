import ModuleInterop.Proofs.Syntax.Parser.Primary
import ModuleInterop.Syntax.Parser.Operator

/-!
# What the parsers of accesses, calls and operators give

What follows an expression extends it: the new expression is laid from where the old one begins.
-/

set_option autoImplicit false

namespace ModuleInterop.Syntax.Parser

open ModuleInterop.Text

attribute [local simp] Node.inside Node.pieces Node.parts Node.bare Node.part Node.listed

variable {source : List Char} {g : Grammar} {c : Context} {s : ParseState}

/-! ## Accesses and calls -/

section Access

variable {first : Nat} {object : Expr}

theorem gives_namedAccess (hs : s.Sound source) (start : Boundary source first)
    (laid : LaidAll source s.faults first s.previousEnd [.part object]) :
    (namedAccess first object).Gives c s fun e s' =>
      Step source s s' ∧ LaidAll source s'.faults first s'.previousEnd [.part e] := by
  have le := laid.le
  unfold namedAccess
  refine token_bind.mpr ?_
  split
  · refine (passes_advance c s hs).bind fun _ s₁ ⟨⟨h₁, _, _, _, _, _⟩, _, _, _⟩ => ?_
    exact spanFrom_bind.mpr
      (gives_pure (laid_between h₁ start laid (by omega) ⟨id, rfl, by simp, rfl⟩))
  · refine (gives_wordText hs).bind fun _ s₁ ⟨⟨⟨h₁, _, _, _, _, _⟩, _, _, _⟩, _⟩ => ?_
    exact spanFrom_bind.mpr
      (gives_pure (laid_between h₁ start laid (by omega) ⟨id, rfl, by simp, rfl⟩))

theorem gives_keyedAccess (hg : g.Sound source) (hs : s.Sound source)
    (start : Boundary source first) (laid : LaidAll source s.faults first s.previousEnd [.part object]) :
    (keyedAccess g first object).Gives c s fun e s' =>
      Step source s s' ∧ LaidAll source s'.faults first s'.previousEnd [.part e] := by
  have le := laid.le
  unfold keyedAccess
  refine (passes_expect _ c s hs).bind fun _ s₁ ⟨⟨h₁, _, _, _, _, _⟩, _, _, _⟩ => ?_
  refine ((reads_expression hg).withReader _ c s₁ h₁).bind fun key s₂ ⟨⟨h₂, _, _, _, _, _⟩, laid'⟩ =>
    ?_
  refine (passes_expect _ c s₂ h₂).bind fun _ s₃ ⟨⟨h₃, _, _, _, _, _⟩, _, _, _⟩ => ?_
  have pieces : LaidAll source s₃.faults first s₃.previousEnd ([Node.part object] ++ [Node.part key]) :=
    (laid.add laid' (by omega)).wide (by omega)
  exact spanFrom_bind.mpr
    (gives_pure (laid_between h₃ start pieces (by omega) ⟨id, rfl, by simp, rfl⟩))

theorem gives_accesses (hg : g.Sound source) (hs : s.Sound source) (start : Boundary source first)
    (isChain : Bool) (laid : LaidAll source s.faults first s.previousEnd [.part object]) :
    (accesses g first object isChain).Gives c s fun r s' =>
      Step source s s' ∧ LaidAll source s'.faults first s'.previousEnd [.part r.1] := by
  unfold accesses
  let keeps (read : Expr × Bool) (s' : ParseState) := Step source s s' ∧
    LaidAll source s'.faults first s'.previousEnd [.part read.1]
  refine gives_iterate keeps _ ⟨.refl hs, laid⟩ ?_
  rintro ⟨object, isChain⟩ s₁ ⟨⟨h₁, _, _, _, _, _⟩, laid⟩
  have le := laid.le
  have named (s₂ : ParseState) (moved : Moved source s₁ s₂) (isChain : Bool) :
      Gives (do return .inl (← namedAccess first object, isChain)) c s₂ (After keeps keeps) := by
    obtain ⟨⟨h₂, _, _, _, _, _⟩, _, _, _⟩ := moved
    refine (gives_namedAccess h₂ start (laid.wide (by omega))).bind fun e s₃
      ⟨⟨h₃, _, _, _, _, _⟩, laid⟩ => ?_
    exact gives_pure ⟨.of h₃ (by omega), laid⟩
  have keyed (s₂ : ParseState) (step : Step source s₁ s₂) (isChain : Bool) :
      Gives (do return .inl (← keyedAccess g first object, isChain)) c s₂ (After keeps keeps) := by
    obtain ⟨h₂, _, _, _, _, _⟩ := step
    refine (gives_keyedAccess hg h₂ start (laid.wide (by omega))).bind fun e s₃
      ⟨⟨h₃, _, _, _, _, _⟩, laid⟩ => ?_
    exact gives_pure ⟨.of h₃ (by omega), laid⟩
  have tagged : Gives (do
      let inner ← template g true
      let span ← spanFrom first
      if isChain then report .templateInChain span.start
      return .inl (.group span .taggedTemplate [object, inner], isChain)) c s₁
        (After keeps keeps) := by
    refine (reads_template hg true c s₁ h₁).bind fun inner s₂ ⟨⟨h₂, _, _, _, _, _⟩, laid'⟩ => ?_
    have pieces : LaidAll source s₂.faults first s₂.previousEnd ([Node.part object] ++ [Node.part inner]) :=
      laid.add laid' (by omega)
    refine spanFrom_bind.mpr (gives_noteIf (notes_report _ _) fun s₃ same => ?_)
    obtain ⟨h₃, start', ended⟩ := same.after h₂
    exact gives_pure ⟨.of h₃ (by omega),
      .of_fits (.between start h₂.ended (by omega)) (pieces.later (by omega)) ⟨by simp, rfl⟩⟩
  have stop : Gives (pure (.inr (object, isChain))) c s₁ (After keeps keeps) :=
    gives_pure ⟨.of h₁ (by omega), laid⟩
  refine token_bind.mpr ?_
  split
  · exact (passes_bump c s₁ h₁).bind fun _ s₂ moved => named s₂ moved _
  · refine read_bind.mpr (nextToken_bind.mpr ?_)
    split
    · exact (passes_bump c s₁ h₁).bind fun _ s₂ moved => named s₂ moved _
    · exact (passes_bump c s₁ h₁).bind fun _ s₂ moved => named s₂ moved _
    · split
      · exact stop
      · exact (passes_bump c s₁ h₁).bind fun _ s₂ moved => keyed s₂ moved.toStep _
    · exact stop
  · refine read_bind.mpr ?_
    split
    · exact stop
    · exact keyed s₁ (.refl h₁) _
  · exact tagged
  · exact tagged
  · exact stop

end Access

theorem reads_memberExpression (hg : g.Sound source) :
    Reads source (memberExpression g) fun r => [.part r.1] := by
  intro c s hs
  unfold memberExpression
  refine start_bind.mpr ?_
  refine (reads_primary hg c s hs).bind fun e s₁ ⟨⟨h₁, _, _, _, _, _⟩, laid⟩ => ?_
  refine (gives_accesses hg h₁ hs.start _ laid).mono fun r s₂ ⟨⟨h₂, _, _, _, _, _⟩, laid⟩ => ?_
  exact ⟨.of h₂ (by omega), laid⟩

theorem reads_operandExpression (hg : g.Sound source) :
    Reads source (operandExpression g) fun e => [.part e] := by
  intro c s hs
  unfold operandExpression
  refine start_bind.mpr ?_
  refine (reads_memberExpression hg c s hs).bind fun (head, isChain) s₁ ⟨⟨h₁, _, _, _, _, _⟩, laid⟩ =>
    ?_
  let keeps (read : Expr × Bool) (s' : ParseState) := Step source s s' ∧
    LaidAll source s'.faults s.token.span.start s'.previousEnd [.part read.1]
  dsimp -zeta only
  have init : keeps (head, isChain) s₁ := ⟨.of h₁ (by omega), laid⟩
  refine (gives_iterate keeps keeps init ?_).bind fun (value, isChain) s' ⟨⟨h', _, _, _, _, _⟩, laid⟩
    => ?_
  · rintro ⟨object, isChain⟩ s₂ ⟨⟨h₂, _, _, _, _, _⟩, laid⟩
    refine (gives_accesses hg h₂ hs.start _ laid).bind
      fun (value, isChain) s₃ ⟨⟨h₃, _, _, _, _, _⟩, laid⟩ => ?_
    have le := laid.le
    refine token_bind.mpr ?_
    refine ((mayPass_eat _).goesOn c _ h₃).bind fun isOptional s₄ ⟨h₄, _, _, _, _, _⟩ => ?_
    have tagged : Gives (do
        let inner ← template g true
        report .templateInChain s₃.token.span.start
        return .inl (.group (← spanFrom s.token.span.start) .taggedTemplate [value, inner], true))
        c s₄ (After keeps keeps) := by
      refine (reads_template hg true c s₄ h₄).bind fun inner s₅ ⟨⟨h₅, _, _, _, _, _⟩, laid'⟩ => ?_
      refine (notes_report _ _ c s₅).bind fun _ s₆ same => ?_
      obtain ⟨h₆, start', ended⟩ := same.after h₅
      have pieces : LaidAll source s₆.faults s.token.span.start s₆.previousEnd
          ([Node.part value] ++ [Node.part inner]) := (laid.add laid' (by omega)).wide (by omega)
      have le := pieces.le
      exact spanFrom_bind.mpr
        (gives_pure (laid_between h₆ hs.start pieces (by omega) ⟨id, rfl, by simp, rfl⟩))
    refine token_bind.mpr ?_
    split
    · refine (reads_arguments hg c s₄ h₄).bind fun list s₅ ⟨⟨h₅, _, _, _, _, _⟩, laid'⟩ => ?_
      have pieces : LaidAll source s₅.faults s.token.span.start s₅.previousEnd
          ([Node.part value] ++ list.map Node.part) := laid.add laid' (by omega)
      have le := pieces.le
      exact spanFrom_bind.mpr
        (gives_pure (laid_between h₅ hs.start pieces (by omega) ⟨id, rfl, by simp, rfl⟩))
    · exact tagged
    · exact tagged
    · split
      · exact gives_unexpected
      · exact gives_pure ⟨.of h₄ (by omega), laid.wide (by omega)⟩
  · have le := laid.le
    dsimp -zeta only
    split
    · exact spanFrom_bind.mpr
        (gives_pure (laid_between h' hs.start laid (by omega) ⟨id, rfl, by simp, rfl⟩))
    · exact gives_pure ⟨.of h' (by omega), laid⟩

/-! ## Operators -/

theorem reads_updateExpression (hg : g.Sound source) :
    Reads source (updateExpression g) fun e => [.part e] := by
  intro c s hs
  unfold updateExpression
  refine start_bind.mpr ((looks_either (looks_at _) (looks_at _)).bind fun _ => ?_)
  split
  · refine (passes_bump c s hs).bind fun _ s₂ ⟨⟨h₂, _, _, _, _, _⟩, _, _, _⟩ => ?_
    refine (hg.unary c s₂ h₂).bind fun e s₃ ⟨⟨h₃, _, _, _, _, _⟩, laid⟩ => ?_
    refine (gives_placeOf laid).bind fun place s₄ ⟨same, laid, isPlace⟩ => ?_
    obtain ⟨h₄, start', ended⟩ := same.after h₃
    have le := laid.le
    exact spanFrom_bind.mpr (gives_pure (laid_between h₄ hs.start laid (by omega)
      ⟨fun within => ⟨within, isPlace⟩, rfl, by simp, rfl⟩))
  · refine (reads_operandExpression hg c s hs).bind fun e s₂ ⟨⟨h₂, _, _, _, _, _⟩, laid⟩ => ?_
    refine token_bind.mpr ?_
    split
    · refine (passes_bump c s₂ h₂).bind fun _ s₃ ⟨⟨h₃, _, _, _, _, _⟩, _, _, _⟩ => ?_
      refine (gives_placeOf laid).bind fun place s₄ ⟨same, laid, isPlace⟩ => ?_
      obtain ⟨h₄, start', ended⟩ := same.after h₃
      have le := laid.le
      exact spanFrom_bind.mpr (gives_pure (laid_between h₄ hs.start laid (by omega)
        ⟨fun within => ⟨within, isPlace⟩, rfl, by simp, rfl⟩))
    · exact gives_pure ⟨.of h₂ (by omega), laid⟩

theorem looks_atSuspension (k : Keyword) (inContext : Bool) : Looks (atSuspension k inContext) := by
  intro c s
  unfold atSuspension
  refine atWord_bind.mpr ?_
  split
  · split
    · exact gives_pure rfl
    · exact nextToken_bind.mpr (gives_pure rfl)
  · exact gives_pure rfl

theorem reads_unaryExpression (hg : g.Sound source) :
    Reads source (unaryExpression g) fun e => [.part e] := by
  intro c s hs
  unfold unaryExpression
  refine token_bind.mpr ?_
  split
  · refine (passes_bump c s hs).bind fun _ s₁ ⟨⟨h₁, _, _, _, _, _⟩, _, _, _⟩ => ?_
    refine (hg.unary c s₁ h₁).bind fun e s₂ ⟨⟨h₂, _, _, _, _, _⟩, laid⟩ => ?_
    have le := laid.le
    have pieces : LaidAll source s₂.faults s.token.span.start s₂.previousEnd [.part e] := laid.wide (by omega)
    refine spanFrom_bind.mpr (at_bind.mpr (gives_noteIf (notes_report _ _) fun s₃ same => ?_))
    obtain ⟨h₃, start', ended⟩ := same.after h₂
    exact gives_pure ⟨.of h₃ (by omega),
      .of_fits (.between hs.start h₂.ended (by omega)) (pieces.later (by omega)) ⟨by simp, rfl⟩⟩
  · refine read_bind.mpr ((looks_atSuspension _ _).bind fun _ => ?_)
    split
    · refine read_bind.mpr (gives_noteIf (notes_report _ _) fun s₂ same => ?_)
      obtain ⟨h₂, start', ended⟩ := same.after hs
      refine (passes_bump c s₂ h₂).bind fun _ s₃ ⟨⟨h₃, _, _, _, _, _⟩, _, _, _⟩ => ?_
      refine (hg.unary.withReader _ c s₃ h₃).bind fun e s₄ ⟨⟨h₄, _, _, _, _, _⟩, laid⟩ => ?_
      have le := laid.le
      exact spanFrom_bind.mpr
        (gives_pure (laid_between h₄ hs.start laid (by omega) ⟨id, rfl, by simp, rfl⟩))
    · exact reads_updateExpression hg c s hs

theorem reads_firstOperand (hg : g.Sound source) :
    Reads source (firstOperand g) fun e => [.part e] := by
  intro c s hs
  unfold firstOperand
  refine token_bind.mpr ?_
  split
  · refine (passes_advance c s hs).bind fun _ s₁ moved => ?_
    have within := moved.token_within hs
    obtain ⟨⟨h₁, _, _, _, _, _⟩, _, _, _⟩ := moved
    refine (passes_expectWord _ c s₁ h₁).bind fun _ s₂ ⟨⟨h₂, _, _, _, _, _⟩, _, _, _⟩ => ?_
    refine (hg.binary _ c s₂ h₂).bind fun right s₃ ⟨⟨h₃, _, _, _, _, _⟩, laid⟩ => ?_
    have name : LaidAll source s₁.faults s.token.span.start s₁.previousEnd [.part (.atom s.token.span)] :=
      .leaf within ⟨rfl, rfl⟩
    have pieces : LaidAll source s₃.faults s.token.span.start s₃.previousEnd
        ([Node.part (.atom s.token.span)] ++ [Node.part right]) := name.add laid (by omega)
    have le := pieces.le
    exact spanFrom_bind.mpr
      (gives_pure (laid_between h₃ hs.start pieces (by omega) ⟨id, rfl, by simp, rfl⟩))
  · exact hg.unary c s hs

theorem reads_binaryExpression (hg : g.Sound source) (level : Nat) :
    Reads source (binaryExpression g level) fun e => [.part e] := by
  intro c s hs
  unfold binaryExpression
  refine start_bind.mpr ?_
  refine (reads_firstOperand hg c s hs).bind fun head s₁ ⟨⟨h₁, _, _, _, _, _⟩, laid⟩ => ?_
  let keeps (left : Expr) (s' : ParseState) := Step source s s' ∧
    LaidAll source s'.faults s.token.span.start s'.previousEnd [.part left]
  refine gives_iterate keeps _ ⟨.of h₁ (by omega), laid⟩ ?_
  rintro left s₂ ⟨⟨h₂, _, _, _, _, _⟩, laid₂⟩
  refine read_bind.mpr (token_bind.mpr ?_)
  split
  · exact gives_pure ⟨.of h₂ (by omega), laid₂⟩
  split
  · exact gives_pure ⟨.of h₂ (by omega), laid₂⟩
  refine (passes_bump c s₂ h₂).bind fun _ s₃ ⟨⟨h₃, _, _, _, _, _⟩, _, _, _⟩ => ?_
  refine (hg.binary _ c s₃ h₃).bind fun right s₄ ⟨⟨h₄, _, _, _, _, _⟩, laid₄⟩ => ?_
  have pieces : LaidAll source s₄.faults s.token.span.start s₄.previousEnd
      ([Node.part left] ++ [Node.part right]) :=
    laid₂.add laid₄ (by omega)
  have le := pieces.le
  refine spanFrom_bind.mpr ?_
  split
  · exact gives_pure (laid_between h₄ hs.start pieces (by omega) ⟨id, rfl, by simp, rfl⟩)
  · refine gives_noteIf (notes_report _ _) fun s₅ same => ?_
    obtain ⟨h₅, start', ended⟩ := same.after h₄
    exact gives_pure ⟨.of h₅ (by omega),
      .of_fits (.between hs.start h₄.ended (by omega)) (pieces.later (by omega)) ⟨by simp, rfl⟩⟩

end ModuleInterop.Syntax.Parser
