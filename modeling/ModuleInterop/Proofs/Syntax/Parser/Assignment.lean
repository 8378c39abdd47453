import ModuleInterop.Proofs.Syntax.Parser.Operator
import ModuleInterop.Syntax.Parser.Assignment

/-!
# What the parsers of assignments, conditions and arrow functions give
-/

set_option autoImplicit false

namespace ModuleInterop.Syntax.Parser

open ModuleInterop.Text

attribute [local simp] Node.inside Node.pieces Node.parts Node.bare Node.part Node.listed

variable {source : List Char} {g : Grammar} {c : Context} {s : ParseState}

/-! ## Arrow functions -/

theorem reads_arrowHead (hg : g.Sound source) :
    Reads source (arrowHead g) fun r => r.2.map .pattern := by
  intro c s hs
  unfold arrowHead
  refine ((mayPass_eatWord _).goesOn c _ hs).bind fun isAsync s₁ ⟨h₁, _, _, _, _, _⟩ => ?_
  refine ((reads_parameters hg).withReader _ c s₁ h₁).bind
    fun list s₂ ⟨⟨h₂, _, _, _, _, _⟩, laid⟩ => ?_
  refine token_bind.mpr (gives_noteIf (notes_report _ _) fun s₃ same => ?_)
  obtain ⟨h₃, start, ended⟩ := same.after h₂
  refine (passes_expect _ c s₃ h₃).bind fun _ s₄ ⟨⟨h₄, _, _, _, _, _⟩, _, _, _⟩ => ?_
  exact gives_pure ⟨.of h₄ (by omega), laid.wide (by omega)⟩

/-- An arrow function whose parameters have been read. -/
theorem gives_arrowBody (hg : g.Sound source) (hs : s.Sound source) {first : Nat}
    (start : Boundary source first) (isAsync : Bool) {list : List Pattern}
    (laid : LaidAll source s.faults first s.previousEnd (list.map .pattern)) :
    (arrowBody g first isAsync list).Gives c s fun e s' =>
      Step source s s' ∧ LaidAll source s'.faults first s'.previousEnd [.part e] := by
  have le := laid.le
  unfold arrowBody
  refine gives_withReader.mpr (at_bind.mpr ?_)
  split
  · refine (reads_functionBody hg _ s hs).bind fun body s₁ ⟨⟨h₁, _, _, _, _, _⟩, laid'⟩ => ?_
    have pieces : LaidAll source s₁.faults first s₁.previousEnd
        (list.map Node.pattern ++ body.map Node.listed) :=
      laid.add laid' ⟨hs.order, by omega⟩
    exact spanFrom_bind.mpr
      (gives_pure (laid_between h₁ start pieces (by omega) ⟨id, rfl, by simp, rfl⟩))
  · refine (hg.assignment _ s hs).bind fun value s₁ ⟨⟨h₁, _, _, _, _, _⟩, laid'⟩ => ?_
    have body : LaidAll source s₁.faults s.token.span.start s₁.previousEnd
        [.listed (.expression value.span value)] :=
      .of_fits ⟨laid'.span_within, Nat.le_refl _⟩ (.single laid'.head.upTo_span) ⟨by simp, rfl⟩
    have pieces : LaidAll source s₁.faults first s₁.previousEnd
        (list.map Node.pattern ++ [Node.listed (.expression value.span value)]) :=
      laid.add body ⟨hs.order, by omega⟩
    exact spanFrom_bind.mpr
      (gives_pure (laid_between h₁ start pieces (by omega) ⟨id, rfl, by simp, rfl⟩))

/-- An arrow function with parentheses; if there is none, nothing is read. -/
theorem gives_parenthesizedArrow? (hg : g.Sound source) (hs : s.Sound source) :
    (parenthesizedArrow? g).Gives c s fun r s' =>
      match r with
      | some e => Step source s s' ∧ LaidAll source s'.faults s.token.span.start s'.previousEnd [.part e]
      | none => s.Same s' := by
  unfold parenthesizedArrow?
  refine start_bind.mpr ?_
  refine (looks_lookahead _).bind fun _ => ?_
  split
  · exact gives_pure (.refl s)
  · refine (reads_arrowHead hg c s hs).bind fun (isAsync, list) s₂ ⟨⟨h₂, _, _, _, _, _⟩, laid⟩ => ?_
    refine (gives_arrowBody hg h₂ hs.start isAsync laid).bind fun e s₃ ⟨⟨h₃, _, _, _, _, _⟩, laid⟩ =>
      ?_
    exact gives_pure ⟨.of h₃ (by omega), laid⟩
  · refine get_bind.mpr ?_
    split
    · exact gives_pure (.refl s)
    let tried (head : Option (Bool × List Pattern)) (s' : ParseState) :=
      match head with
      | some r => Step source s s' ∧
        LaidAll source s'.faults s.token.span.start s'.previousEnd (r.2.map .pattern)
      | none => s.Same s'
    refine Gives.bind (show Gives _ c s tried from
      gives_attempt (reads_arrowHead hg c s hs) fun _ same => same) fun head s₂ h => ?_
    match head, h with
    | some (isAsync, list), ⟨⟨h₂, _, _, _, _, _⟩, laid⟩ =>
      refine (gives_arrowBody hg h₂ hs.start isAsync laid).bind
        fun e s₃ ⟨⟨h₃, _, _, _, _, _⟩, laid⟩ => gives_pure ⟨.of h₃ (by omega), laid⟩
    | none, same =>
      refine Gives.bind (notes_modify ?_ c s₂) fun _ s₃ same' => gives_pure (same.trans same')
      exact fun _ => ⟨rfl, rfl, rfl, rfl, Nat.le_refl _⟩

/-- An arrow function from its arrow on. -/
theorem gives_simpleArrow (hg : g.Sound source) (hs : s.Sound source) {first : Nat}
    (start : Boundary source first) (isAsync : Bool) {name : Name}
    (laid : LaidAll source s.faults first s.previousEnd [.pattern (.binding name)]) :
    (simpleArrow g first isAsync name).Gives c s fun e s' =>
      Step source s s' ∧ LaidAll source s'.faults first s'.previousEnd [.part e] := by
  unfold simpleArrow
  refine token_bind.mpr (gives_noteIf (notes_report _ _) fun s₁ same => ?_)
  obtain ⟨h₁, start', ended⟩ := same.after hs
  refine (passes_expect _ c s₁ h₁).bind fun _ s₂ ⟨⟨h₂, _, _, _, _, _⟩, _, _, _⟩ => ?_
  have parameter : LaidAll source s₂.faults first s₂.previousEnd ([Pattern.binding name].map .pattern) :=
    laid.wide (by omega)
  exact (gives_arrowBody hg h₂ start isAsync parameter).mono
    fun e s₃ ⟨⟨h₃, _, _, _, _, _⟩, laid⟩ => ⟨.of h₃ (by omega), laid⟩

/-! ## Other expressions without commas -/

theorem reads_yieldExpression (hg : g.Sound source) :
    Reads source (yieldExpression g) fun e => [.part e] := by
  intro c s hs
  unfold yieldExpression
  refine start_bind.mpr ?_
  refine (passes_bump c s hs).bind fun _ s₁ ⟨⟨h₁, _, _, _, _, _⟩, _, _, _⟩ => ?_
  refine read_bind.mpr (gives_noteIf (notes_report _ _) fun s₂ same => token_bind.mpr ?_)
  obtain ⟨h₂, start', ended⟩ := same.after h₁
  have bare (s' : ParseState) (h' : s'.Sound source) (step : Step source s₂ s') :
      Gives (do return .group (← spanFrom s.token.span.start) .yield []) c s' fun e s' =>
        Step source s s' ∧ LaidAll source s'.faults s.token.span.start s'.previousEnd [.part e] := by
    obtain ⟨_, _, _, _, _⟩ := step
    exact spanFrom_bind.mpr (gives_pure (laid_alone h' hs.start (by omega) ⟨id, rfl, by simp, rfl⟩))
  split
  · exact bare s₂ h₂ (.refl h₂)
  refine ((mayPass_eat _).goesOn c _ h₂).bind fun _ s₃ step => ?_
  have ⟨h₃, _, _, _, _, _⟩ := step
  refine token_bind.mpr ?_
  extract_lets rest
  have rest_gives (isEnd : Bool) : (rest isEnd).Gives c s₃ fun e s' =>
      Step source s s' ∧ LaidAll source s'.faults s.token.span.start s'.previousEnd [.part e] := by
    unfold rest
    split
    · exact bare s₃ h₃ step
    · refine (hg.assignment.withReader _ c s₃ h₃).bind fun e s₄ ⟨⟨h₄, _, _, _, _, _⟩, laid⟩ => ?_
      exact spanFrom_bind.mpr
        (gives_pure (laid_between h₄ hs.start laid (by omega) ⟨id, rfl, by simp, rfl⟩))
  split <;> exact pure_bind.mpr (rest_gives _)

theorem gives_conditionalRest (hg : g.Sound source) (hs : s.Sound source) {first : Nat}
    (start : Boundary source first) {test : Expr}
    (laid : LaidAll source s.faults first s.previousEnd [.part test]) :
    (conditionalRest g first test).Gives c s fun e s' =>
      Step source s s' ∧ LaidAll source s'.faults first s'.previousEnd [.part e] := by
  unfold conditionalRest
  refine ((mayPass_eat _).goesOn c _ hs).bind fun _ s₁ ⟨h₁, _, _, _, _, _⟩ => ?_
  split
  · refine (hg.assignment.withReader _ c s₁ h₁).bind fun yes s₂ ⟨⟨h₂, _, _, _, _, _⟩, laid₂⟩ => ?_
    refine (passes_expect _ c s₂ h₂).bind fun _ s₃ ⟨⟨h₃, _, _, _, _, _⟩, _, _, _⟩ => ?_
    refine (hg.assignment c s₃ h₃).bind fun no s₄ ⟨⟨h₄, _, _, _, _, _⟩, laid₄⟩ => ?_
    have pieces : LaidAll source s₄.faults first s₄.previousEnd
        ([Node.part test] ++ [Node.part yes] ++ [Node.part no]) :=
          (laid.add laid₂ (by omega)).add laid₄ (by omega)
    have le := pieces.le
    exact spanFrom_bind.mpr
      (gives_pure (laid_between h₄ start pieces (by omega) ⟨id, rfl, rfl, rfl⟩))
  · exact gives_pure ⟨.of h₁ (by omega), laid.wide (by omega)⟩

/-- Before a name and an arrow, the word `async` is followed by a name. -/
theorem gives_atAsyncArrow : atAsyncArrow.Gives c s fun isArrow s' => s' = s ∧
    (isArrow = true →
      (ModuleInterop.Syntax.nextToken s.pos s.rest).token.kind.isName = true) := by
  refine (@gives_lookahead _ _ _ _ (fun isArrow _ => isArrow = true →
    (ModuleInterop.Syntax.nextToken s.pos s.rest).token.kind.isName = true) ?_).mono
      fun _ _ ⟨same, _, named⟩ => ⟨same, named⟩
  refine atWord_bind.mpr ?_
  split
  · exact gives_pure nofun
  · refine gives_advance_next.bind fun _ s₁ next => token_bind.mpr ?_
    rw [next]
    split
    · exact gives_pure nofun
    · rename_i follows
      have isName : (ModuleInterop.Syntax.nextToken s.pos s.rest).token.kind.isName = true := by
        simp only [Bool.or_eq_true, Bool.not_eq_true', not_or, Bool.not_eq_false] at follows
        exact follows.2
      exact gives_any.mono fun _ _ _ _ => isName

theorem reads_assignmentExpression (hg : g.Sound source) :
    Reads source (assignmentExpression g) fun e => [.part e] := by
  intro c s hs
  unfold assignmentExpression
  refine read_bind.mpr ((looks_atSuspension _ _).bind fun _ => ?_)
  split
  · exact reads_yieldExpression hg c s hs
  refine (gives_parenthesizedArrow? hg hs).bind fun arrow s₁ h => ?_
  split at h
  · exact gives_pure h
  obtain ⟨h₂, start, ended⟩ := h.after hs
  refine start_bind.mpr ?_
  refine gives_atAsyncArrow.bind fun isArrow s₂ ⟨same, named⟩ => ?_
  subst same
  split
  · rename_i isArrow
    refine ((passes_bump c s₂ h₂).and gives_bump_next).bind
      fun _ s₄ ⟨⟨⟨h₄, _, _, _, _, _⟩, _, _, _⟩, next⟩ => ?_
    refine Gives.bind (gives_withReader.mpr
      (gives_checkedWord h₄ (next ▸ named isArrow) s₄.token)) fun name s₅ ⟨moved, span, usable⟩ => ?_
    have laid := laid_name moved h₄ span usable
    obtain ⟨⟨h₅, _, _, _, _, _⟩, _, _, _⟩ := moved
    refine (gives_simpleArrow hg h₅ h₂.start true (laid.wide (by omega))).mono
      fun e s₆ ⟨⟨h₆, _, _, _, _, _⟩, laid⟩ => ⟨.of h₆ (by omega), laid.wide (by omega)⟩
  refine (hg.binary _ c s₂ h₂).bind fun left s₄ ⟨⟨h₄, _, _, _, _, _⟩, laid⟩ => ?_
  have le := laid.le
  refine token_bind.mpr ?_
  split
  · rename_i span text _ _
    have name : LaidAll source s₄.faults s₂.token.span.start s₄.previousEnd
        [.pattern (.binding ⟨span, text⟩)] := .plain laid.head.fits (.none le) ⟨rfl, by simp, rfl⟩
    refine (gives_simpleArrow hg h₄ h₂.start false name).mono
      fun e s₅ ⟨⟨h₅, _, _, _, _, _⟩, laid⟩ => ⟨.of h₅ (by omega), laid.wide (by omega)⟩
  split
  · refine (makes_targetOf laid c s₄).bind fun target s₅ ⟨same, laid⟩ => ?_
    obtain ⟨h₅, start', ended'⟩ := same.after h₄
    refine (passes_bump c s₅ h₅).bind fun _ s₆ ⟨⟨h₆, _, _, _, _, _⟩, _, _, _⟩ => ?_
    refine (hg.assignment c s₆ h₆).bind fun value s₇ ⟨⟨h₇, _, _, _, _, _⟩, laid'⟩ => ?_
    have pieces : LaidAll source s₇.faults s₂.token.span.start s₇.previousEnd
        ([Node.pattern target] ++ [Node.part value]) := laid.add laid' (by omega)
    have le := pieces.le
    exact spanFrom_bind.mpr
      (gives_pure ⟨.of h₇ (by omega), .of_fits (.between h₂.start h₇.ended (by omega)) pieces
        ⟨by simp, rfl⟩⟩)
  · refine (gives_placeOf laid).bind fun place s₅ ⟨same, laid, isPlace⟩ => ?_
    obtain ⟨h₅, start', ended'⟩ := same.after h₄
    refine (passes_bump c s₅ h₅).bind fun _ s₆ ⟨⟨h₆, _, _, _, _, _⟩, _, _, _⟩ => ?_
    refine (hg.assignment c s₆ h₆).bind fun value s₇ ⟨⟨h₇, _, _, _, _, _⟩, laid'⟩ => ?_
    have target := laid_target laid isPlace
    have pieces : LaidAll source s₇.faults s₂.token.span.start s₇.previousEnd
        ([Node.pattern (.target place)] ++ [Node.part value]) := target.add laid' (by omega)
    have le := pieces.le
    exact spanFrom_bind.mpr
      (gives_pure ⟨.of h₇ (by omega), .of_fits (.between h₂.start h₇.ended (by omega)) pieces
        ⟨by simp, rfl⟩⟩)
  · refine (gives_conditionalRest hg h₄ h₂.start laid).mono
      fun e s₅ ⟨⟨h₅, _, _, _, _, _⟩, laid⟩ => ⟨.of h₅ (by omega), laid.wide (by omega)⟩

end ModuleInterop.Syntax.Parser
