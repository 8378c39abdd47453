import ModuleInterop.Proofs.Syntax.Parser.Basic
import ModuleInterop.Syntax.Parser.Target

/-!
# Targets are laid like the expressions they are read from

Nothing is read: an expression that is laid in an interval becomes a pattern that is laid there.
-/

set_option autoImplicit false

namespace ModuleInterop.Syntax

open ModuleInterop.Text

attribute [local simp] Node.inside Node.pieces Node.parts Node.bare Node.part Node.listed

variable {source : List Char} {c : Context} {s : ParseState} {faults lo hi : Nat}

namespace Parser

/-- Something is made of what has been read before: nothing more is read. -/
def Makes {α : Type} (source : List Char) (faults lo hi : Nat) (p : Parser α) (nodes : α → List Node) :
    Prop :=
  ∀ c s, p.Gives c s fun a s' => s.Same s' ∧ LaidAll source faults lo hi (nodes a)

/-- An expression that denotes a place becomes a name or a member. -/
theorem gives_placeOf {e : Expr} (laid : LaidAll source faults lo hi [.part e]) :
    (placeOf e).Gives c s fun place s' =>
      s.Same s' ∧ LaidAll source faults lo hi [.part place] ∧ place.isPlace = true := by
  fun_induction placeOf e with
  | case5 | case6 | case8 => exact gives_fatal
  | case7 span inner _ _ ih => exact ih (laid.inner (by simp))
  | _ => exact gives_pure ⟨.refl s, laid, rfl⟩

/-- A place that is stored to is laid like the expression for it. -/
theorem laid_target {place : Expr} (laid : LaidAll source faults lo hi [.part place])
    (isPlace : place.isPlace = true) : LaidAll source faults lo hi [.pattern (.target place)] :=
  .plain ⟨laid.span_within, isPlace⟩ laid ⟨rfl, by simp, rfl⟩

theorem makes_target {e : Expr} (laid : LaidAll source faults lo hi [.part e]) :
    Makes source faults lo hi (do return .target (← placeOf e)) fun p => [.pattern p] := by
  intro c s
  refine (gives_placeOf laid).bind fun place s₁ ⟨same, laid, isPlace⟩ => ?_
  exact gives_pure ⟨same, laid_target laid isPlace⟩

/-- A rest, which must come last. -/
theorem makes_rest {span : Span} {comma : Option Nat} {last : Bool} {inner : Parser Pattern}
    (within : span.Within source lo hi) (h : Makes source faults lo hi inner fun p => [.pattern p]) :
    Makes source faults lo hi (do
      if last then fatal .spreadLast span.start
      let target ← inner
      match comma with
      | some offset => report .restTrailingComma offset
      | none => pure ()
      return [Pattern.rest span target]) fun list => list.map .pattern := by
  intro c s
  refine gives_failIf fun _ => ?_
  refine (h c s).bind fun target s₁ ⟨same, laid⟩ => ?_
  have rest : LaidAll source faults lo hi [.pattern (.rest span target)] :=
    .plain within laid ⟨rfl, by simp, rfl⟩
  split
  · exact (notes_report _ _ c s₁).bind fun _ s₂ same' => gives_pure ⟨same.trans same', rest⟩
  · exact gives_pure ⟨same, rest⟩

theorem notes_settleDefault (span : Span) : Notes (settleDefault span) :=
  notes_modify fun _ => ⟨rfl, rfl, rfl, rfl, Nat.le_refl _⟩

mutual

theorem makes_targetOf {e : Expr} {lo hi : Nat}
    (laid : LaidAll source faults lo hi [.part e]) :
    Makes source faults lo hi (targetOf e) fun p => [.pattern p] := by
  intro c s
  have within := laid.span_within
  unfold targetOf
  split
  · refine (makes_elementTargets (laid.inner (by simp)) c s).bind fun list s₁ ⟨same, laid⟩ => ?_
    exact gives_pure ⟨same, .plain within laid ⟨rfl, by simp, rfl⟩⟩
  · refine (makes_propertyTargets (laid.inner (by simp)) c s).bind fun list s₁ ⟨same, laid⟩ => ?_
    exact gives_pure ⟨same, .plain within laid ⟨rfl, by simp, rfl⟩⟩
  · exact makes_target laid c s
termination_by sizeOf e

theorem makes_elementTarget {e : Expr} {lo hi : Nat}
    (laid : LaidAll source faults lo hi [.part e]) :
    Makes source faults lo hi (elementTarget e) fun p => [.pattern p] := by
  intro c s
  have within := laid.span_within
  unfold elementTarget
  split
  · split
    · exact gives_pure ⟨.refl s, .plain within (laid.inner rfl) ⟨rfl, by simp, rfl⟩⟩
    · exact gives_fatal
  · refine (makes_elementTargets (laid.inner (by simp)) c s).bind fun list s₁ ⟨same, laid⟩ => ?_
    exact gives_pure ⟨same, .plain within laid ⟨rfl, by simp, rfl⟩⟩
  · refine (makes_propertyTargets (laid.inner (by simp)) c s).bind fun list s₁ ⟨same, laid⟩ => ?_
    exact gives_pure ⟨same, .plain within laid ⟨rfl, by simp, rfl⟩⟩
  · exact makes_target laid c s
termination_by sizeOf e

theorem makes_elementTargets {comma : Option Nat} {elements : List Expr} {lo hi : Nat}
    (laid : LaidAll source faults lo hi (elements.map .part)) :
    Makes source faults lo hi (elementTargets comma elements) fun list => list.map .pattern := by
  intro c s
  unfold elementTargets
  split
  · exact gives_pure ⟨.refl s, laid⟩
  · obtain ⟨mid, first, others⟩ := laid.tail
    have within := first.span_within.mono (Nat.le_refl _) others.le
    exact makes_rest within (makes_targetOf ((first.inner (by simp)).mono (Nat.le_refl _)
      others.le)) c s
  · obtain ⟨mid, first, others⟩ := laid.tail
    exact makes_elementTargets (others.mono first.le (Nat.le_refl _)) c s
  · obtain ⟨mid, first, others⟩ := laid.tail
    refine (makes_elementTarget first c s).bind fun target s₁ ⟨same, laid₁⟩ => ?_
    refine (makes_elementTargets others c s₁).bind fun list s₂ ⟨same', laid₂⟩ => ?_
    exact gives_pure ⟨same.trans same', laid₁.append laid₂⟩
termination_by sizeOf elements

theorem makes_propertyTargets {comma : Option Nat} {properties : List Property} {lo hi : Nat}
    (laid : LaidAll source faults lo hi (properties.map .property)) :
    Makes source faults lo hi (propertyTargets comma properties) fun list => list.map .pattern := by
  intro c s
  unfold propertyTargets
  split
  · exact gives_pure ⟨.refl s, laid⟩
  · obtain ⟨mid, first, others⟩ := laid.tail
    have within := first.head.fits.mono (Nat.le_refl _) others.le
    exact makes_rest within (makes_targetOf ((first.inner (by simp)).mono (Nat.le_refl _)
      others.le)) c s
  · rename_i span name default others'
    obtain ⟨mid, first, others⟩ := laid.tail
    have target : LaidAll source faults lo mid [.pattern (.shorthand span name default)] :=
      .of_fits first.head.fits first.head.inside ⟨by simp, rfl⟩
    refine (notes_settleDefault _ c s).bind fun _ s₁ same => ?_
    refine (makes_propertyTargets others c s₁).bind fun list s₂ ⟨same', laid'⟩ => ?_
    exact gives_pure ⟨same.trans same', target.append laid'⟩
  · rename_i span _ computed value others'
    obtain ⟨mid, first, others⟩ := laid.tail
    have pieces : LaidAll source faults lo mid (computed.toList.map Node.part ++ [Node.part value]) :=
      first.inner (by simp)
    obtain ⟨m, key, laid⟩ := pieces.exists_mid
    refine (makes_elementTarget laid c s).bind fun target s₁ ⟨same, laid₁⟩ => ?_
    have property : LaidAll source faults lo mid [.pattern (.property span computed target)] :=
      .plain first.head.fits (key.append laid₁) ⟨rfl, by simp, rfl⟩
    refine (makes_propertyTargets others c s₁).bind fun list s₂ ⟨same', laid₂⟩ => ?_
    exact gives_pure ⟨same.trans same', property.append laid₂⟩
termination_by sizeOf properties

end

end Parser

end ModuleInterop.Syntax
