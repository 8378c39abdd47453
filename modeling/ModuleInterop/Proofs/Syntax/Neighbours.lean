import ModuleInterop.Proofs.Syntax.Layout

/-!
# Statements next to each other

Where the text of a statement begins and ends: with its span, unless a class that it declares has
decorators before it (`Stmt.outset`).  All pieces of a statement lie there (`Laid.tight_stmt`), so
between two statements of a list there is a gap that belongs to neither of them (`LaidAll.exists_gap`).
-/

set_option autoImplicit false

namespace ModuleInterop.Syntax

open ModuleInterop.Text

/-- Where the text of an expression begins: with its first decorator, if it is a class that has one. -/
def Expr.outset : Expr → Nat
  | .class _ _ (d :: _) _ _ _ => d.outset
  | e => e.span.start

/-- Where the text of a statement begins. -/
def Stmt.outset : Stmt → Nat
  | .declaration value => value.outset
  | .expression span value | .exportDefaultDeclaration span value => min span.start value.outset
  | .exportDeclaration span declared => min span.start declared.outset
  | s => s.span.start

/-- Only a class with decorators begins before its span. -/
theorem Expr.outset_eq {e : Expr} (none : (Node.part e).leading = []) : e.outset = e.span.start := by
  cases e with
  | «class» span named decorators name heritage members =>
    cases decorators with
    | nil => rw [outset]; simp
    | cons d ds => contradiction
  | _ => rw [outset]; simp

variable {source : List Char}

/-- An expression is laid in its own text. -/
theorem Laid.tight_expr {lo hi : Nat} {e : Expr} (h : Laid source 0 lo hi (.part e)) :
    lo ≤ e.outset ∧ Boundary source e.outset ∧ Laid source 0 e.outset e.span.stop (.part e) := by
  have within := h.fits.span_within
  have plain (none : (Node.part e).leading = []) :
      lo ≤ e.outset ∧ Boundary source e.outset ∧ Laid source 0 e.outset e.span.stop (.part e) := by
    rw [Expr.outset_eq none]
    exact ⟨within.lo_le, within.start, h.tight none⟩
  cases e with
  | «class» span named decorators name heritage members =>
    cases decorators with
    | nil => exact plain rfl
    | cons d ds =>
      have decorators : LaidAll source 0 lo span.start (.part d :: ds.map .part) := h.leading
      cases decorators with
      | @cons _ mid _ _ _ first others =>
        obtain ⟨low, begins, tight⟩ := first.tight_expr
        have ended : d.span.stop ≤ mid := first.fits.span_within.le_hi
        have leading : LaidAll source 0 d.outset span.start (.part d :: ds.map .part) :=
          .cons (tight.mono (Nat.le_refl _) ended) others
        rw [Expr.outset]
        exact ⟨low, begins, { within with lo_le := leading.le, le_hi := Nat.le_refl _ }, leading,
          h.inside⟩
  | _ => exact plain rfl
termination_by sizeOf e

/-- A piece that is all of a statement, with what stands before the statement's span. -/
theorem Laid.from_min {lo outset stop : Nat} {span : Span} {node : Node}
    (piece : lo ≤ outset ∧ Boundary source outset ∧ Laid source 0 outset stop node)
    (low : lo ≤ span.start) (start : Boundary source span.start) (high : stop ≤ span.stop) :
    lo ≤ min span.start outset ∧ Boundary source (min span.start outset) ∧
      LaidAll source 0 (min span.start outset) span.stop [node] := by
  obtain ⟨low', begins, tight⟩ := piece
  refine ⟨Nat.le_min.mpr ⟨low, low'⟩, ?_, .single (tight.mono (Nat.min_le_right _ _) high)⟩
  rcases Nat.le_total span.start outset with le | le
  · rwa [Nat.min_eq_left le]
  · rwa [Nat.min_eq_right le]

/-- **A statement is laid in its own text.** -/
theorem Laid.tight_stmt {lo hi : Nat} {s : Stmt} (h : Laid source 0 lo hi (.listed s)) :
    lo ≤ s.outset ∧ Boundary source s.outset ∧ Laid source 0 s.outset s.span.stop (.listed s) := by
  obtain ⟨lo_le, ordered, le_hi, start, stop⟩ := h.fits.stmt_within
  have narrow {low : Nat} (le : low ≤ s.span.start) : s.span.Within source low s.span.stop :=
    ⟨le, ordered, Nat.le_refl _, start, stop⟩
  have tight := narrow (Nat.le_refl _)
  cases s with
  | declaration value =>
    obtain ⟨low, begins, laid⟩ := Laid.tight_expr h.inside.head
    exact ⟨low, begins, laid.fits.span_within, .nil (Nat.le_refl _), .single laid⟩
  | expression span value =>
    have value := h.inside.head
    obtain ⟨low, begins, laid⟩ :=
      Laid.from_min value.tight_expr lo_le start value.fits.span_within.le_hi
    exact ⟨low, begins, ⟨narrow (Nat.min_le_left _ _), h.fits.2⟩, .nil (Nat.le_refl _), laid⟩
  | exportDefaultDeclaration span value =>
    have value := h.inside.head
    obtain ⟨low, begins, laid⟩ :=
      Laid.from_min value.tight_expr lo_le start value.fits.span_within.le_hi
    exact ⟨low, begins, ⟨narrow (Nat.min_le_left _ _), h.fits.2⟩, .nil (Nat.le_refl _), laid⟩
  | exportDeclaration span declared =>
    have declaration := h.inside.head
    obtain ⟨low, begins, laid⟩ :=
      Laid.from_min declaration.tight_stmt lo_le start declaration.fits.stmt_within.le_hi
    exact ⟨low, begins, ⟨narrow (Nat.min_le_left _ _), h.fits.2⟩, .nil (Nat.le_refl _), laid⟩
  | guarded span body parameter handler finalizer | importing span bindings
  | exportDefault span value | exportNames span specifiers taken | exportAll span exported =>
    exact ⟨lo_le, start, ⟨tight, h.fits.2⟩, .nil (Nat.le_refl _), h.inside⟩
  | «variables» span kind list =>
    exact ⟨lo_le, start, tight, .nil (Nat.le_succ _), h.inside⟩
  | _ => exact ⟨lo_le, start, tight, .nil (Nat.le_refl _), h.inside⟩
termination_by sizeOf s

/-- Between two statements of a list there is a gap, and all other statements lie on one side of it. -/
theorem LaidAll.exists_gap {lo hi : Nat} {before after : List Node} {s t : Stmt}
    (h : LaidAll source 0 lo hi (before ++ .listed s :: .listed t :: after)) :
    s.span.stop ≤ t.outset ∧ LaidAll source 0 lo s.span.stop (before ++ [.listed s]) ∧
      LaidAll source 0 t.outset hi (.listed t :: after) := by
  obtain ⟨mid, first, rest⟩ := h.exists_mid
  cases rest with
  | cons here rest =>
    cases rest with
    | cons next others =>
      obtain ⟨low, -, tight⟩ := here.tight_stmt
      obtain ⟨low', -, tight'⟩ := next.tight_stmt
      refine ⟨Nat.le_trans here.fits.stmt_within.le_hi low', ?_, ?_⟩
      · exact first.append (.single (tight.mono low (Nat.le_refl _)))
      · exact .cons (tight'.mono (Nat.le_refl _) next.fits.stmt_within.le_hi) others

end ModuleInterop.Syntax
