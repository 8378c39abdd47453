import ModuleInterop.Scope.Fresh

/-!
# Variables that receive the value of a call

Occurrences of names stand at positions of the text (`offsets`).  Among the occurrences of a module
are those of the variables that receive the value of a call of `require`: such a variable is declared,
and right after it the name of the function is referred to.  `Receives` lists the variables of this
kind that are variables of the module itself, declared once and never assigned to.
-/

set_option autoImplicit false

namespace ModuleInterop.Scope

open ModuleInterop.Syntax

namespace Occurrence

/-- The position of a name that is declared. -/
def declared? : Occurrence → Option Nat
  | .declare _ name => some name.span.start
  | .enter _ | .leave | .settle | .refer _ _ _ | .word _ => none

/-- The position of a name that is referred to. -/
def referred? : Occurrence → Option Nat
  | .refer offset _ _ => some offset
  | .enter _ | .leave | .settle | .declare _ _ | .word _ => none

/-- The position of a name. -/
def offset? (occurrence : Occurrence) : Option Nat := occurrence.declared?.or occurrence.referred?

end Occurrence

/-- The positions of the names that are declared. -/
def declaredOffsets (occurrences : List Occurrence) : List Nat :=
  occurrences.filterMap Occurrence.declared?

/-- The positions of the names that are referred to. -/
def referredOffsets (occurrences : List Occurrence) : List Nat :=
  occurrences.filterMap Occurrence.referred?

/-- The positions of all names, in order. -/
def offsets (occurrences : List Occurrence) : List Nat := occurrences.filterMap Occurrence.offset?

theorem declaredOffsets_cons (occurrence : Occurrence) (others : List Occurrence) :
    declaredOffsets (occurrence :: others) =
      occurrence.declared?.toList ++ declaredOffsets others := by
  simp only [declaredOffsets, List.filterMap_cons]
  cases occurrence.declared? <;> rfl

theorem referredOffsets_cons (occurrence : Occurrence) (others : List Occurrence) :
    referredOffsets (occurrence :: others) =
      occurrence.referred?.toList ++ referredOffsets others := by
  simp only [referredOffsets, List.filterMap_cons]
  cases occurrence.referred? <;> rfl

@[simp] theorem declaredOffsets_append (occurrences others : List Occurrence) :
    declaredOffsets (occurrences ++ others) =
      declaredOffsets occurrences ++ declaredOffsets others := by
  simp [declaredOffsets]

@[simp] theorem referredOffsets_append (occurrences others : List Occurrence) :
    referredOffsets (occurrences ++ others) =
      referredOffsets occurrences ++ referredOffsets others := by
  simp [referredOffsets]

@[simp] theorem offsets_append (occurrences others : List Occurrence) :
    offsets (occurrences ++ others) = offsets occurrences ++ offsets others := by
  simp [offsets]

@[simp] theorem declaredOffsets_enclosed (holdsVars : Bool) (inside : List Occurrence) :
    declaredOffsets (enclosed holdsVars inside) = declaredOffsets inside := by
  simp [declaredOffsets, enclosed, List.filterMap_cons, Occurrence.declared?]

@[simp] theorem offsets_enclosed (holdsVars : Bool) (inside : List Occurrence) :
    offsets (enclosed holdsVars inside) = offsets inside := by
  simp [offsets, enclosed, Occurrence.offset?, Occurrence.declared?, Occurrence.referred?]

theorem declaredOffsets_sublist (occurrences : List Occurrence) :
    (declaredOffsets occurrences).Sublist (offsets occurrences) := by
  induction occurrences with
  | nil => exact List.Sublist.refl _
  | cons occurrence others ih =>
    cases occurrence <;>
      simp [declaredOffsets, offsets, Occurrence.offset?, Occurrence.declared?,
        Occurrence.referred?] at ih ⊢ <;> first | exact ih | exact ih.cons _

theorem referredOffsets_sublist (occurrences : List Occurrence) :
    (referredOffsets occurrences).Sublist (offsets occurrences) := by
  induction occurrences with
  | nil => exact List.Sublist.refl _
  | cons occurrence others ih =>
    cases occurrence <;>
      simp [referredOffsets, offsets, Occurrence.offset?, Occurrence.declared?,
        Occurrence.referred?] at ih ⊢ <;> first | exact ih | exact ih.cons _

/-! ## Positions in order -/

/-- Positions that follow one another in an interval. -/
structure Ascending (lo hi : Nat) (positions : List Nat) : Prop where
  ordered : positions.Pairwise (· < ·)
  within : ∀ n ∈ positions, lo ≤ n ∧ n < hi

namespace Ascending

variable {lo mid hi lo' hi' : Nat} {positions others : List Nat}

theorem nil : Ascending lo hi [] := ⟨.nil, by simp⟩

theorem single {n : Nat} (low : lo ≤ n) (high : n < hi) : Ascending lo hi [n] :=
  ⟨List.pairwise_singleton _ _, by simp [low, high]⟩

theorem mono (h : Ascending lo hi positions) (low : lo' ≤ lo) (high : hi ≤ hi') :
    Ascending lo' hi' positions :=
  ⟨h.ordered, fun n mem => ⟨Nat.le_trans low (h.within n mem).1,
    Nat.lt_of_lt_of_le (h.within n mem).2 high⟩⟩

theorem append (h : Ascending lo mid positions) (h' : Ascending mid hi others) (low : lo ≤ mid)
    (high : mid ≤ hi) : Ascending lo hi (positions ++ others) := by
  constructor
  · rw [List.pairwise_append]
    refine ⟨h.ordered, h'.ordered, ?_⟩
    intro n mem m mem'
    exact Nat.lt_of_lt_of_le (h.within n mem).2 (h'.within m mem').1
  · intro n mem
    rcases List.mem_append.mp mem with mem | mem
    · exact (h.mono (Nat.le_refl _) high).within n mem
    · exact (h'.mono low (Nat.le_refl _)).within n mem

theorem nodup (h : Ascending lo hi positions) : positions.Nodup :=
  h.ordered.imp Nat.ne_of_lt

end Ascending

/-! ## Variables that receive a value -/

/-- Some names are declared in occurrences, in the order of the occurrences, each with a reference
right after it that stands in the top scope; they are declared once and never assigned to. -/
inductive Receives (bindings : Bindings) : List Occurrence → List Name → Prop
  | nil : Receives bindings [] []
  | skip {occurrence : Occurrence} {others : List Occurrence} {names : List Name} :
    Receives bindings others names → Receives bindings (occurrence :: others) names
  | take {rule : DeclarationRule} {name : Name} {offset : Nat} {text : String}
    {others : List Occurrence} {names : List Name} (joins : rule ≠ .shadowing)
    (top : bindings.scopeAt offset = ScopeTree.root)
    (constant : bindings.isConstantAt name.span.start = true) :
    Receives bindings others names →
      Receives bindings (.declare rule name :: .refer offset text false :: others) (name :: names)

namespace Receives

variable {bindings : Bindings} {occurrences others : List Occurrence} {names names' : List Name}

theorem none (occurrences : List Occurrence) : Receives bindings occurrences [] := by
  induction occurrences with
  | nil => exact nil
  | cons occurrence occurrences ih => exact skip ih

theorem append (h : Receives bindings occurrences names) (h' : Receives bindings others names') :
    Receives bindings (occurrences ++ others) (names ++ names') := by
  induction h with
  | nil => exact h'
  | skip _ ih => exact skip ih
  | take joins top constant _ ih => exact take joins top constant ih

theorem enclosed (holdsVars : Bool) (h : Receives bindings occurrences names) :
    Receives bindings (enclosed holdsVars occurrences) names := by
  have closed := h.append (none [.leave])
  rw [List.append_nil] at closed
  exact skip closed

end Receives

end ModuleInterop.Scope
