import ModuleInterop.Build.Registry

/-!
# What a registry knows

All that a registry tells of an id is what it has been settled to (`peek`).  Making a slot changes
nothing of it, and settling an id adds its classification unless there is one; nothing is learnt of
the other ids (`peek_settle`).
-/

set_option autoImplicit false

namespace ModuleInterop.Build.Registry

variable {registry : Registry} {id other : String}

/-- An id that has been asked for has a slot. -/
theorem exists_slot_ensure (registry : Registry) (id : String) :
    ∃ s, (registry.ensure id).slots.find? (fun s => s.1 == id) = some s := by
  unfold ensure slot?
  cases found : registry.slots.find? fun s => s.1 == id with
  | some s => exact ⟨s, found⟩
  | none => exact ⟨(id, none), by simp [List.find?_append, found]⟩

/-- A slot that is made says nothing. -/
theorem peek_ensure (registry : Registry) (id other : String) :
    (registry.ensure id).peek other = registry.peek other := by
  unfold ensure
  cases registry.slot? id with
  | some known => rfl
  | none =>
    unfold peek slot?
    rw [List.find?_append]
    cases registry.slots.find? fun s => s.1 == other with
    | some s => rfl
    | none => by_cases same : id = other <;> simp [same]

/-- **What is known after an id has been settled.**  The first classification stays. -/
theorem peek_settle (registry : Registry) (id : String) (c : Classification) (other : String) :
    (registry.settle id c).2.peek other =
      (registry.peek other).or (if id = other then some c else none) := by
  unfold settle
  cases known : registry.peek id with
  | some first =>
    by_cases same : id = other
    · simp [← same, known]
    · simp [same]
  | none =>
    let fill (s : String × Option Classification) := if s.1 == id then (s.1, some c) else s
    have sameSlot : ((fun s : String × Option Classification => s.1 == other) ∘ fill) =
        fun s => s.1 == other := by
      funext s
      simp only [Function.comp, fill]
      split <;> rfl
    change (Registry.mk ((registry.ensure id).slots.map fill)).peek other = _
    rw [← peek_ensure registry id other]
    unfold peek slot?
    rw [List.find?_map, sameSlot]
    by_cases same : id = other
    · subst same
      obtain ⟨s, found⟩ := exists_slot_ensure registry id
      have unsettled : (registry.ensure id).peek id = none :=
        (peek_ensure registry id id).trans known
      have isSlot := List.find?_some found
      unfold peek slot? at unsettled
      rw [found] at unsettled ⊢
      have blank : s.2 = none := unsettled
      simp [fill, beq_iff_eq.mp isSlot, blank]
    · cases found : (registry.ensure id).slots.find? fun s => s.1 == other with
      | none => simp [same]
      | some s =>
        have isSlot := List.find?_some found
        simp [fill, beq_iff_eq.mp isSlot, same, Ne.symm same]

/-- Settling tells whether it is the first time. -/
theorem settle_first (registry : Registry) (id : String) (c : Classification) :
    (registry.settle id c).1 = (registry.peek id).isNone := by
  unfold settle
  cases registry.peek id <;> rfl

end ModuleInterop.Build.Registry
