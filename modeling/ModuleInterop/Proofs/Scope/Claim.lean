import ModuleInterop.Proofs.Scope.Fresh

/-!
# Names that are claimed one after the other

A name that is claimed in the top scope is registered there, so that no later claim gets it.  `Claims`
says of two scope trees that the second comes from the first by claiming some names; these are distinct
and were not taken to begin with, whatever the order in which they were claimed.
-/

set_option autoImplicit false

namespace ModuleInterop.Scope

open ScopeTree

/-- Names have been claimed in the top scope, one after the other. -/
structure Claims (globals : List String) (before : ScopeTree) (names : List String)
    (after : ScopeTree) : Prop where
  scopes : after.scopes = before.scopes
  generated : after.generated = before.generated ++ names.map (root, ·)
  distinct : names.Nodup
  free : ∀ name ∈ names, isTaken before root globals name = false

namespace Claims

variable {globals : List String} {before middle after : ScopeTree} {name : String}
  {names others : List String}

/-- A name that is registered in the top scope is visible there. -/
theorem sees_of_generated {tree : ScopeTree} (mem : (root, name) ∈ tree.generated) :
    tree.sees root name = true := by
  refine List.any_eq_true.mpr ⟨root, tree.mem_chain_self root, ?_⟩
  unfold declares
  rw [Bool.or_eq_true]
  exact .inr (List.any_eq_true.mpr ⟨_, mem, by simp⟩)

/-- What is visible stays visible when names are registered. -/
theorem sees_mono {scope : Nat} (same : after.scopes = before.scopes)
    (more : before.generated ⊆ after.generated) (seen : before.sees scope name = true) :
    after.sees scope name = true := by
  obtain ⟨i, around, declared⟩ := List.any_eq_true.mp seen
  rw [← chain_congr same] at around
  refine List.any_eq_true.mpr ⟨i, around, ?_⟩
  unfold declares at declared ⊢
  rw [Bool.or_eq_true] at declared ⊢
  rw [same]
  refine declared.imp_right fun registered => ?_
  obtain ⟨e, mem, here⟩ := List.any_eq_true.mp registered
  exact List.any_eq_true.mpr ⟨e, more mem, here⟩

/-- Nothing has been claimed yet. -/
theorem refl (globals : List String) (tree : ScopeTree) : Claims globals tree [] tree :=
  ⟨rfl, by simp, List.nodup_nil, nofun⟩

/-- A name that is not taken is registered. -/
theorem of_not_taken (free : isTaken before root globals name = false) :
    Claims globals before [name] (before.generate root name) :=
  ⟨rfl, rfl, List.nodup_singleton name, fun _ mem => List.mem_singleton.mp mem ▸ free⟩

/-- A name that is chosen for a candidate is claimed. -/
theorem claimName (globals : List String) (tree : ScopeTree) (candidate : String) :
    Claims globals tree [(Scope.claimName tree root globals candidate).1]
      (Scope.claimName tree root globals candidate).2 :=
  of_not_taken (freshName_not_taken tree root globals candidate)

/-- What is taken stays taken when names are registered. -/
theorem taken_mono {scope : Nat} (same : after.scopes = before.scopes)
    (more : before.generated ⊆ after.generated)
    (taken : isTaken before scope globals name = true) :
    isTaken after scope globals name = true := by
  unfold isTaken at taken ⊢
  rw [Bool.or_eq_true, Bool.or_eq_true] at taken ⊢
  exact taken.imp_left (Or.imp_left (sees_mono same more))

/-- Names are registered in addition to those that are registered already. -/
theorem generated_subset (h : Claims globals before names after) :
    before.generated ⊆ after.generated := by
  rw [h.generated]
  exact List.subset_append_left _ _

/-- **A claimed name is taken from then on.** -/
theorem taken (h : Claims globals before names after) (mem : name ∈ names) :
    isTaken after root globals name = true := by
  have registered : (root, name) ∈ after.generated := by
    rw [h.generated]
    exact List.mem_append_right _ (List.mem_map_of_mem mem)
  unfold isTaken
  rw [sees_of_generated registered]
  rfl

/-- **Claims after claims** are of other names. -/
theorem trans (h : Claims globals before names middle) (h' : Claims globals middle others after) :
    Claims globals before (names ++ others) after where
  scopes := h'.scopes.trans h.scopes
  generated := by rw [h'.generated, h.generated, List.map_append, List.append_assoc]
  distinct := by
    refine List.nodup_append.mpr ⟨h.distinct, h'.distinct, ?_⟩
    rintro name mem _ other rfl
    have free := h'.free name other
    rw [h.taken mem] at free
    contradiction
  free := by
    intro name mem
    rcases List.mem_append.mp mem with first | second
    · exact h.free name first
    · cases taken : isTaken before root globals name with
      | false => rfl
      | true =>
        have later := taken_mono h.scopes h.generated_subset taken
        exact later.symm.trans (h'.free name second)

end Claims

end ModuleInterop.Scope
