import Mathlib.Data.List.Nodup
import ModuleInterop.Proofs.Scope.Nesting
import ModuleInterop.Proofs.Scope.Receive

/-!
# Where references stand

A reference is recorded with its name, the scope that is the innermost one when it is read, and whether
it is stored to, and however often it is left to the scope around, that stays so (`Reading.sites`).  Hence the scope at the
position of a reference is the scope that its text is read in, if no other reference has that position
(`scopeAt_of_refer`), and its name is free in the module if it is free there (`mem_freeNames`).
-/

set_option autoImplicit false

namespace ModuleInterop.Scope

open ModuleInterop.Syntax

/-- An element is found by its key if no two keys are the same. -/
theorem find?_of_nodup {α : Type} {key : α → Nat} {list : List α} (distinct : (list.map key).Nodup)
    {a : α} (mem : a ∈ list) : list.find? (fun b => key b == key a) = some a := by
  cases found : list.find? fun b => key b == key a with
  | none => exact absurd (List.find?_eq_none.mp found a mem) (by simp)
  | some b =>
    have same : key b = key a := by simpa using List.find?_some found
    exact congrArg some
      (List.inj_on_of_nodup_map distinct (List.mem_of_find?_eq_some found) mem same)

/-- The position of a reference, its name, its scope and whether it is stored to. -/
def Reference.site (r : Reference) : Nat × String × Nat × Bool :=
  (r.offset, r.name, r.scope, r.writes)

/-- The place of the reference that is read in a scope. -/
def Occurrence.site? (scope : Nat) : Occurrence → Option (Nat × String × Nat × Bool)
  | .refer offset name writes => some (offset, name, scope, writes)
  | .enter _ | .leave | .settle | .declare _ _ | .word _ => none

/-- The position in the place of a reference. -/
theorem Occurrence.map_site? (scope : Nat) (occurrence : Occurrence) :
    (occurrence.site? scope).map Prod.fst = occurrence.referred? := by
  cases occurrence <;> rfl

namespace Reading

variable {reading : Reading}

/-- What has been read of balanced occurrences up to some place is well nested. -/
theorem WellNested.of_prefix {occurrences read : List Occurrence} (balanced : Balanced occurrences)
    (well : reading.WellNested) (before : read <+: occurrences) :
    (read.foldl Reading.step reading).WellNested := by
  induction balanced generalizing reading read with
  | nil =>
    rw [List.prefix_nil.mp before]
    exact well
  | cons inner _ ih =>
    rcases List.prefix_cons_iff.mp before with rfl | ⟨rest, rfl, within⟩
    · exact well
    · rw [List.foldl_cons]
      exact ih (well.step inner).1 within
  | @enclosed holdsVars inside others balanced _ ih ih' =>
    rw [Scope.enclosed, List.cons_append, List.append_assoc] at before
    rcases List.prefix_cons_iff.mp before with rfl | ⟨rest, rfl, within⟩
    · exact well
    obtain ⟨entered, opened⟩ := well.enter holdsVars
    rw [List.foldl_cons]
    rcases List.prefix_or_prefix_of_prefix within (List.prefix_append inside _) with here | past
    · exact ih entered here
    · obtain ⟨last, rfl⟩ := past
      rw [List.prefix_append_right_inj] at within
      obtain ⟨closed, same⟩ := entered.foldl balanced
      rw [List.foldl_append]
      rcases List.prefix_cons_iff.mp within with rfl | ⟨later, rfl, beyond⟩
      · exact closed
      · rw [List.foldl_cons]
        exact ih' (closed.leave (same.trans opened) well.opened).1 beyond

/-- The places of all references that have been read, resolved or not. -/
def sites (reading : Reading) : List (Nat × String × Nat × Bool) :=
  (reading.found.references ++ reading.opened.flatMap OpenScope.pending).map Reference.site

/-- Where the references and the open scopes are the same, so are their places. -/
theorem sites_congr {after : Reading} (references : after.found.references = reading.found.references)
    (opened : after.opened = reading.opened) : after.sites = reading.sites := by
  unfold sites
  rw [references, opened]

/-- References that find their binding and references that do not are all there are. -/
theorem sites_resolved (binding : Reference → Option Nat) (pending : List Reference) :
    ((pending.filterMap fun r => (binding r).map fun b => { r with binding := some b }).map
      Reference.site ++ (pending.filter fun r => (binding r).isNone).map Reference.site).Perm
      (pending.map Reference.site) := by
  induction pending with
  | nil => exact .refl _
  | cons r pending ih =>
    cases found : binding r with
    | none =>
      simp only [List.filterMap_cons, List.filter_cons, found, Option.map_none, Option.isNone_none,
        if_true, List.map_cons]
      exact List.perm_middle.trans (ih.cons _)
    | some b =>
      simp only [List.filterMap_cons, List.filter_cons, found, Option.map_some,
        Option.isNone_some, List.map_cons, List.cons_append]
      exact ih.cons _

/-- Resolving references keeps where they stand. -/
theorem sites_settle (reading : Reading) : reading.settle.sites.Perm reading.sites := by
  unfold settle
  split
  · exact .refl _
  · rename_i inner outer opened
    have all := sites_resolved (reading.bindingIn inner.scope) inner.pending
    rw [List.perm_iff_count] at all ⊢
    intro site
    have here := all site
    rw [List.count_append] at here
    cases outer with
    | nil =>
      simp only [sites, addReferences, opened, List.flatMap_cons, List.flatMap_nil,
        List.map_append, List.append_nil, List.count_append]
      omega
    | cons next others =>
      simp only [sites, addReferences, opened, List.flatMap_cons, List.nil_append,
        List.map_append, List.count_append]
      omega

/-- When its references have been resolved, the innermost scope has none that wait. -/
theorem pending_settle (reading : Reading) :
    (reading.settle.opened.drop 1).flatMap OpenScope.pending =
      reading.settle.opened.flatMap OpenScope.pending := by
  unfold settle
  split
  · rename_i none
    simp [none]
  · rename_i inner outer _
    cases outer <;> rfl

/-- The end of a scope keeps where references stand. -/
theorem sites_leave (reading : Reading) : reading.leave.sites.Perm reading.sites := by
  have same : reading.leave.sites = reading.settle.sites := by
    simp only [sites, leave, pending_settle]
  rw [same]
  exact sites_settle reading

/-- **One step** records the place of the reference that it reads. -/
theorem sites_step (well : reading.WellNested) (occurrence : Occurrence) :
    (reading.step occurrence).sites.Perm
      (reading.sites ++ (occurrence.site? reading.current).toList) := by
  have keeps {after : Reading} (same : SameShape reading after) :
      after.sites.Perm (reading.sites ++ []) := by
    rw [List.append_nil, sites_congr same.references same.opened]
  cases occurrence with
  | enter holdsVars =>
    have same : (reading.enter holdsVars).sites = reading.sites := by
      simp [sites, enter]
    show (reading.enter holdsVars).sites.Perm (reading.sites ++ [])
    rw [List.append_nil, same]
  | leave =>
    show reading.leave.sites.Perm (reading.sites ++ [])
    rw [List.append_nil]
    exact sites_leave reading
  | settle =>
    show reading.settle.sites.Perm (reading.sites ++ [])
    rw [List.append_nil]
    exact sites_settle reading
  | declare rule name =>
    cases rule with
    | here => exact keeps (sameShape_declareIn reading _ _)
    | hoisted => exact keeps (sameShape_declareVariable reading _)
    | shadowing => exact keeps (sameShape_declareNew reading _ _)
  | refer offset name writes =>
    show (reading.refer offset name writes).sites.Perm
      (reading.sites ++ [(offset, name, reading.current, writes)])
    obtain ⟨inner, chain, -⟩ := well.opened
    cases opened : reading.opened with
    | nil =>
      rw [opened] at chain
      cases inner <;> contradiction
    | cons first others =>
      rw [List.perm_iff_count]
      intro site
      simp only [sites, refer, current, opened, List.flatMap_cons, List.map_append, List.map_cons,
        List.map_nil, Reference.site, List.count_append]
      omega
  | word offset =>
    show (reading.recordWord offset).sites.Perm (reading.sites ++ [])
    rw [List.append_nil]
    exact .refl _

/-- **A run** records the places of the references that it reads. -/
theorem sites_foldl (occurrences : List Occurrence)
    (well : ∀ read, read <+: occurrences → (read.foldl Reading.step reading).WellNested) :
    reading.sites ⊆ (occurrences.foldl Reading.step reading).sites ∧
      ((occurrences.foldl Reading.step reading).sites.map Prod.fst).Perm
        (reading.sites.map Prod.fst ++ referredOffsets occurrences) := by
  induction occurrences generalizing reading with
  | nil => simp [referredOffsets]
  | cons occurrence others ih =>
    have step := sites_step (well [] (List.nil_prefix)) occurrence
    obtain ⟨kept, all⟩ := @ih (reading.step occurrence) fun read before =>
      well (occurrence :: read) (List.cons_prefix_cons.mpr ⟨rfl, before⟩)
    rw [List.foldl_cons]
    constructor
    · exact fun site mem => kept (step.symm.subset (List.mem_append_left _ mem))
    · have here := step.map Prod.fst
      rw [List.map_append, ← Option.toList_map, Occurrence.map_site?] at here
      rw [referredOffsets_cons, ← List.append_assoc]
      exact all.trans (here.append_right _)

/-- Where only the top scope is open, nothing waits any more when its references have been
resolved. -/
theorem WellNested.sites_settle_root (well : reading.WellNested)
    (one : reading.opened.map OpenScope.scope = [ScopeTree.root]) :
    reading.settle.sites = reading.settle.found.references.map Reference.site := by
  obtain ⟨-, same⟩ := well.settle
  rw [one] at same
  have none : reading.settle.opened.drop 1 = [] := by
    rw [← List.map_eq_nil_iff (f := OpenScope.scope), List.map_drop, same]
    rfl
  rw [sites, ← pending_settle, none, List.flatMap_nil, List.append_nil]

end Reading

/-! ## The references of a module -/

section Module

variable {occurrences : List Occurrence} (balanced : Balanced occurrences)

include balanced

/-- Every reference of a module is recorded. -/
theorem references_ofOccurrences :
    (occurrences.foldl Reading.step .start).sites.Perm
      ((Bindings.ofOccurrences occurrences).references.map Reference.site) := by
  obtain ⟨well, one⟩ := Reading.wellNested_start.foldl balanced
  have all := Reading.sites_settle (occurrences.foldl Reading.step .start)
  rw [well.sites_settle_root one] at all
  exact all.symm

/-- The positions of the references of a module are those where it refers to a name. -/
theorem offsets_ofOccurrences :
    ((Bindings.ofOccurrences occurrences).references.map Reference.offset).Perm
      (referredOffsets occurrences) := by
  have recorded := (references_ofOccurrences balanced).map Prod.fst
  rw [List.map_map] at recorded
  exact recorded.symm.trans (Reading.sites_foldl occurrences fun read before =>
    Reading.wellNested_start.of_prefix balanced before).2

/-- A reference that is read is recorded where it is read, and it is the only one there. -/
theorem referenceAt?_of_refer {before after : List Occurrence} {offset : Nat} {text : String}
    {writes : Bool} (run : occurrences = before ++ .refer offset text writes :: after)
    (distinct : (referredOffsets occurrences).Nodup) :
    ∃ r ∈ (Bindings.ofOccurrences occurrences).references,
      (Bindings.ofOccurrences occurrences).referenceAt? offset = some r ∧ r.name = text ∧
        r.scope = (before.foldl Reading.step .start).current ∧ r.writes = writes := by
  subst run
  have well (read : List Occurrence)
      (within : read <+: before ++ .refer offset text writes :: after) :
      (read.foldl Reading.step .start).WellNested :=
    Reading.wellNested_start.of_prefix balanced within
  -- The reference is recorded when it is read, and stays so.
  have here := (Reading.sites_step (well before (List.prefix_append _ _))
    (.refer offset text writes)).symm.subset (List.mem_append_right _ (List.mem_singleton_self _))
  have kept := (@Reading.sites_foldl _ after fun read within => by
    have := well (before ++ .refer offset text writes :: read) ?_
    · rwa [List.foldl_append, List.foldl_cons] at this
    · exact (List.prefix_append_right_inj _).mpr (List.cons_prefix_cons.mpr ⟨rfl, within⟩)).1 here
  rw [← List.foldl_cons, ← List.foldl_append] at kept
  obtain ⟨r, mem, site⟩ := List.mem_map.mp ((references_ofOccurrences balanced).subset kept)
  obtain ⟨position, others⟩ := Prod.mk.inj site
  obtain ⟨named, others⟩ := Prod.mk.inj others
  obtain ⟨scope, stored⟩ := Prod.mk.inj others
  have positions := (offsets_ofOccurrences balanced).nodup_iff.mpr distinct
  exact ⟨r, mem, position ▸ find?_of_nodup positions mem, named, scope, stored⟩

/-- **A name that is free somewhere is free in the module**, wherever it stands. -/
theorem mem_freeNames {offset : Nat} {text : String} {writes : Bool}
    (distinct : (referredOffsets occurrences).Nodup) (mem : .refer offset text writes ∈ occurrences)
    (free : (Bindings.ofOccurrences occurrences).isFreeAt offset = true) :
    text ∈ (Bindings.ofOccurrences occurrences).freeNames := by
  obtain ⟨before, after, run⟩ := List.append_of_mem mem
  obtain ⟨r, among, found, rfl, -⟩ := referenceAt?_of_refer balanced run distinct
  unfold Bindings.isFreeAt at free
  rw [found] at free
  unfold Bindings.freeNames
  rw [List.mem_eraseDups]
  exact List.mem_map_of_mem (List.mem_filter.mpr ⟨among, free⟩)

end Module

/-- **The scope at the position of a reference** is the innermost one where the reference is read. -/
theorem scopeAt_of_refer {before after : List Occurrence} {offset : Nat} {text : String}
    {writes : Bool} (balanced : Balanced (before ++ .refer offset text writes :: after))
    (nodup : (referredOffsets (before ++ .refer offset text writes :: after)).Nodup) :
    (Bindings.ofOccurrences (before ++ .refer offset text writes :: after)).scopeAt offset =
      (before.foldl Reading.step .start).current := by
  obtain ⟨r, -, found, -, scope, -⟩ := referenceAt?_of_refer balanced rfl nodup
  unfold Bindings.scopeAt
  rw [found]
  exact scope

end ModuleInterop.Scope
