import ModuleInterop.Proofs.Scope.Site

/-!
# Names of the top scope

A name that the top scope declares stays declared there, and each binding that a scope knows has been
declared (`Reading.Rooted`, an invariant of reading).  So a variable of the module that is declared
where its name is known already belongs to a binding with two declarations.  It follows that variables
which are declared once have different names, and that the top scope declares them
(`Receives.nodup`).
-/

set_option autoImplicit false

namespace ModuleInterop.Scope

open ModuleInterop.Syntax

/-! ## Lists of names with their bindings -/

section Entries

variable {name : String} {binding : Nat} {entries : List (String × Nat)}

theorem mem_of_lookup (h : lookup name entries = some binding) : (name, binding) ∈ entries := by
  obtain ⟨e, found, rfl⟩ := Option.map_eq_some_iff.mp h
  have same : e.1 = name := by simpa using List.find?_some found
  rw [← same]
  exact List.mem_of_find?_eq_some found

theorem lookup_eq_none_iff : lookup name entries = none ↔ name ∉ entries.map Prod.fst := by
  constructor
  · intro none mem
    obtain ⟨e, mem, same⟩ := List.mem_map.mp mem
    have other := List.find?_eq_none.mp (Option.map_eq_none_iff.mp none) e mem
    simp [same] at other
  · intro absent
    apply Option.map_eq_none_iff.mpr
    apply List.find?_eq_none.mpr
    intro e mem same
    exact absent (List.mem_map.mpr ⟨e, mem, by simpa using same⟩)

theorem mem_assignName {e : String × Nat} (h : e ∈ assignName name binding entries) :
    e ∈ entries ∨ e = (name, binding) := by
  rcases List.mem_append.mp h with kept | new
  · exact .inl (List.mem_filter.mp kept).1
  · exact .inr (List.mem_singleton.mp new)

theorem mem_map_assignName {other : String} :
    other ∈ (assignName name binding entries).map Prod.fst ↔
      other = name ∨ other ∈ entries.map Prod.fst := by
  by_cases same : other = name
  · simp [assignName, same]
  · simp [assignName, same]

end Entries

namespace Reading

variable {reading : Reading}

/-- The names that the top scope declares. -/
def rootNames (reading : Reading) : List String :=
  match reading.scope? ScopeTree.root with
  | some entry => entry.names.map Prod.fst
  | none => []

/-- The bindings that have been declared. -/
def declaredBindings (reading : Reading) : List Nat := reading.found.declarations.map Prod.snd

theorem scope?_updateScope (reading : Reading) (i j : Nat) (f : ScopeEntry → ScopeEntry) :
    (reading.updateScope i f).scope? j =
      (reading.scope? j).map fun entry => if i = j then f entry else entry := by
  show (reading.found.scopes.modify i f)[j]? = _
  rw [List.getElem?_modify]
  rfl

/-- The invariant of reading: the top scope holds variables, none passes through it, and each binding
that a scope knows has been declared. -/
structure Rooted (reading : Reading) : Prop where
  top : ∃ entry, reading.scope? ScopeTree.root = some entry ∧ entry.holdsVars = true ∧
    entry.passing = []
  known : ∀ i entry, reading.scope? i = some entry →
    ∀ e ∈ entry.names ++ entry.passing, e.2 ∈ reading.declaredBindings

theorem rooted_start : start.Rooted where
  top := ⟨_, rfl, rfl, rfl⟩
  known := by
    intro i entry there
    cases i with
    | zero =>
      obtain rfl := Option.some.inj there
      simp
    | succ i => contradiction

/-- Resolving references changes neither scopes nor declarations. -/
theorem found_settle (reading : Reading) :
    reading.settle.found.scopes = reading.found.scopes ∧
      reading.settle.found.declarations = reading.found.declarations := by
  unfold settle
  split
  · exact ⟨rfl, rfl⟩
  · rename_i inner outer _
    cases outer <;> exact ⟨rfl, rfl⟩

/-- A reading that is as well rooted as an earlier one: no name of the top scope is lost. -/
structure Roots (before after : Reading) : Prop where
  rooted : after.Rooted
  names : before.rootNames ⊆ after.rootNames

theorem Roots.trans {before middle after : Reading} (h : Roots before middle)
    (h' : Roots middle after) : Roots before after :=
  ⟨h'.rooted, fun _ mem => h'.names (h.names mem)⟩

namespace Rooted

theorem refl (rooted : reading.Rooted) : Roots reading reading := ⟨rooted, fun _ mem => mem⟩

/-- More declarations, and the same scopes. -/
theorem of_scopes (rooted : reading.Rooted) {after : Reading}
    (scopes : after.found.scopes = reading.found.scopes)
    (more : reading.declaredBindings ⊆ after.declaredBindings) : Roots reading after := by
  have same (i : Nat) : after.scope? i = reading.scope? i := by
    unfold scope?
    rw [scopes]
  refine ⟨⟨?_, ?_⟩, ?_⟩
  · rw [same]
    exact rooted.top
  · intro i entry there e mem
    rw [same] at there
    exact more (rooted.known i entry there e mem)
  · unfold rootNames
    rw [same]
    exact fun _ mem => mem

theorem record (rooted : reading.Rooted) (offset binding : Nat) :
    Roots reading (reading.record offset binding) := by
  refine rooted.of_scopes rfl ?_
  simp [declaredBindings, Reading.record]

/-- A scope changes: the top scope keeps its names, and the scope knows declared bindings only. -/
theorem updateScope (rooted : reading.Rooted) (i : Nat) {f : ScopeEntry → ScopeEntry}
    (top : i = ScopeTree.root → ∀ entry, (f entry).holdsVars = entry.holdsVars ∧
      (f entry).passing = entry.passing ∧
        entry.names.map Prod.fst ⊆ (f entry).names.map Prod.fst)
    (known : ∀ entry, reading.scope? i = some entry →
      ∀ e ∈ (f entry).names ++ (f entry).passing, e.2 ∈ reading.declaredBindings) :
    Roots reading (reading.updateScope i f) := by
  obtain ⟨entry, there, holds, none⟩ := rooted.top
  have root := scope?_updateScope reading i ScopeTree.root f
  rw [there, Option.map_some] at root
  refine ⟨⟨?_, ?_⟩, ?_⟩
  · by_cases here : i = ScopeTree.root
    · obtain ⟨holds', none', -⟩ := top here entry
      rw [if_pos here] at root
      exact ⟨_, root, holds'.trans holds, none'.trans none⟩
    · rw [if_neg here] at root
      exact ⟨_, root, holds, none⟩
  · intro j entry there
    rw [scope?_updateScope, Option.map_eq_some_iff] at there
    obtain ⟨earlier, there, rfl⟩ := there
    split
    · rename_i here
      subst here
      exact known earlier there
    · exact rooted.known j earlier there
  · unfold rootNames
    rw [root, there]
    by_cases here : i = ScopeTree.root
    · rw [if_pos here]
      exact (top here entry).2.2
    · rw [if_neg here]
      exact fun _ mem => mem

/-- A scope declares a name with a binding that has been declared. -/
theorem assign (rooted : reading.Rooted) (i : Nat) (name : String) {binding : Nat}
    (declared : binding ∈ reading.declaredBindings) :
    Roots reading (reading.updateScope i fun entry =>
      { entry with names := assignName name binding entry.names }) := by
  apply rooted.updateScope
  · exact fun _ entry => ⟨rfl, rfl, fun _ mem => mem_map_assignName.mpr (.inr mem)⟩
  · intro entry there e mem
    rcases List.mem_append.mp mem with named | passing
    · rcases mem_assignName named with kept | rfl
      · exact rooted.known i entry there e (List.mem_append_left _ kept)
      · exact declared
    · exact rooted.known i entry there e (List.mem_append_right _ passing)

theorem declareNew (rooted : reading.Rooted) (scope : Nat) (name : Name) :
    Roots reading (reading.declareNew scope name) := by
  have recorded := rooted.record name.span.start reading.count
  have new : reading.count ∈ (reading.record name.span.start reading.count).declaredBindings := by
    simp [declaredBindings, Reading.record]
  -- The declaration could be recorded before the scope changes.
  have assigned := recorded.trans (recorded.rooted.assign scope name.text new)
  exact ⟨⟨assigned.rooted.top, assigned.rooted.known⟩, assigned.names⟩

theorem declareIn (rooted : reading.Rooted) (scope : Nat) (name : Name) :
    Roots reading (reading.declareIn scope name) := by
  unfold Reading.declareIn
  split
  · exact rooted.record _ _
  · exact rooted.declareNew scope name

theorem moveName (rooted : reading.Rooted) (name : String) {source : Nat} (target : Nat)
    (inner : source ≠ ScopeTree.root) : Roots reading (reading.moveName name source target) := by
  unfold Reading.moveName
  split
  · exact rooted.refl
  · rename_i binding found
    obtain ⟨entry, there, named⟩ := Option.bind_eq_some_iff.mp found
    have declared := rooted.known source entry there (name, binding)
      (List.mem_append_left _ (mem_of_lookup named))
    have taken : Roots reading (reading.updateScope source fun entry =>
        { entry with names := entry.names.filter fun e => e.1 != name }) := by
      apply rooted.updateScope
      · exact fun same => absurd same inner
      · intro entry there e mem
        apply rooted.known source entry there e
        exact (List.filter_sublist.append_right _).subset mem
    exact taken.trans (taken.rooted.assign target name declared)

theorem declareThrough (rooted : reading.Rooted) (name : Name) {way : List Nat} (target : Nat)
    (inner : ScopeTree.root ∉ way) : Roots reading (reading.declareThrough name way target) := by
  unfold Reading.declareThrough
  split
  · rename_i i found
    split
    · have other : i ≠ ScopeTree.root := fun same =>
        inner (same ▸ List.mem_of_find?_eq_some found)
      have moved := rooted.moveName name.text target other
      exact moved.trans (moved.rooted.record _ _)
    · exact rooted.refl
  · exact rooted.declareIn target name

theorem passThrough (rooted : reading.Rooted) (name : String) {binding : Nat} {way : List Nat}
    (inner : ScopeTree.root ∉ way) (declared : binding ∈ reading.declaredBindings) :
    Roots reading (reading.passThrough name binding way) := by
  unfold Reading.passThrough
  induction way generalizing reading with
  | nil => exact rooted.refl
  | cons i way ih =>
    rw [List.mem_cons, not_or] at inner
    have passed : Roots reading (reading.updateScope i fun entry =>
        { entry with passing := assignName name binding entry.passing }) := by
      apply rooted.updateScope
      · exact fun same => absurd same.symm inner.1
      · intro entry there e mem
        rcases List.mem_append.mp mem with named | passing
        · exact rooted.known i entry there e (List.mem_append_left _ named)
        · rcases mem_assignName passing with kept | rfl
          · exact rooted.known i entry there e (List.mem_append_right _ kept)
          · exact declared
    exact passed.trans (ih passed.rooted inner.2 declared)

/-- The scopes on the way to the one that holds a variable hold none. -/
theorem root_not_mem_way (rooted : reading.Rooted) : ScopeTree.root ∉ reading.variablePath.1 := by
  intro mem
  obtain ⟨entry, there, holds, -⟩ := rooted.top
  have other := List.all_eq_true.mp List.all_takeWhile _ mem
  simp [there, holds] at other

theorem declareVariable (rooted : reading.Rooted) (name : Name) :
    Roots reading (reading.declareVariable name) := by
  have inner := rooted.root_not_mem_way
  have declared := rooted.declareThrough name reading.variablePath.2 inner
  unfold Reading.declareVariable
  dsimp only
  split
  · exact declared
  · rename_i offset binding last
    have known : binding ∈ (reading.declareThrough name reading.variablePath.1
        reading.variablePath.2).declaredBindings :=
      List.mem_map_of_mem (List.mem_of_getLast? last)
    exact declared.trans (declared.rooted.passThrough name.text inner known)

theorem enter (rooted : reading.Rooted) (holdsVars : Bool) :
    Roots reading (reading.enter holdsVars) := by
  obtain ⟨entry, there, holds, none⟩ := rooted.top
  have root : (reading.enter holdsVars).scope? ScopeTree.root = some entry :=
    (List.getElem?_append_left (List.getElem?_eq_some_iff.mp there).1).trans there
  refine ⟨⟨⟨entry, root, holds, none⟩, ?_⟩, ?_⟩
  · intro i entry there e mem
    rcases List.mem_append.mp (List.mem_of_getElem? there) with earlier | new
    · obtain ⟨j, there⟩ := List.getElem?_of_mem earlier
      exact rooted.known j entry there e mem
    · rw [List.mem_singleton.mp new] at mem
      contradiction
  · unfold rootNames
    rw [root, there]
    exact fun _ mem => mem

theorem settle (rooted : reading.Rooted) : Roots reading reading.settle := by
  obtain ⟨scopes, declarations⟩ := found_settle reading
  apply rooted.of_scopes scopes
  unfold declaredBindings
  rw [declarations]
  exact fun _ mem => mem

/-- **One step** keeps the names of the top scope. -/
theorem step (rooted : reading.Rooted) (occurrence : Occurrence) :
    Roots reading (reading.step occurrence) := by
  cases occurrence with
  | enter holdsVars => exact rooted.enter holdsVars
  | leave =>
    have settled := rooted.settle
    exact settled.trans (settled.rooted.of_scopes rfl fun _ mem => mem)
  | settle => exact rooted.settle
  | declare rule name =>
    cases rule with
    | here => exact rooted.declareIn _ name
    | hoisted => exact rooted.declareVariable name
    | shadowing => exact rooted.declareNew _ name
  | refer offset name writes =>
    show Roots reading (reading.refer offset name writes)
    unfold Reading.refer
    split
    · exact rooted.refl
    · exact rooted.of_scopes rfl fun _ mem => mem
  | word offset => exact rooted.of_scopes rfl fun _ mem => mem

/-- **A run** keeps the names of the top scope. -/
theorem foldl (rooted : reading.Rooted) (occurrences : List Occurrence) :
    Roots reading (occurrences.foldl Reading.step reading) := by
  induction occurrences generalizing reading with
  | nil => exact rooted.refl
  | cons occurrence others ih =>
    have first := rooted.step occurrence
    exact first.trans (ih first.rooted)

end Rooted

/-! ## Declarations in order -/

/-- Declarations have been recorded at some positions, after the earlier ones. -/
def Records (before after : Reading) (positions : List Nat) : Prop :=
  ∃ added, after.found.declarations = before.found.declarations ++ added ∧
    added.map Prod.fst = positions

namespace Records

variable {before middle after : Reading} {positions positions' : List Nat}

theorem of_eq (same : after.found.declarations = before.found.declarations) :
    Records before after [] := ⟨[], by rw [same, List.append_nil], rfl⟩

theorem trans (h : Records before middle positions) (h' : Records middle after positions') :
    Records before after (positions ++ positions') := by
  obtain ⟨added, all, rfl⟩ := h
  obtain ⟨added', all', rfl⟩ := h'
  exact ⟨added ++ added', by rw [all', all, List.append_assoc], List.map_append⟩

end Records

theorem records_declareIn (reading : Reading) (scope : Nat) (name : Name) :
    Records reading (reading.declareIn scope name) [name.span.start] := by
  unfold declareIn
  split <;> exact ⟨_, rfl, rfl⟩

theorem records_moveName (reading : Reading) (name : String) (source target : Nat) :
    Records reading (reading.moveName name source target) [] := by
  unfold moveName
  split <;> exact .of_eq rfl

theorem records_declareThrough (reading : Reading) (name : Name) (way : List Nat) (target : Nat) :
    Records reading (reading.declareThrough name way target) [name.span.start] := by
  unfold declareThrough
  split
  · rename_i i found
    split
    · exact (records_moveName reading name.text i target).trans ⟨_, rfl, rfl⟩
    · rename_i unknown
      have known := List.find?_some found
      rw [unknown] at known
      contradiction
  · exact records_declareIn reading target name

theorem records_passThrough (reading : Reading) (name : String) (binding : Nat) (way : List Nat) :
    Records reading (reading.passThrough name binding way) [] := by
  unfold passThrough
  induction way generalizing reading with
  | nil => exact .of_eq rfl
  | cons i way ih => exact Records.trans (.of_eq rfl) (ih _)

/-- **One step** records the declaration that it reads. -/
theorem records_step (reading : Reading) (occurrence : Occurrence) :
    Records reading (reading.step occurrence) occurrence.declared?.toList := by
  cases occurrence with
  | enter holdsVars => exact .of_eq rfl
  | leave => exact .of_eq (found_settle reading).2
  | settle => exact .of_eq (found_settle reading).2
  | declare rule name =>
    cases rule with
    | here => exact records_declareIn reading _ name
    | hoisted =>
      have declared := records_declareThrough reading name reading.variablePath.1
        reading.variablePath.2
      show Records reading (reading.declareVariable name) [name.span.start]
      unfold declareVariable
      dsimp only
      split
      · exact declared
      · exact declared.trans (records_passThrough _ _ _ _)
    | shadowing => exact ⟨_, rfl, rfl⟩
  | refer offset name writes =>
    apply Records.of_eq
    show (reading.refer offset name writes).found.declarations = _
    unfold refer
    split <;> rfl
  | word offset => exact .of_eq rfl

/-- **A run** records the declarations that it reads. -/
theorem records_foldl (reading : Reading) (occurrences : List Occurrence) :
    Records reading (occurrences.foldl Reading.step reading) (declaredOffsets occurrences) := by
  induction occurrences generalizing reading with
  | nil => exact .of_eq rfl
  | cons occurrence others ih =>
    rw [declaredOffsets_cons]
    exact (records_step reading occurrence).trans (ih _)

/-! ## Declarations in the top scope -/

/-- A variable of the module is declared in the top scope, whatever its kind. -/
theorem WellNested.step_declare (well : reading.WellNested) (rooted : reading.Rooted)
    (top : reading.current = ScopeTree.root) {rule : DeclarationRule} (joins : rule ≠ .shadowing)
    (name : Name) :
    reading.step (.declare rule name) = reading.declareIn ScopeTree.root name := by
  cases rule with
  | here =>
    show reading.declareIn reading.current name = _
    rw [top]
  | shadowing => contradiction
  | hoisted =>
    obtain ⟨entry, there, holds, -⟩ := rooted.top
    have path : reading.variablePath = ([], ScopeTree.root) := by
      obtain ⟨inner, chain, -⟩ := well.opened
      unfold current at top
      cases opened : reading.opened with
      | nil =>
        rw [opened] at chain
        cases inner <;> contradiction
      | cons first others =>
        rw [opened] at top
        simp only at top
        simp [variablePath, opened, top, there, holds]
    show reading.declareVariable name = _
    unfold declareVariable
    rw [path]
    dsimp only [declareThrough, List.find?_nil]
    split <;> rfl

/-- **A name that is declared in the top scope** is declared there from then on; where it was before,
its binding has an earlier declaration. -/
theorem Rooted.declareIn_root (rooted : reading.Rooted) (name : Name) :
    name.text ∈ (reading.declareIn ScopeTree.root name).rootNames ∧
      (name.text ∈ reading.rootNames → ∃ binding ∈ reading.declaredBindings,
        (reading.declareIn ScopeTree.root name).found.declarations =
          reading.found.declarations ++ [(name.span.start, binding)]) := by
  obtain ⟨entry, there, -, none⟩ := rooted.top
  have names : reading.rootNames = entry.names.map Prod.fst := by
    unfold rootNames
    rw [there]
  have known : reading.known? name.text ScopeTree.root = lookup name.text entry.names := by
    unfold known?
    rw [there]
    show (lookup name.text entry.names).or (lookup name.text entry.passing) = _
    rw [none]
    exact Option.or_none
  unfold Reading.declareIn
  rw [known, names]
  cases found : lookup name.text entry.names with
  | none =>
    refine ⟨?_, fun mem => absurd mem (lookup_eq_none_iff.mp found)⟩
    have changed : (reading.declareNew ScopeTree.root name).scope? ScopeTree.root =
        some { entry with names := assignName name.text reading.count entry.names } := by
      show (reading.updateScope ScopeTree.root _).scope? ScopeTree.root = _
      rw [scope?_updateScope, there, Option.map_some, if_pos rfl]
    show name.text ∈ (reading.declareNew ScopeTree.root name).rootNames
    unfold rootNames
    rw [changed]
    exact mem_map_assignName.mpr (.inl rfl)
  | some binding =>
    have declared := mem_of_lookup found
    constructor
    · exact (rooted.record _ _).names (names ▸ List.mem_map_of_mem declared)
    · exact fun _ => ⟨binding,
        rooted.known _ entry there _ (List.mem_append_left _ declared), rfl⟩

/-- The innermost open scope is known from the open scopes. -/
theorem current_congr {after : Reading}
    (same : after.opened.map OpenScope.scope = reading.opened.map OpenScope.scope) :
    after.current = reading.current := by
  have known (reading : Reading) :
      reading.current = (reading.opened.map OpenScope.scope).headD 0 := by
    unfold current
    cases reading.opened <;> rfl
  rw [known, known, same]

end Reading

/-! ## The declarations of a module -/

open Reading

theorem records_ofOccurrences (occurrences : List Occurrence) :
    (Bindings.ofOccurrences occurrences).declarations.map Prod.fst =
      declaredOffsets occurrences := by
  obtain ⟨added, all, positions⟩ := records_foldl .start occurrences
  have same := (found_settle (occurrences.foldl Reading.step .start)).2
  show ((occurrences.foldl Reading.step .start).settle.found.declarations).map Prod.fst = _
  rw [same, all, ← positions]
  rfl

/-- What is declared once and never assigned to is the only declaration of its binding, which is not
written. -/
theorem only_declaration_of_constant {bindings : Bindings} {offset : Nat}
    (constant : bindings.isConstantAt offset = true) :
    ∃ binding, (offset, binding) ∈ bindings.declarations ∧
      bindings.declarationCount binding = 1 ∧ bindings.isWritten binding = false := by
  unfold Bindings.isConstantAt at constant
  cases found : bindings.declarations.find? fun d => d.1 == offset with
  | none =>
    rw [found] at constant
    contradiction
  | some d =>
    rw [found] at constant
    obtain ⟨position, binding⟩ := d
    have here : position = offset := by simpa using List.find?_some found
    rw [Bool.and_eq_true] at constant
    exact ⟨binding, here ▸ List.mem_of_find?_eq_some found, by simpa using constant.2,
      by simpa using constant.1⟩

/-- A declaration whose binding has an earlier one is not its only declaration. -/
theorem isConstantAt_eq_false {before after : List Occurrence} {rule : DeclarationRule}
    {name : Name} {binding : Nat}
    (distinct : (declaredOffsets (before ++ .declare rule name :: after)).Nodup)
    (earlier : binding ∈ (before.foldl Reading.step .start).declaredBindings)
    (again : ((before.foldl Reading.step .start).step (.declare rule name)).found.declarations =
      (before.foldl Reading.step .start).found.declarations ++ [(name.span.start, binding)]) :
    (Bindings.ofOccurrences (before ++ .declare rule name :: after)).isConstantAt
      name.span.start = false := by
  generalize reads : before.foldl Reading.step .start = reading at earlier again
  obtain ⟨added, later, -⟩ := records_foldl (reading.step (.declare rule name)) after
  have all : (Bindings.ofOccurrences (before ++ .declare rule name :: after)).declarations =
      reading.found.declarations ++ [(name.span.start, binding)] ++ added := by
    show ((before ++ .declare rule name :: after).foldl Reading.step .start).settle.found.declarations
      = _
    rw [(found_settle _).2, List.foldl_append, List.foldl_cons, reads, later, again]
  have positions := records_ofOccurrences (before ++ .declare rule name :: after)
  rw [all] at positions
  rw [← positions] at distinct
  have here : (reading.found.declarations ++ [(name.span.start, binding)] ++ added).find?
      (fun d => d.1 == name.span.start) = some (name.span.start, binding) := by
    have mem : (name.span.start, binding) ∈
        reading.found.declarations ++ [(name.span.start, binding)] ++ added := by
      simp
    exact find?_of_nodup distinct mem
  have count : 2 ≤ (Bindings.ofOccurrences (before ++ .declare rule name :: after)).declarationCount
      binding := by
    obtain ⟨d, mem, rfl⟩ := List.mem_map.mp earlier
    have first : 0 < (reading.found.declarations.filter fun e => e.2 == d.2).length :=
      List.length_pos_of_mem (List.mem_filter.mpr ⟨mem, by simp⟩)
    unfold Bindings.declarationCount
    simp only [all, List.filter_append, List.length_append, List.filter_cons, beq_self_eq_true,
      if_true, List.filter_nil, List.length_cons, List.length_nil]
    omega
  unfold Bindings.isConstantAt
  rw [all, here]
  have several : ((Bindings.ofOccurrences
      (before ++ .declare rule name :: after)).declarationCount binding == 1) = false := by
    apply beq_false_of_ne
    omega
  simp only [several, Bool.and_false]

section Module

variable {occurrences : List Occurrence} (balanced : Balanced occurrences)
  (distinct : (offsets occurrences).Nodup)

include balanced distinct

/-- A variable that is declared once, with a reference in the top scope right after it, is declared
there, and its name is new. -/
theorem declared_at_top {before others : List Occurrence} {rule : DeclarationRule} {name : Name}
    {offset : Nat} {text : String}
    (split : occurrences = before ++ .declare rule name :: .refer offset text false :: others)
    (joins : rule ≠ .shadowing)
    (top : (Bindings.ofOccurrences occurrences).scopeAt offset = ScopeTree.root)
    (constant : (Bindings.ofOccurrences occurrences).isConstantAt name.span.start = true) :
    (before.foldl Reading.step .start).current = ScopeTree.root ∧
      name.text ∉ (before.foldl Reading.step .start).rootNames ∧
      name.text ∈ ((before ++ [Occurrence.declare rule name]).foldl Reading.step .start).rootNames := by
  subst split
  have rooted := (rooted_start.foldl before).rooted
  have well : (before.foldl Reading.step .start).WellNested :=
    Reading.wellNested_start.of_prefix balanced (List.prefix_append _ _)
  -- The reference right after the name stands in the top scope, and so does the name.
  have here : (before.foldl Reading.step .start).current = ScopeTree.root := by
    have same : before ++ [.declare rule name] ++ .refer offset text false :: others =
        before ++ .declare rule name :: .refer offset text false :: others := by
      simp
    have scope := scopeAt_of_refer (same ▸ balanced)
      ((referredOffsets_sublist _).nodup (same ▸ distinct))
    rw [same, top, List.foldl_append] at scope
    have inner : (Occurrence.declare rule name).isInner = true := rfl
    rw [← current_congr (well.step inner).2]
    exact scope.symm
  obtain ⟨now, again⟩ := rooted.declareIn_root name
  rw [← well.step_declare rooted here joins name] at now again
  refine ⟨here, fun known => ?_, ?_⟩
  · obtain ⟨binding, earlier, added⟩ := again known
    rw [isConstantAt_eq_false ((declaredOffsets_sublist _).nodup distinct) earlier added] at constant
    contradiction
  · rw [List.foldl_append]
    exact now

/-- What is read from some place on declares names that the top scope has not declared before, and
that it declares in the end. -/
theorem Receives.of_suffix {rest : List Occurrence} {names : List Name}
    (receives : Receives (Bindings.ofOccurrences occurrences) rest names)
    {before : List Occurrence} (split : occurrences = before ++ rest) :
    (names.map Name.text).Nodup ∧
      ∀ name ∈ names, name.text ∉ (before.foldl Reading.step .start).rootNames ∧
        name.text ∈ (occurrences.foldl Reading.step .start).rootNames := by
  induction receives generalizing before with
  | nil => simp
  | @skip occurrence others names _ ih =>
    obtain ⟨nodup, all⟩ := @ih (before ++ [occurrence]) (by simpa using split)
    refine ⟨nodup, fun name mem => ⟨fun known => (all name mem).1 ?_, (all name mem).2⟩⟩
    rw [List.foldl_append]
    exact ((rooted_start.foldl before).rooted.step occurrence).names known
  | @take rule name offset text others names joins top constant _ ih =>
    obtain ⟨-, new, now⟩ := declared_at_top balanced distinct split joins top constant
    obtain ⟨nodup, all⟩ := @ih (before ++ [.declare rule name, .refer offset text false])
      (by simp [split])
    have rooted := (rooted_start.foldl before).rooted
    have declared := rooted.step (.declare rule name)
    have referred := declared.rooted.step (.refer offset text false)
    rw [List.foldl_append] at all now
    refine ⟨?_, ?_⟩
    · rw [List.map_cons, List.nodup_cons]
      refine ⟨fun mem => ?_, nodup⟩
      obtain ⟨other, mem, same⟩ := List.mem_map.mp mem
      exact (all other mem).1 (same ▸ referred.names now)
    · rw [List.forall_mem_cons]
      refine ⟨⟨new, ?_⟩, fun other mem => ⟨fun known => (all other mem).1
        (referred.names (declared.names known)), (all other mem).2⟩⟩
      rw [split, List.foldl_append]
      exact (referred.rooted.foldl others).names (referred.names now)

omit balanced distinct in
/-- Where a variable receives its value it is declared. -/
theorem Receives.exists_declare {bindings : Bindings} {names : List Name}
    (receives : Receives bindings occurrences names) {name : Name} (mem : name ∈ names) :
    ∃ before rule offset text others,
      occurrences = before ++ .declare rule name :: .refer offset text false :: others ∧
        rule ≠ .shadowing ∧ bindings.scopeAt offset = ScopeTree.root ∧
        bindings.isConstantAt name.span.start = true := by
  induction receives with
  | nil => contradiction
  | skip _ ih =>
    obtain ⟨before, rule, offset, text, others, rfl, facts⟩ := ih mem
    exact ⟨_ :: before, rule, offset, text, others, rfl, facts⟩
  | take joins top constant _ ih =>
    rcases List.mem_cons.mp mem with rfl | mem
    · exact ⟨[], _, _, _, _, rfl, joins, top, constant⟩
    · obtain ⟨before, rule, offset, text, others, rfl, facts⟩ := ih mem
      exact ⟨_ :: _ :: before, rule, offset, text, others, rfl, facts⟩

omit balanced distinct in
/-- The names that the reading finds in the top scope are declared there. -/
theorem declares_root_iff {text : String} :
    (ScopeTree.ofBindings (Bindings.ofOccurrences occurrences)).declares ScopeTree.root text = true ↔
      text ∈ (occurrences.foldl Reading.step .start).rootNames := by
  have scopes : (Bindings.ofOccurrences occurrences).scopes =
      (occurrences.foldl Reading.step .start).found.scopes := (found_settle _).1
  unfold rootNames scope? ScopeTree.declares ScopeTree.ofBindings
  rw [scopes]
  cases (occurrences.foldl Reading.step .start).found.scopes[ScopeTree.root]? with
  | none => simp
  | some entry => simp

/-- **Variables that are declared once have different names**, and the top scope declares them. -/
theorem Receives.nodup {names : List Name}
    (receives : Receives (Bindings.ofOccurrences occurrences) occurrences names) :
    (names.map Name.text).Nodup ∧ ∀ name ∈ names,
      (ScopeTree.ofBindings (Bindings.ofOccurrences occurrences)).declares ScopeTree.root name.text =
        true := by
  have run : occurrences = [] ++ occurrences := rfl
  obtain ⟨nodup, all⟩ := receives.of_suffix balanced distinct run
  exact ⟨nodup, fun name mem => declares_root_iff.mpr (all name mem).2⟩

end Module

end ModuleInterop.Scope
