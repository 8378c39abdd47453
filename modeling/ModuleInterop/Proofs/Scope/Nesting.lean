import ModuleInterop.Proofs.Scope.Balance
import ModuleInterop.Scope.Fresh

/-!
# Every scope lies in the top scope

The scopes from any position of a module outwards end at the top scope, which is not among the
others (`endsAtRoot_chain`).  This is an invariant of reading the occurrences of a module
(`WellNested`): a step that neither begins nor ends a scope keeps the scopes and what lies around
them (`SameShape`), and since scopes are balanced, the top scope stays open to the end.
-/

set_option autoImplicit false

namespace ModuleInterop.Scope

open ModuleInterop.Syntax

/-- The top scope comes last among scopes, and only there. -/
def EndsAtRoot (chain : List Nat) : Prop :=
  ∃ inner, chain = inner ++ [ScopeTree.root] ∧ ScopeTree.root ∉ inner

/-- A scope inside others. -/
theorem EndsAtRoot.cons {chain : List Nat} {scope : Nat} (h : EndsAtRoot chain)
    (inside : scope ≠ ScopeTree.root) : EndsAtRoot (scope :: chain) := by
  obtain ⟨inner, rfl, outside⟩ := h
  refine ⟨scope :: inner, rfl, ?_⟩
  rw [List.mem_cons, not_or]
  exact ⟨inside.symm, outside⟩

/-- The top scope alone. -/
theorem endsAtRoot_root : EndsAtRoot [ScopeTree.root] := ⟨[], rfl, List.not_mem_nil⟩

namespace Reading

/-- The invariant of reading: the open scopes and the scopes around each scope end at the top scope,
and every scope that is named is one of the module's. -/
structure WellNested (reading : Reading) : Prop where
  opened : EndsAtRoot (reading.opened.map OpenScope.scope)
  entries : ∀ i entry, reading.found.scopes[i]? = some entry → EndsAtRoot (i :: entry.ancestors)
  inside : ∀ o ∈ reading.opened, o.scope < reading.found.scopes.length
  pending : ∀ o ∈ reading.opened, ∀ r ∈ o.pending, r.scope < reading.found.scopes.length
  references : ∀ r ∈ reading.found.references, r.scope < reading.found.scopes.length
  words : ∀ w ∈ reading.found.words, w.2 < reading.found.scopes.length

/-- The top scope is well nested. -/
theorem wellNested_start : start.WellNested where
  opened := endsAtRoot_root
  entries := by
    intro i entry there
    cases i with
    | zero =>
      obtain rfl := Option.some.inj there
      exact endsAtRoot_root
    | succ i => contradiction
  inside := by
    intro o mem
    rw [List.mem_singleton.mp mem]
    exact Nat.one_pos
  pending := by
    intro o mem r mem'
    rw [List.mem_singleton.mp mem] at mem'
    contradiction
  references := fun _ mem => nomatch mem
  words := fun _ mem => nomatch mem

/-! ## Steps that declare a name -/

/-- The scopes of two readings lie alike, and nothing else that names a scope differs. -/
structure SameShape (before after : Reading) : Prop where
  ancestors : after.found.scopes.map ScopeEntry.ancestors =
    before.found.scopes.map ScopeEntry.ancestors
  opened : after.opened = before.opened
  references : after.found.references = before.found.references
  words : after.found.words = before.found.words

/-- A reading has the shape it has. -/
theorem SameShape.refl (reading : Reading) : SameShape reading reading := ⟨rfl, rfl, rfl, rfl⟩

/-- The shape stays the same over two stretches of a reading. -/
theorem SameShape.trans {first middle last : Reading} (h : SameShape first middle)
    (h' : SameShape middle last) : SameShape first last :=
  ⟨h'.ancestors.trans h.ancestors, h'.opened.trans h.opened, h'.references.trans h.references,
    h'.words.trans h.words⟩

/-- There are as many scopes in a reading of the same shape. -/
theorem SameShape.length {before after : Reading} (h : SameShape before after) :
    after.found.scopes.length = before.found.scopes.length := by
  have := congrArg List.length h.ancestors
  rwa [List.length_map, List.length_map] at this

/-- **A reading of the same shape is well nested** if one of them is. -/
theorem WellNested.of_sameShape {before after : Reading} (well : before.WellNested)
    (same : SameShape before after) : after.WellNested where
  opened := same.opened ▸ well.opened
  entries := by
    intro i entry there
    have around : (before.found.scopes.map ScopeEntry.ancestors)[i]? = some entry.ancestors := by
      rw [← same.ancestors, List.getElem?_map, there]
      rfl
    rw [List.getElem?_map] at around
    obtain ⟨earlier, there, alike⟩ := Option.map_eq_some_iff.mp around
    exact alike ▸ well.entries i earlier there
  inside := by
    rw [same.length, same.opened]
    exact well.inside
  pending := by
    rw [same.length, same.opened]
    exact well.pending
  references := by
    rw [same.length, same.references]
    exact well.references
  words := by
    rw [same.length, same.words]
    exact well.words

variable (reading : Reading)

/-- Changing the names of a scope. -/
theorem sameShape_updateScope (i : Nat) {f : ScopeEntry → ScopeEntry}
    (keeps : ∀ entry, (f entry).ancestors = entry.ancestors) :
    SameShape reading (reading.updateScope i f) := by
  refine { SameShape.refl reading with ancestors := List.ext_getElem? fun j => ?_ }
  show ((reading.found.scopes.modify i f).map ScopeEntry.ancestors)[j]? = _
  rw [List.getElem?_map, List.getElem?_map, List.getElem?_modify]
  cases reading.found.scopes[j]? with
  | none => rfl
  | some entry =>
    show some (if i = j then f entry else entry).ancestors = some entry.ancestors
    split
    · rw [keeps]
    · rfl

/-- Recording a declaration. -/
theorem sameShape_record (offset binding : Nat) :
    SameShape reading (reading.record offset binding) := ⟨rfl, rfl, rfl, rfl⟩

/-- Declaring a new binding. -/
theorem sameShape_declareNew (scope : Nat) (name : Name) :
    SameShape reading (reading.declareNew scope name) := by
  have updated := sameShape_updateScope reading scope
    (f := fun entry => { entry with names := assignName name.text reading.count entry.names })
    fun _ => rfl
  exact ⟨updated.ancestors, updated.opened, updated.references, updated.words⟩

/-- Declaring a name in a scope. -/
theorem sameShape_declareIn (scope : Nat) (name : Name) :
    SameShape reading (reading.declareIn scope name) := by
  unfold declareIn
  split
  · exact sameShape_record reading _ _
  · exact sameShape_declareNew reading _ _

/-- Moving a binding from one scope to another. -/
theorem sameShape_moveName (name : String) (source target : Nat) :
    SameShape reading (reading.moveName name source target) := by
  unfold moveName
  split
  · exact SameShape.refl reading
  · refine SameShape.trans ?_ (sameShape_updateScope _ _ fun _ => rfl)
    exact sameShape_updateScope reading _ fun _ => rfl

/-- Declaring a variable in the scope that holds it. -/
theorem sameShape_declareThrough (name : Name) (way : List Nat) (target : Nat) :
    SameShape reading (reading.declareThrough name way target) := by
  unfold declareThrough
  split
  · split
    · exact (sameShape_moveName reading _ _ _).trans (sameShape_record _ _ _)
    · exact SameShape.refl reading
  · exact sameShape_declareIn reading _ _

/-- Recording that a binding passes through scopes. -/
theorem sameShape_passThrough (name : String) (binding : Nat) (way : List Nat) :
    SameShape reading (reading.passThrough name binding way) := by
  unfold passThrough
  induction way generalizing reading with
  | nil => exact SameShape.refl reading
  | cons i way ih =>
    refine SameShape.trans ?_ (ih _)
    exact sameShape_updateScope reading i fun _ => rfl

/-- Declaring a variable. -/
theorem sameShape_declareVariable (name : Name) :
    SameShape reading (reading.declareVariable name) := by
  have declared := sameShape_declareThrough reading name reading.variablePath.1
    reading.variablePath.2
  unfold declareVariable
  dsimp only
  split
  · exact declared
  · exact declared.trans (sameShape_passThrough _ _ _ _)

/-! ## Steps that refer, resolve, begin or end a scope -/

variable {reading}

/-- The innermost open scope is one of the module's. -/
theorem WellNested.current_lt (well : reading.WellNested) :
    reading.current < reading.found.scopes.length := by
  obtain ⟨inner, chain, -⟩ := well.opened
  unfold current
  cases opened : reading.opened with
  | nil =>
    rw [opened] at chain
    cases inner <;> contradiction
  | cons first others => exact well.inside first (opened ▸ List.mem_cons_self)

/-- Referring to a name. -/
theorem WellNested.refer (well : reading.WellNested) (offset : Nat) (name : String)
    (writes : Bool) :
    (reading.refer offset name writes).WellNested ∧
      (reading.refer offset name writes).opened.map OpenScope.scope =
        reading.opened.map OpenScope.scope := by
  unfold Reading.refer
  split
  · exact ⟨well, rfl⟩
  · rename_i first others opened
    have chain := well.opened
    have inside := well.inside
    have pending := well.pending
    rw [opened] at chain inside pending ⊢
    rw [List.forall_mem_cons] at inside pending
    refine ⟨⟨chain, well.entries, ?_, ?_, well.references, well.words⟩, rfl⟩
    · exact List.forall_mem_cons.mpr inside
    · refine List.forall_mem_cons.mpr ⟨?_, pending.2⟩
      rw [List.forall_mem_append]
      refine ⟨pending.1, fun r mem => ?_⟩
      rw [List.mem_singleton.mp mem]
      exact inside.1

/-- Recording a word. -/
theorem WellNested.recordWord (well : reading.WellNested) (offset : Nat) :
    (reading.recordWord offset).WellNested := by
  refine ⟨well.opened, well.entries, well.inside, well.pending, well.references, ?_⟩
  refine List.forall_mem_append.mpr ⟨well.words, fun w mem => ?_⟩
  rw [List.mem_singleton.mp mem]
  exact well.current_lt

/-- Resolving the references of the innermost scope. -/
theorem WellNested.settle (well : reading.WellNested) :
    reading.settle.WellNested ∧
      reading.settle.opened.map OpenScope.scope = reading.opened.map OpenScope.scope := by
  unfold Reading.settle
  split
  · exact ⟨well, rfl⟩
  · rename_i first others opened
    have chain := well.opened
    have inside := well.inside
    have pending := well.pending
    rw [opened] at chain inside pending ⊢
    rw [List.forall_mem_cons] at inside pending
    have resolved : ∀ r ∈ first.pending.filterMap (fun r =>
        (reading.bindingIn first.scope r).map fun b => { r with binding := some b }),
        r.scope < reading.found.scopes.length := by
      intro r mem
      obtain ⟨r', mem', found⟩ := List.mem_filterMap.mp mem
      obtain ⟨b, -, rfl⟩ := Option.map_eq_some_iff.mp found
      exact pending.1 r' mem'
    have left : ∀ r ∈ first.pending.filter (fun r =>
        (reading.bindingIn first.scope r).isNone), r.scope < reading.found.scopes.length :=
      fun r mem => pending.1 r (List.mem_filter.mp mem).1
    have nothing : ∀ r ∈ ([] : List Reference), r.scope < reading.found.scopes.length := nofun
    dsimp only
    cases others with
    | nil =>
      refine ⟨⟨chain, well.entries, ?_, ?_, ?_, well.words⟩, rfl⟩
      · exact List.forall_mem_cons.mpr inside
      · exact List.forall_mem_cons.mpr ⟨nothing, pending.2⟩
      · exact List.forall_mem_append.mpr
          ⟨well.references, List.forall_mem_append.mpr ⟨resolved, left⟩⟩
    | cons next others =>
      rw [List.forall_mem_cons] at inside pending
      refine ⟨⟨chain, well.entries, ?_, ?_, ?_, well.words⟩, rfl⟩
      · exact List.forall_mem_cons.mpr ⟨inside.1, List.forall_mem_cons.mpr inside.2⟩
      · exact List.forall_mem_cons.mpr ⟨nothing, List.forall_mem_cons.mpr
          ⟨List.forall_mem_append.mpr ⟨pending.2.1, left⟩, pending.2.2⟩⟩
      · exact List.forall_mem_append.mpr ⟨well.references, resolved⟩

/-- A scope begins. -/
theorem WellNested.enter (well : reading.WellNested) (holdsVars : Bool) :
    (reading.enter holdsVars).WellNested ∧
      (reading.enter holdsVars).opened.map OpenScope.scope =
        reading.found.scopes.length :: reading.opened.map OpenScope.scope := by
  have longer : (reading.enter holdsVars).found.scopes.length = reading.found.scopes.length + 1 :=
    List.length_append
  have known {n : Nat} (h : n < reading.found.scopes.length) :
      n < (reading.enter holdsVars).found.scopes.length := longer ▸ Nat.lt_succ_of_lt h
  have new : reading.found.scopes.length ≠ ScopeTree.root :=
    Nat.ne_of_gt (Nat.lt_of_le_of_lt (Nat.zero_le _) well.current_lt)
  refine ⟨⟨well.opened.cons new, ?_, ?_, ?_, fun r mem => known (well.references r mem),
    fun w mem => known (well.words w mem)⟩, rfl⟩
  · intro i entry there
    rcases Nat.lt_trichotomy i reading.found.scopes.length with earlier | rfl | later
    · refine well.entries i entry ?_
      rwa [← List.getElem?_append_left earlier]
    · have : (reading.enter holdsVars).found.scopes[reading.found.scopes.length]? =
          some ⟨reading.opened.map OpenScope.scope, holdsVars, [], []⟩ :=
        List.getElem?_concat_length
      rw [this] at there
      obtain rfl := Option.some.inj there
      exact well.opened.cons new
    · rw [List.getElem?_eq_none (by omega)] at there
      contradiction
  · refine List.forall_mem_cons.mpr ⟨?_, fun o mem => known (well.inside o mem)⟩
    rw [longer]
    exact Nat.lt_succ_self _
  · exact List.forall_mem_cons.mpr ⟨nofun, fun o mem r mem' => known (well.pending o mem r mem')⟩

/-- A scope other than the top scope ends. -/
theorem WellNested.leave (well : reading.WellNested) {scope : Nat} {outer : List Nat}
    (opened : reading.opened.map OpenScope.scope = scope :: outer) (ends : EndsAtRoot outer) :
    reading.leave.WellNested ∧ reading.leave.opened.map OpenScope.scope = outer := by
  obtain ⟨settled, same⟩ := well.settle
  have rest : reading.leave.opened.map OpenScope.scope = outer := by
    show (reading.settle.opened.drop 1).map OpenScope.scope = outer
    rw [List.map_drop, same, opened]
    rfl
  refine ⟨⟨rest ▸ ends, settled.entries, ?_, ?_, settled.references, settled.words⟩, rest⟩
  · exact fun o mem => settled.inside o (List.mem_of_mem_drop mem)
  · exact fun o mem => settled.pending o (List.mem_of_mem_drop mem)

/-! ## A step and a run -/

/-- **One step** that neither begins nor ends a scope keeps scopes well nested. -/
theorem WellNested.step (well : reading.WellNested) {occurrence : Occurrence}
    (inner : occurrence.isInner = true) :
    (reading.step occurrence).WellNested ∧
      (reading.step occurrence).opened.map OpenScope.scope =
        reading.opened.map OpenScope.scope := by
  have shaped {after : Reading} (same : SameShape reading after) : after.WellNested ∧
      after.opened.map OpenScope.scope = reading.opened.map OpenScope.scope :=
    ⟨well.of_sameShape same, by rw [same.opened]⟩
  cases occurrence with
  | enter holdsVars => contradiction
  | leave => contradiction
  | settle => exact well.settle
  | declare rule name =>
    cases rule with
    | here => exact shaped (sameShape_declareIn reading _ _)
    | hoisted => exact shaped (sameShape_declareVariable reading _)
    | shadowing => exact shaped (sameShape_declareNew reading _ _)
  | refer offset name writes => exact well.refer offset name writes
  | word offset => exact ⟨well.recordWord offset, rfl⟩

/-- **A run** over balanced occurrences keeps scopes well nested, and the open scopes are the same
before and after it. -/
theorem WellNested.foldl {occurrences : List Occurrence} (balanced : Balanced occurrences)
    (well : reading.WellNested) :
    (occurrences.foldl Reading.step reading).WellNested ∧
      (occurrences.foldl Reading.step reading).opened.map OpenScope.scope =
        reading.opened.map OpenScope.scope := by
  induction balanced generalizing reading with
  | nil => exact ⟨well, rfl⟩
  | cons inner _ ih =>
    obtain ⟨next, same⟩ := well.step inner
    obtain ⟨last, same'⟩ := ih next
    exact ⟨last, same'.trans same⟩
  | @enclosed holdsVars inside others _ _ ih ih' =>
    -- The scope that begins is the one that ends, since what is inside leaves it open.
    obtain ⟨entered, opened⟩ := well.enter holdsVars
    obtain ⟨within, same⟩ := ih entered
    obtain ⟨left, back⟩ := within.leave (same.trans opened) well.opened
    rw [Scope.enclosed, List.cons_append, List.foldl_cons, List.foldl_append, List.foldl_append]
    obtain ⟨last, same'⟩ := ih' left
    exact ⟨last, same'.trans back⟩

end Reading

/-! ## The scopes of a module -/

/-- The scopes of a module are well nested. -/
theorem wellNested_ofProgram (program : Program) :
    ((ofStmts program.body).foldl Reading.step .start).settle.WellNested :=
  (Reading.wellNested_start.foldl (balanced_ofStmts program.body)).1.settle.1

/-- The scope at any position is one of the module's. -/
theorem scopeAt_lt (program : Program) (offset : Nat) :
    (Bindings.ofProgram program).scopeAt offset < (Bindings.ofProgram program).scopes.length := by
  have well := wellNested_ofProgram program
  unfold Bindings.scopeAt
  split
  · rename_i r found
    exact well.references r (List.mem_of_find?_eq_some found)
  · cases found : (Bindings.ofProgram program).words.find? fun w => w.1 == offset with
    | none => exact Nat.lt_of_le_of_lt (Nat.zero_le _) well.current_lt
    | some w => exact well.words w (List.mem_of_find?_eq_some found)

/-- No scope is around the top scope. -/
theorem chain_root (program : Program) {tree : ScopeTree}
    (same : tree.scopes = (Bindings.ofProgram program).scopes) :
    tree.chain ScopeTree.root = [ScopeTree.root] := by
  have well := wellNested_ofProgram program
  have some : ScopeTree.root < (Bindings.ofProgram program).scopes.length :=
    Nat.lt_of_le_of_lt (Nat.zero_le _) well.current_lt
  have there := List.getElem?_eq_getElem some
  obtain ⟨inner, chain, outside⟩ := well.entries _ _ there
  unfold ScopeTree.chain
  rw [same, there]
  show ScopeTree.root :: _ = _
  rw [chain]
  -- The chain begins with the top scope, so nothing can come before its end.
  cases inner with
  | nil => rfl
  | cons first others =>
    obtain ⟨rfl, -⟩ := List.cons.inj chain
    exact absurd List.mem_cons_self outside

/-- **The scopes from any position outwards end at the top scope.** -/
theorem endsAtRoot_chain (program : Program) (offset : Nat) {tree : ScopeTree}
    (same : tree.scopes = (Bindings.ofProgram program).scopes) :
    EndsAtRoot (tree.chain ((Bindings.ofProgram program).scopeAt offset)) := by
  have there := List.getElem?_eq_getElem (scopeAt_lt program offset)
  unfold ScopeTree.chain
  rw [same, there]
  exact (wellNested_ofProgram program).entries _ _ there

end ModuleInterop.Scope
