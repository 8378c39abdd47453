import ModuleInterop.Conversion.Findings
import ModuleInterop.Proofs.Scope.Fresh

/-!
# Findings only grow

Taking a use never takes back what an earlier one called for: edits stay recorded, flags stay set, a
required module keeps its name, a generated name stays generated.  `Grows` says so for two findings,
every step satisfies it (`step_grows`), and so does a whole run (`foldl_grows`).  What one use calls
for is therefore found at the end of the run, whatever comes before and after it.
-/

set_option autoImplicit false

namespace ModuleInterop.Conversion

open ModuleInterop.Syntax ModuleInterop.Scope ModuleInterop.Usage ModuleInterop.Patch
  ModuleInterop.Virtual

/-- A list keeps its elements when new names are put at its end. -/
theorem mem_foldl_appendNew {name : String} {list : List String} (names : List String)
    (mem : name ∈ list) : name ∈ names.foldl appendNew list := by
  induction names generalizing list with
  | nil => exact mem
  | cons new names ih =>
    refine ih ?_
    unfold appendNew
    split
    · exact mem
    · exact List.mem_append_left _ mem

namespace Findings

/-- Later findings have all that earlier ones have. -/
structure Grows (before after : Findings) : Prop where
  edits : before.edits <+: after.edits
  usesModule : before.usesModule = true → after.usesModule = true
  usesExports : before.usesExports = true → after.usesExports = true
  usesGlobal : before.usesGlobal = true → after.usesGlobal = true
  usesRequire : before.usesRequire = true → after.usesRequire = true
  wrapped : before.wrapped = true → after.wrapped = true
  /-- A required module keeps its name, and stays used if it is. -/
  required : ∀ (target : String) (entry : RequiredModule), before.find? target = some entry →
    ∃ later, after.find? target = some later ∧ later.name = entry.name ∧
      (entry.bindsValue = true → later.bindsValue = true)
  exported : ∀ name ∈ before.exported, name ∈ after.exported
  scopes : after.scopes.scopes = before.scopes.scopes
  generated : before.scopes.generated <+: after.scopes.generated
  counter : before.counter ≤ after.counter
  elided : before.elided <+: after.elided

/-- Findings have what they have. -/
theorem Grows.refl (findings : Findings) : Grows findings findings :=
  ⟨List.prefix_rfl, id, id, id, id, id, fun _ entry h => ⟨entry, h, rfl, id⟩, fun _ h => h, rfl,
    List.prefix_rfl, Nat.le_refl _, List.prefix_rfl⟩

/-- Growth over two stretches of a run. -/
theorem Grows.trans {first middle last : Findings} (h : Grows first middle)
    (h' : Grows middle last) : Grows first last where
  edits := h.edits.trans h'.edits
  usesModule := h'.usesModule ∘ h.usesModule
  usesExports := h'.usesExports ∘ h.usesExports
  usesGlobal := h'.usesGlobal ∘ h.usesGlobal
  usesRequire := h'.usesRequire ∘ h.usesRequire
  wrapped := h'.wrapped ∘ h.wrapped
  required := by
    intro target entry found
    obtain ⟨next, found, name, binds⟩ := h.required target entry found
    obtain ⟨later, found, name', binds'⟩ := h'.required target next found
    exact ⟨later, found, name'.trans name, binds' ∘ binds⟩
  exported := fun name mem => h'.exported name (h.exported name mem)
  scopes := h'.scopes.trans h.scopes
  generated := h.generated.trans h'.generated
  counter := Nat.le_trans h.counter h'.counter
  elided := h.elided.trans h'.elided

variable (findings : Findings) (frame : Frame)

/-! ## Each way to go on -/

/-- Replacing a stretch of the text adds an edit. -/
theorem grows_replace (span : Span) (text : String) : Grows findings (findings.replace span text) :=
  { Grows.refl findings with edits := List.prefix_append _ _ }

/-- Deleting a stretch of the text adds an edit. -/
theorem grows_delete (start stop : Nat) : Grows findings (findings.delete start stop) := by
  refine { Grows.refl findings with edits := ?_ }
  unfold delete remove
  split
  · exact List.prefix_append _ _
  · exact List.prefix_rfl

/-- Taking a statement out adds an edit. -/
theorem grows_removeStatement (span : Span) (home : Home) :
    Grows findings (findings.removeStatement span home) := by
  unfold removeStatement
  split
  · exact grows_delete _ _ _
  · exact grows_replace _ _ _

/-- Taking a statement out changes the edits only. -/
theorem removeStatement_eq (span : Span) (home : Home) :
    ∃ edits, findings.removeStatement span home = { findings with edits } := by
  unfold removeStatement
  split
  · exact ⟨_, rfl⟩
  · exact ⟨_, rfl⟩

/-- That the value of the module is used is noted. -/
theorem grows_useValue (root : ModuleName) : Grows findings (findings.useValue root) := by
  cases root with
  | module => exact { Grows.refl findings with usesModule := fun _ => rfl }
  | exports => exact { Grows.refl findings with usesExports := fun _ => rfl }

/-- That the module has to be wrapped is noted. -/
theorem grows_escape (root : ModuleName) : Grows findings (findings.escape root) :=
  (grows_useValue findings root).trans { Grows.refl _ with wrapped := fun _ => rfl }

/-- A target that is required for the first time comes after those that are required already. -/
theorem find?_append_of_none {entry : RequiredModule} {target : String} {found : RequiredModule}
    (h : findings.find? target = some found) :
    ({ findings with required := findings.required ++ [entry] } : Findings).find? target =
      some found := by
  unfold find? at h ⊢
  rw [List.find?_append, h, Option.some_or]

/-- Registering a target keeps what is registered. -/
theorem grows_register (call : RequireCall) (preferred : Option String) :
    Grows findings (findings.register frame call preferred).2 := by
  unfold register
  split
  · exact Grows.refl findings
  · split
    · exact { Grows.refl findings with
        required := fun _ entry h => ⟨entry, find?_append_of_none findings h, rfl, id⟩ }
    · exact { Grows.refl findings with
        required := fun _ entry h => ⟨entry, find?_append_of_none findings h, rfl, id⟩
        generated := List.prefix_append _ _
        counter := Nat.le_succ_of_le (le_firstFree _ _) }

/-- Registering a target changes the required modules and the generated names only. -/
theorem register_eq (call : RequireCall) (preferred : Option String) :
    ∃ required scopes counter, (findings.register frame call preferred).2 =
      { findings with required, scopes, counter } := by
  unfold register
  split
  · exact ⟨_, _, _, rfl⟩
  · split <;> exact ⟨_, _, _, rfl⟩

/-- The required module with a target after its value is used. -/
theorem find?_bindValue (used target : String) :
    (findings.bindValue used).find? target =
      (findings.find? target).map fun entry =>
        if entry.target == used then { entry with bindsValue := true } else entry := by
  unfold find? bindValue
  rw [List.find?_map]
  congr 2
  funext entry
  show ((if entry.target == used then { entry with bindsValue := true } else entry :
    RequiredModule).target == target) = (entry.target == target)
  split <;> rfl

/-- Using the value of a required module keeps its name. -/
theorem grows_bindValue (used : String) : Grows findings (findings.bindValue used) := by
  refine { Grows.refl findings with required := ?_ }
  intro target entry found
  rw [find?_bindValue, found]
  refine ⟨_, rfl, ?_, ?_⟩
  · show (if entry.target == used then { entry with bindsValue := true } else entry :
      RequiredModule).name = entry.name
    split <;> rfl
  · intro binds
    show (if entry.target == used then { entry with bindsValue := true } else entry :
      RequiredModule).bindsValue = true
    split
    · rfl
    · exact binds

/-- Taking variables out of a declaration adds edits. -/
theorem grows_elide (span : Span) (home : Home) (declarators : List Span) :
    Grows findings (findings.elide span home declarators) := by
  have all (ranges : List (Nat × Nat)) : Grows findings
      (ranges.foldl (fun findings range => findings.delete range.1 range.2) findings) := by
    induction ranges generalizing findings with
    | nil => exact Grows.refl findings
    | cons range ranges ih => exact (grows_delete findings _ _).trans (ih _)
  unfold elide
  dsimp only
  split
  · exact Grows.refl findings
  · split
    · exact grows_removeStatement _ _ _
    · exact all _

/-- Taking variables out of a declaration changes the edits only. -/
theorem elide_eq (span : Span) (home : Home) (declarators : List Span) :
    ∃ edits, findings.elide span home declarators = { findings with edits } := by
  have all (ranges : List (Nat × Nat)) : ∃ edits, ranges.foldl (fun findings range =>
      findings.delete range.1 range.2) findings = { findings with edits } := by
    induction ranges generalizing findings with
    | nil => exact ⟨_, rfl⟩
    | cons range ranges ih => exact ih (findings.delete range.1 range.2)
  unfold elide
  dsimp only
  split
  · exact ⟨_, rfl⟩
  · split
    · exact removeStatement_eq _ _ _
    · exact all _

/-- A use that is a call changes the edits, the required modules and the generated names only. -/
theorem step_requiring_eq (call : RequireCall) (statement : Option (Span × Home)) :
    ∃ edits required scopes counter, findings.step frame (.requiring call statement) =
      { findings with edits, required, scopes, counter } := by
  obtain ⟨required, scopes, counter, registered⟩ := register_eq findings frame call none
  cases statement with
  | none =>
    simp only [step, registered]
    exact ⟨_, _, _, _, rfl⟩
  | some statement =>
    obtain ⟨edits, removed⟩ := removeStatement_eq { findings with required, scopes, counter }
      statement.1 statement.2
    simp only [step, registered, removed]
    exact ⟨_, _, _, _, rfl⟩

/-- A variable with the value of a call changes the variables that go besides. -/
theorem step_requiredVariable_eq (span : Span) (name : String) (call : RequireCall) :
    ∃ edits required scopes counter elided,
      findings.step frame (.requiredVariable span name call) =
        { findings with edits, required, scopes, counter, elided } := by
  obtain ⟨required, scopes, counter, registered⟩ := register_eq findings frame call (some name)
  simp only [step, registered]
  split <;> exact ⟨_, _, _, _, _, rfl⟩

/-! ## A step and a run -/

/-- **One step**: taking a use keeps what there is. -/
theorem step_grows (use : Use) : Grows findings (findings.step frame use) := by
  have noted : Grows findings { findings with usesGlobal := true } :=
    { Grows.refl findings with usesGlobal := fun _ => rfl }
  cases use with
  | name name span shorthand =>
    cases name with
    | require =>
      have asked : Grows findings { findings with usesRequire := true } :=
        { Grows.refl findings with usesRequire := fun _ => rfl }
      exact asked.trans (grows_replace _ _ _)
    | value root => exact grows_escape findings root
    | global =>
      simp only [step]
      split
      · exact Grows.refl findings
      · exact noted.trans (grows_replace _ _ _)
    | define => exact grows_replace _ _ _
  | outerThis span =>
    simp only [step]
    split
    · exact Grows.refl findings
    · exact noted.trans (grows_replace _ _ _)
  | typeofValue span root => exact (grows_replace _ _ _).trans (grows_escape _ _)
  | outerReturn => exact { Grows.refl findings with wrapped := fun _ => rfl }
  | exporting path direct names =>
    refine (grows_useValue findings path.root).trans
      { Grows.refl _ with wrapped := ?_, exported := fun _ => mem_foldl_appendNew _ }
    intro wrapped
    simp only [step, wrapped, Bool.true_or]
  | requiring call statement =>
    have registered := grows_register findings frame call none
    cases statement with
    | none => exact (registered.trans (grows_bindValue _ _)).trans (grows_replace _ _ _)
    | some statement => exact registered.trans (grows_removeStatement _ _ _)
  | requiredVariable span name call =>
    have bound := (grows_register findings frame call (some name)).trans
      (grows_bindValue _ call.target)
    simp only [step]
    split
    · exact bound.trans { Grows.refl _ with elided := List.prefix_append _ _ }
    · exact bound.trans (grows_replace _ _ _)
  | declared span home declarators => exact grows_elide _ _ _ _

/-- **A run**: taking uses keeps what there is. -/
theorem foldl_grows (uses : List Use) : Grows findings (uses.foldl (step frame) findings) := by
  induction uses generalizing findings with
  | nil => exact Grows.refl findings
  | cons use uses ih => exact (step_grows findings frame use).trans (ih _)

/-- Each use of a run is taken at some point of it: what there is before that grows from the
beginning, and what there is after it grows to the end. -/
theorem exists_step_of_mem {uses : List Use} {use : Use} (mem : use ∈ uses) :
    ∃ before, Grows findings before ∧
      Grows (before.step frame use) (uses.foldl (step frame) findings) := by
  obtain ⟨earlier, later, rfl⟩ := List.append_of_mem mem
  refine ⟨earlier.foldl (step frame) findings, foldl_grows _ _ _, ?_⟩
  rw [List.foldl_append, List.foldl_cons]
  exact foldl_grows _ _ _

end Findings

end ModuleInterop.Conversion
