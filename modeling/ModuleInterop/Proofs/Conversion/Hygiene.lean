import ModuleInterop.Proofs.Conversion.Elimination
import ModuleInterop.Proofs.Conversion.Provenance
import ModuleInterop.Proofs.Scope.Nesting

/-!
# What inserted names refer to

A conversion puts names of imports in place of text at any depth of a module.  Each of these names is
imported, and the top scope of the source does not declare it, or does so no longer; so it refers to
the import unless a scope in between declares it (`inserted_reference_resolves`).  The scopes in
between are those of the source and the function around a wrapped module.

A name with a running number is chosen where its module is first required, and there it refers to
the import (`first_call_resolves`).  Nothing is checked where the name is inserted again, nor where
the name of the helpers is inserted: there a parameter may capture it (`parameter_captures`).
-/

set_option autoImplicit false

namespace ModuleInterop.Conversion

open ModuleInterop.Syntax ModuleInterop.Scope ModuleInterop.Usage ModuleInterop.Patch
  ModuleInterop.Virtual

/-! ## The scopes of a converted module -/

/-- The scopes of the source. -/
def sourceTree (program : Program) : ScopeTree := .ofBindings (Bindings.ofProgram program)

/-- A scope of a converted module. -/
inductive OutputScope where
  /-- A scope of the source inside its top scope. -/
  | inner (scope : Nat)
  /-- The function around a wrapped module. -/
  | wrapper
  | top
  deriving DecidableEq, Repr

section Scopes

variable (program : Program) (source : List Char) (options : Options)

/-- The names of the variables that go because an import takes their place. -/
def elidedNames : List String :=
  (usesOf (Bindings.ofProgram program) options.ignored program).filterMap fun
    | .requiredVariable span name _ =>
      if span ∈ (findingsOf program source options).elided then some name else none
    | _ => none

/-- Whether the top scope of the source declares a name that does not go. -/
def remains (name : String) : Bool :=
  (sourceTree program).declares ScopeTree.root name &&
    !(elidedNames program source options).contains name

/-- The names that the imports of a converted module bind. -/
def importedNames : List String :=
  let findings := findingsOf program source options
  (if findings.needsHelpers then [(frameOf program options).helpersName] else []) ++
    (findings.required.filter RequiredModule.bindsValue).map RequiredModule.name

/-- Whether a scope of a converted module declares a name, as far as the source and the imports are
concerned.  What the source declares at its top is in the function around a wrapped module. -/
def OutputScope.declares : OutputScope → String → Bool
  | .inner scope, name => (sourceTree program).declares scope name
  | .wrapper, name =>
    (wrapperParameters (findingsOf program source options).usesExports).contains name ||
      remains program source options name
  | .top, name =>
    (importedNames program source options).contains name ||
      (!(findingsOf program source options).wrapped && remains program source options name)

/-- The scopes of a converted module from a scope of the source outwards. -/
def outputScopes (scope : Nat) : List OutputScope :=
  (((sourceTree program).chain scope).filter (· ≠ ScopeTree.root)).map .inner ++
    (if (findingsOf program source options).wrapped then [.wrapper] else []) ++ [.top]

/-- The scope whose declaration of a name is the one that the name refers to in a scope. -/
def resolve? (scope : Nat) (name : String) : Option OutputScope :=
  (outputScopes program source options scope).find? fun s => s.declares program source options name

/-- A name is captured on the way from a scope of the source to the top: a scope in between declares
it, or the function around the module has a parameter of that name. -/
def Captured (scope : Nat) (name : String) : Prop :=
  (∃ i ∈ (sourceTree program).chain scope, i ≠ ScopeTree.root ∧
    (sourceTree program).declares i name = true) ∨
  (findingsOf program source options).wrapped = true ∧
    name ∈ wrapperParameters (findingsOf program source options).usesExports

/-- The edits that put the name of an import into a scope of the source. -/
inductive Inserted : Edit → Nat → String → Prop
  /-- A helper in place of a free name. -/
  | helper {name : FreeName} {span : Span} {shorthand : Bool} {helper : String} :
      Use.name name span shorthand ∈
        usesOf (Bindings.ofProgram program) options.ignored program →
      helperOf? options name = some helper → (name = .global → options.ignoreGlobal = false) →
      Inserted
        (replacement span (renamed name shorthand ((frameOf program options).helper helper)))
        ((Bindings.ofProgram program).scopeAt span.start) (frameOf program options).helpersName
  /-- A helper in place of the word `this`. -/
  | outerThis {span : Span} :
      Use.outerThis span ∈ usesOf (Bindings.ofProgram program) options.ignored program →
      options.ignoreGlobal = false →
      Inserted (replacement span ((frameOf program options).helper globalHelper))
        ((Bindings.ofProgram program).scopeAt span.start) (frameOf program options).helpersName
  /-- A required module in place of a call. -/
  | call {call : RequireCall} {entry : RequiredModule} :
      Use.requiring call none ∈ usesOf (Bindings.ofProgram program) options.ignored program →
      (findingsOf program source options).find? call.target = some entry →
      Inserted (replacement call.span entry.name) call.scope entry.name
  /-- A required module in place of the call that a variable has its value from. -/
  | variable {span : Span} {name : String} {call : RequireCall} {entry : RequiredModule} :
      Use.requiredVariable span name call ∈
        usesOf (Bindings.ofProgram program) options.ignored program →
      (findingsOf program source options).find? call.target = some entry → entry.name ≠ name →
      Inserted (replacement call.span entry.name) call.scope entry.name

end Scopes

/-- A converted module has an import that binds a name. -/
inductive ImportedAs (program : Program) (source : List Char) (options : Options)
    (out : Converted) : String → Prop
  | helpers : (findingsOf program source options).needsHelpers = true →
      (helpersImport (frameOf program options).helpersName).toList <:+: out.code.toList →
      ImportedAs program source options out (frameOf program options).helpersName
  | value {target : String} {entry : RequiredModule} :
      Imported program source options out target entry →
      ImportedAs program source options out entry.name

variable {program : Program} {source : List Char} {id : String} {options : Options}
  {out : Converted} {edited : Output}

/-- A name that is imported is among the names of imports. -/
theorem ImportedAs.mem_importedNames {name : String}
    (h : ImportedAs program source options out name) :
    name ∈ importedNames program source options := by
  cases h with
  | helpers needed =>
    refine List.mem_append_left _ ?_
    rw [if_pos needed]
    exact List.mem_singleton.mpr rfl
  | value imported =>
    refine List.mem_append_right _ (List.mem_map.mpr ⟨_, List.mem_filter.mpr ⟨imported.mem, ?_⟩, rfl⟩)
    exact imported.bindsValue

/-- The last element is the first one that passes a test if and only if no other one passes it. -/
theorem find?_concat_eq_last {α : Type} {p : α → Bool} {others : List α} {last : α}
    (passes : p last = true) (distinct : last ∉ others) :
    (others ++ [last]).find? p = some last ↔ ∀ x ∈ others, p x = false := by
  rw [List.find?_append, List.find?_cons_of_pos passes]
  cases first : others.find? p with
  | none =>
    rw [List.find?_eq_none] at first
    simpa using first
  | some x =>
    have mem := List.mem_of_find?_eq_some first
    refine ⟨fun same => ?_, fun none => ?_⟩
    · obtain rfl := Option.some.inj same
      exact absurd mem distinct
    · have := List.find?_some first
      rw [none x mem] at this
      contradiction

/-- **An imported name that nothing of the source declares at the top refers to the import** if and
only if it is not captured on the way. -/
theorem resolve?_eq_top {scope : Nat} {name : String}
    (imported : name ∈ importedNames program source options)
    (gone : remains program source options name = false) :
    resolve? program source options scope name = some .top ↔
      ¬ Captured program source options scope name := by
  have top : OutputScope.top.declares program source options name = true := by
    rw [OutputScope.declares, Bool.or_eq_true]
    exact .inl (List.contains_iff_mem.mpr imported)
  have distinct : OutputScope.top ∉
      (((sourceTree program).chain scope).filter (· ≠ ScopeTree.root)).map .inner ++
        (if (findingsOf program source options).wrapped then [.wrapper] else []) := by
    rw [List.mem_append, not_or]
    refine ⟨fun mem => ?_, fun mem => ?_⟩
    · obtain ⟨i, -, same⟩ := List.mem_map.mp mem
      cases same
    · split at mem
      · cases List.mem_singleton.mp mem
      · contradiction
  have last := find?_concat_eq_last
    (p := fun s : OutputScope => s.declares program source options name) top distinct
  rw [resolve?, outputScopes, last, List.forall_mem_append, Captured, not_or]
  refine and_congr ⟨?_, ?_⟩ ?_
  · rintro all ⟨i, around, inside, declared⟩
    have mem : i ∈ ((sourceTree program).chain scope).filter (· ≠ ScopeTree.root) :=
      List.mem_filter.mpr ⟨around, decide_eq_true inside⟩
    have other := all (.inner i) (List.mem_map_of_mem mem)
    rw [OutputScope.declares, declared] at other
    contradiction
  · rintro none x mem
    obtain ⟨i, kept, rfl⟩ := List.mem_map.mp mem
    obtain ⟨around, inside⟩ := List.mem_filter.mp kept
    rw [OutputScope.declares, Bool.eq_false_iff]
    exact fun declared => none ⟨i, around, of_decide_eq_true inside, declared⟩
  · cases (findingsOf program source options).wrapped <;> simp [OutputScope.declares, gone]

/-- At the top of the source only a parameter of the function around a wrapped module can capture a
name. -/
theorem captured_root_iff {name : String} :
    Captured program source options ScopeTree.root name ↔
      (findingsOf program source options).wrapped = true ∧
        name ∈ wrapperParameters (findingsOf program source options).usesExports := by
  refine ⟨?_, .inr⟩
  rintro (⟨i, around, inside, -⟩ | captured)
  · rw [sourceTree, chain_root program rfl, List.mem_singleton] at around
    exact absurd around inside
  · exact captured

/-! ## Chosen names are fresh -/

/-- The top scope is around every position of the source. -/
theorem root_mem_chain (program : Program) (offset : Nat) :
    ScopeTree.root ∈ (sourceTree program).chain ((Bindings.ofProgram program).scopeAt offset) := by
  have same : (sourceTree program).scopes = (Bindings.ofProgram program).scopes := rfl
  obtain ⟨inner, chain, -⟩ := endsAtRoot_chain program offset same
  rw [chain]
  exact List.mem_append_right _ (List.mem_singleton.mpr rfl)

/-- A name that is not visible somewhere is declared by no scope of the source around it. -/
theorem declares_eq_false_of_not_sees {tree : ScopeTree} {scope i : Nat} {name : String}
    (same : tree.scopes = (sourceTree program).scopes) (unseen : tree.sees scope name = false)
    (around : i ∈ (sourceTree program).chain scope) :
    (sourceTree program).declares i name = false := by
  rw [← ScopeTree.chain_congr same] at around
  have here := List.any_eq_false.mp unseen i around
  cases declared : (sourceTree program).declares i name with
  | false => rfl
  | true =>
    refine absurd ?_ here
    unfold ScopeTree.declares at declared ⊢
    rw [Bool.or_eq_true] at declared ⊢
    rw [same]
    exact .inl (declared.resolve_right nofun)

/-- The name with a free number is not visible from the scope it is chosen for, and not free in the
module. -/
theorem freeNumber_free (findings : Findings) (frame : Frame) (scope : Nat) :
    findings.scopes.sees scope (importName (findings.freeNumber frame scope)) = false ∧
      frame.freeNames.contains (importName (findings.freeNumber frame scope)) = false := by
  have known : ∀ n, (findings.scopes.sees scope (importName n) ||
      frame.freeNames.contains (importName n)) = true →
      importName n ∈ findings.scopes.allNames ++ frame.freeNames := by
    intro n taken
    rw [Bool.or_eq_true] at taken
    rw [List.mem_append]
    exact taken.imp ScopeTree.mem_allNames_of_sees List.contains_iff_mem.mp
  have short : (findings.scopes.allNames ++ frame.freeNames).length ≤
      findings.scopes.allNames.length + frame.freeNames.length :=
    Nat.le_of_eq List.length_append
  have free := firstFree_not_taken (n := findings.counter) (append_repr_injective "require$$")
    known short
  exact Bool.or_eq_false_iff.mp free

/-- A name with a running number is none of some names if no such name begins as it does. -/
theorem importName_not_mem {names : List String}
    (other : ∀ name ∈ names, ¬ "require$$".toList <+: name.toList) (n : Nat) :
    importName n ∉ names := by
  intro mem
  apply other _ mem
  unfold importName
  rw [String.toList_append]
  exact List.prefix_append _ _

/-- A name that may be claimed is not declared at the top of the source. -/
theorem declares_eq_false_of_not_taken {globals : List String} {name : String}
    (free : isTaken (sourceTree program) ScopeTree.root globals name = false) :
    (sourceTree program).declares ScopeTree.root name = false := by
  unfold isTaken at free
  rw [Bool.or_eq_false_iff, Bool.or_eq_false_iff] at free
  exact declares_eq_false_of_not_sees rfl free.1.1 (ScopeTree.mem_chain_self _ _)

/-- The name of the helpers is not declared at the top of the source. -/
theorem remains_helpersName :
    remains program source options (frameOf program options).helpersName = false := by
  have free := freshName_not_taken (sourceTree program) ScopeTree.root
    (Bindings.ofProgram program).freeNames "commonjsHelpers"
  unfold remains
  rw [Bool.and_eq_false_iff]
  exact .inl (declares_eq_false_of_not_taken free)

/-- The name of a required module is not declared at the top of the source, or the variable that is
declared there goes. -/
theorem remains_required {entry : RequiredModule}
    (mem : entry ∈ (findingsOf program source options).required) :
    remains program source options entry.name = false := by
  unfold remains
  rw [Bool.and_eq_false_iff]
  rcases Findings.foldl_names mem with ⟨earlier, among, -⟩ | ⟨before, grown, use, among, chosen⟩
  · contradiction
  · generalize entry.name = name at chosen
    cases chosen with
    | @number call statement =>
      -- The number was free for a position, and the top scope is around every position.
      obtain ⟨offset, scope⟩ := scope_of_mem_usesOf among rfl
      have unseen := (freeNumber_free before (frameOf program options) call.scope).1
      have same : before.scopes.scopes = (sourceTree program).scopes := grown.scopes
      refine .inl (declares_eq_false_of_not_sees same unseen ?_)
      rw [scope]
      exact root_mem_chain program offset
    | «variable» gone =>
      refine .inr ?_
      rw [Bool.not_eq_false', List.contains_iff_mem]
      exact List.mem_filterMap.mpr ⟨_, among, if_pos gone⟩

/-! ## Inserted names -/

/-- Edits that put no name of an import into the text: they take text out, or leave the answer to a
question for a type, or the value of the free name `define`. -/
def Neutral (edit : Edit) : Prop :=
  Removes edit ∨ edit.content = "'object'".toList ∨
    ∃ shorthand, edit.content = (renamed .define shorthand "undefined").toList

/-- What a use calls for is an inserted name of an import, or no name of an import at all. -/
theorem inserted_of_calls {use : Use} {edit : Edit}
    (among : use ∈ usesOf (Bindings.ofProgram program) options.ignored program)
    (called : (findingsOf program source options).Calls (frameOf program options) use edit) :
    Neutral edit ∨ ∃ scope name, Inserted program source options edit scope name := by
  cases called with
  | require => exact .inr ⟨_, _, .helper among rfl nofun⟩
  | global heeded => exact .inr ⟨_, _, .helper among rfl fun _ => heeded⟩
  | define => exact .inl (.inr (.inr ⟨_, rfl⟩))
  | outerThis heeded => exact .inr ⟨_, _, .outerThis among heeded⟩
  | question => exact .inl (.inr (.inl rfl))
  | call found => exact .inr ⟨_, _, .call among found⟩
  | statement removes => exact .inl (.inl removes)
  | «variable» found other => exact .inr ⟨_, _, .variable among found other⟩
  | declared removes => exact .inl (.inl removes)

/-- Every edit that the uses of a module call for inserts the name of an import, or none. -/
theorem neutral_or_inserted {edit : Edit}
    (mem : edit ∈ (findingsOf program source options).edits) :
    Neutral edit ∨ ∃ scope name, Inserted program source options edit scope name := by
  rcases Findings.foldl_calls mem with earlier | ⟨use, among, called⟩
  · contradiction
  · exact inserted_of_calls among called

/-- Where a name of an import is inserted, it is edited into the module, and it is imported. -/
theorem Emitted.inserted (h : Emitted program source id options out edited) {edit : Edit}
    {scope : Nat} {name : String} (inserted : Inserted program source options edit scope name) :
    edit ∈ (layout program source id options).body.edits ∧
      ImportedAs program source options out name := by
  have helpers (needed : (findingsOf program source options).needsHelpers = true) :
      ImportedAs program source options out (frameOf program options).helpersName :=
    .helpers needed (h.helpersImport_infix needed)
  cases inserted with
  | @helper name span shorthand helper among stands heeded =>
    have answered := findingsOf_answers source among
    cases name with
    | require =>
      obtain rfl := Option.some.inj stands
      exact ⟨edits_subset_layout answered.2,
        helpers (by simp [Findings.needsHelpers, answered.1])⟩
    | global =>
      obtain rfl := Option.some.inj stands
      obtain ⟨used, edit⟩ := answered (heeded rfl)
      exact ⟨edits_subset_layout edit, helpers (by simp [Findings.needsHelpers, used])⟩
    | _ => contradiction
  | outerThis among heeded =>
    obtain ⟨used, edit⟩ := findingsOf_answers source among heeded
    exact ⟨edits_subset_layout edit, helpers (by simp [Findings.needsHelpers, used])⟩
  | call among found =>
    obtain ⟨entry, found', binds, edit⟩ := findingsOf_answers source among
    obtain rfl := Option.some.inj (found.symm.trans found')
    exact ⟨edits_subset_layout edit, .value (h.imported found binds)⟩
  | «variable» among found other =>
    obtain ⟨entry, found', binds, placed⟩ := findingsOf_answers source among
    obtain rfl := Option.some.inj (found.symm.trans found')
    rcases placed with ⟨named, -⟩ | edit
    · exact absurd named other
    · exact ⟨edits_subset_layout edit, .value (h.imported found binds)⟩

/-- The top scope of the source does not declare an inserted name, or does so no longer. -/
theorem remains_inserted {edit : Edit} {scope : Nat} {name : String}
    (inserted : Inserted program source options edit scope name) :
    remains program source options name = false := by
  cases inserted with
  | helper => exact remains_helpersName
  | outerThis => exact remains_helpersName
  | call among found => exact remains_required (List.mem_of_find?_eq_some found)
  | «variable» among found => exact remains_required (List.mem_of_find?_eq_some found)

/-- **A name of an import that a conversion inserts refers to the import** unless it is captured on
the way to the top: by a scope of the source in between, or by a parameter of the function around a
wrapped module.  No edit that the uses of a module call for inserts such a name in another way. -/
theorem inserted_reference_resolves (h : convert program source id options = .ok (some out)) :
    (∀ edit ∈ (findingsOf program source options).edits,
      Neutral edit ∨ ∃ scope name, Inserted program source options edit scope name) ∧
    ∀ edit scope name, Inserted program source options edit scope name →
      edit ∈ (layout program source id options).body.edits ∧
      ImportedAs program source options out name ∧
      remains program source options name = false ∧
      (resolve? program source options scope name = some .top ↔
        ¬ Captured program source options scope name) := by
  obtain ⟨edited, emitted⟩ := exists_emitted h
  refine ⟨fun edit mem => neutral_or_inserted mem, fun edit scope name inserted => ?_⟩
  obtain ⟨recorded, imported⟩ := emitted.inserted inserted
  have gone := remains_inserted inserted
  exact ⟨recorded, imported, gone, resolve?_eq_top imported.mem_importedNames gone⟩

/-- A name with a running number is no parameter of the function around a wrapped module. -/
theorem importName_not_mem_wrapperParameters (n : Nat) (usesExports : Bool) :
    importName n ∉ wrapperParameters usesExports := by
  apply importName_not_mem
  cases usesExports <;> decide

/-- **The name with a running number refers to its import where the module is first required.** -/
theorem first_call_resolves {earlier later : List Use} {call : RequireCall}
    (uses : usesOf (Bindings.ofProgram program) options.ignored program =
      earlier ++ .requiring call none :: later)
    (first : (earlier.foldl (Findings.step (frameOf program options))
      (begin (Bindings.ofProgram program) options (hasCompiledMark source)).2).find? call.target =
        none) :
    ∃ entry, (findingsOf program source options).find? call.target = some entry ∧
      resolve? program source options call.scope entry.name = some .top := by
  have among : Use.requiring call none ∈
      usesOf (Bindings.ofProgram program) options.ignored program := by
    rw [uses]
    exact List.mem_append_right _ List.mem_cons_self
  obtain ⟨entry, found, binds, -⟩ := findingsOf_answers source among
  have mem := List.mem_of_find?_eq_some found
  have imported : entry.name ∈ importedNames program source options :=
    List.mem_append_right _ (List.mem_map_of_mem (List.mem_filter.mpr ⟨mem, binds⟩))
  obtain ⟨chosen, found', name⟩ := Findings.name_of_first first later
  rw [← List.foldl_cons, ← List.foldl_append, ← uses, ← findingsOf_eq, found] at found'
  obtain rfl := Option.some.inj found'
  refine ⟨entry, found, (resolve?_eq_top imported (remains_required mem)).mpr ?_⟩
  rintro (⟨i, around, -, declared⟩ | ⟨-, parameter⟩)
  · have grown := Findings.foldl_grows (begin (Bindings.ofProgram program) options
      (hasCompiledMark source)).2 (frameOf program options) earlier
    have free := (freeNumber_free (earlier.foldl (Findings.step (frameOf program options))
      (begin (Bindings.ofProgram program) options (hasCompiledMark source)).2)
      (frameOf program options) call.scope).1
    have unseen := declares_eq_false_of_not_sees grown.scopes free around
    rw [← name, declared] at unseen
    contradiction
  · rw [name] at parameter
    exact importName_not_mem_wrapperParameters _ _ parameter

/-! ## An argument, and a parameter with the name of the helpers -/

set_option maxRecDepth 4000 in
/-- The call in `argumentModule` refers to the import. -/
theorem argument_resolves :
    parseModule argumentSource = .ok argumentModule ∧
      ∃ out, convert argumentModule argumentSource "m" .plain = .ok (some out) ∧
        ImportedAs argumentModule argumentSource .plain out "require$$0" ∧
        resolve? argumentModule argumentSource .plain 0 "require$$0" = some .top := by
  refine ⟨rfl, ?_⟩
  obtain ⟨out, converted⟩ := exists_of_isSome
    (show (convert argumentModule argumentSource "m" .plain).toOption.join.isSome = true by
      decide +kernel)
  have among : Use.requiring ⟨⟨2, 14⟩, "a", 0⟩ none ∈
      usesOf (Bindings.ofProgram argumentModule) [] argumentModule := by
    decide +kernel
  have found : (findingsOf argumentModule argumentSource .plain).find? "a" =
      some ⟨"a", "require$$0", true⟩ := by
    decide +kernel
  obtain ⟨-, imported, -, resolves⟩ :=
    (inserted_reference_resolves converted).2 _ _ _ (.call among found)
  refine ⟨out, converted, imported, resolves.mpr ?_⟩
  intro captured
  have wrapped := (captured_root_iff.mp captured).1
  have other : (findingsOf argumentModule argumentSource .plain).wrapped = false := by
    decide +kernel
  rw [other] at wrapped
  contradiction

/-- A call of `require` that is left to a helper, in a function with a parameter of the name that
the helpers have. -/
def parameterSource : List Char := "function f(commonjsHelpers) \x7b return require(x); \x7d".toList

/-- The tree of `parameterSource`. -/
def parameterModule : Program :=
  ⟨[.declaration (.function ⟨0, 50⟩ .declaration (some ⟨⟨9, 10⟩, "f"⟩)
    [.binding ⟨⟨11, 26⟩, "commonjsHelpers"⟩]
    [.returning ⟨30, 48⟩
      (some (.call ⟨37, 47⟩ (.name ⟨37, 44⟩ "require") [.name ⟨45, 46⟩ "x"]))])]⟩

set_option maxRecDepth 4000 in
/-- The name of the helpers in the function refers to the parameter. -/
theorem parameter_captures :
    parseModule parameterSource = .ok parameterModule ∧
      (convert parameterModule parameterSource "m" .plain).toOption.join.isSome = true ∧
      Inserted parameterModule parameterSource .plain
        (replacement ⟨37, 44⟩ "commonjsHelpers.commonjsRequire") 1 "commonjsHelpers" ∧
      resolve? parameterModule parameterSource .plain 1 "commonjsHelpers" = some (.inner 1) := by
  refine ⟨rfl, by decide +kernel, ?_, by decide +kernel⟩
  have among : Use.name .require ⟨37, 44⟩ false ∈
      usesOf (Bindings.ofProgram parameterModule) [] parameterModule := by
    decide +kernel
  have inserted : Inserted parameterModule parameterSource .plain _ _ _ :=
    .helper among rfl nofun
  exact inserted

end ModuleInterop.Conversion
