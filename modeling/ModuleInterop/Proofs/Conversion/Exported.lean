import ModuleInterop.Proofs.Conversion.Value
import ModuleInterop.Proofs.Scope.Claim

/-!
# The names of exports

Which names a conversion exports, whatever the texts are that declare them.  Every way to add a name
leaves out what is there already (`appendNew`), so the exports of a layout are three lists put one
after the other in this manner: the name for the whole value, the names that statements of an
unwrapped module assign, and the properties that are taken from the value (`names_layout`).

The variables for them are claimed one after the other, first those that statements assign to and then
those for properties (`Locals.claims_foldl`, `claims_propertyVariables`).
-/

set_option autoImplicit false

namespace ModuleInterop.Conversion

open ModuleInterop.Syntax ModuleInterop.Scope ModuleInterop.Usage ModuleInterop.Patch

/-! ## Names put at the end of a list -/

/-- A name that is put at the end of a list comes to be there, and no other. -/
theorem mem_appendNew_iff {name new : String} {list : List String} :
    name ∈ appendNew list new ↔ name ∈ list ∨ name = new := by
  unfold appendNew
  split
  · rename_i known
    have known : new ∈ list := List.contains_iff_mem.mp known
    exact ⟨.inl, fun h => h.elim id fun same => same ▸ known⟩
  · simp

/-- Names that are put at the end of a list come to be there, and no others. -/
theorem mem_foldl_appendNew_iff {name : String} {names list : List String} :
    name ∈ names.foldl appendNew list ↔ name ∈ list ∨ name ∈ names := by
  induction names generalizing list with
  | nil => simp
  | cons new names ih => rw [List.foldl_cons, ih, mem_appendNew_iff, List.mem_cons, or_assoc]

/-- A list without repetitions keeps to be one. -/
theorem nodup_foldl_appendNew {names list : List String} (distinct : list.Nodup) :
    (names.foldl appendNew list).Nodup := by
  induction names generalizing list with
  | nil => exact distinct
  | cons new names ih =>
    refine ih ?_
    unfold appendNew
    split
    · exact distinct
    · rename_i unknown
      have unknown : new ∉ list := fun mem => unknown (List.contains_iff_mem.mpr mem)
      exact List.nodup_append.mpr ⟨distinct, List.nodup_singleton new, by
        rintro name mem _ last rfl
        exact unknown (List.mem_singleton.mp last ▸ mem)⟩

/-! ## Names that are assigned -/

/-- The name that a statement assigns an export to. -/
def assignedName? (bindings : Bindings) : Stmt → Option String
  | .expression _ (.assign _ _ target _) => (exportPath? bindings target).bind ExportPath.name
  | _ => none

/-- The names that statements assign exports to, in the order of the assignments. -/
def assignedNames (bindings : Bindings) (body : List Stmt) : List String :=
  body.filterMap (assignedName? bindings)

namespace Locals

variable {bindings : Bindings} {freeNames : List String} {valueName : String} {locals : Locals}

/-- A name has a variable exactly if it is among the entries. -/
theorem localName?_eq_none {name : String} :
    locals.localName? name = none ↔ name ∉ locals.entries.map Prod.fst := by
  unfold localName?
  rw [Option.map_eq_none_iff, List.find?_eq_none, List.mem_map, not_exists]
  exact forall_congr' fun entry => by rw [beq_iff_eq, not_and]

/-- A statement makes an entry for the name that it assigns, unless there is one. -/
theorem names_step (s : Stmt) :
    (locals.step bindings freeNames valueName s).entries.map Prod.fst =
      (assignedName? bindings s).toList.foldl appendNew (locals.entries.map Prod.fst) := by
  unfold step
  split
  · rename_i span inner plain target value
    rw [assignedName?]
    split
    · rename_i exporting
      rw [exporting]
      rfl
    · rename_i exporting
      rw [exporting]
      rfl
    · rename_i root name exporting
      rw [exporting]
      show _ = appendNew (locals.entries.map Prod.fst) name
      unfold appendNew
      split
      · rename_i variableName known
        have mem : name ∈ locals.entries.map Prod.fst := by
          by_contra unknown
          rw [localName?_eq_none.mpr unknown] at known
          contradiction
        rw [if_pos (List.contains_iff_mem.mpr mem)]
        rfl
      · rename_i unknown
        have unknown := localName?_eq_none.mp unknown
        rw [if_neg (mt List.contains_iff_mem.mp unknown)]
        exact List.map_append
  · rename_i other
    have none : assignedName? bindings s = none := by
      unfold assignedName?
      split
      · exact absurd rfl (other _ _ _ _ _)
      · rfl
    rw [none]
    rfl

/-- **One statement** claims the variable of a new entry, and none otherwise. -/
theorem claims_step (bindings : Bindings) (freeNames : List String) (valueName : String)
    (locals : Locals) (s : Stmt) :
    ∃ claimed, Claims freeNames locals.scopes claimed
        (locals.step bindings freeNames valueName s).scopes ∧
      (locals.step bindings freeNames valueName s).entries.map Prod.snd =
        locals.entries.map Prod.snd ++ claimed := by
  have same : ∃ claimed, Claims freeNames locals.scopes claimed locals.scopes ∧
      locals.entries.map Prod.snd = locals.entries.map Prod.snd ++ claimed :=
    ⟨[], .refl _ _, (List.append_nil _).symm⟩
  unfold step
  split
  · split
    · exact same
    · exact same
    · split
      · exact same
      · exact ⟨_, .claimName _ _ _, List.map_append⟩
  · exact same

/-- **Statements** claim the variables of the entries that they make. -/
theorem claims_foldl (bindings : Bindings) (freeNames : List String) (valueName : String)
    (locals : Locals) (body : List Stmt) :
    ∃ claimed, Claims freeNames locals.scopes claimed
        (body.foldl (step bindings freeNames valueName) locals).scopes ∧
      (body.foldl (step bindings freeNames valueName) locals).entries.map Prod.snd =
        locals.entries.map Prod.snd ++ claimed := by
  induction body generalizing locals with
  | nil => exact ⟨[], .refl _ _, (List.append_nil _).symm⟩
  | cons s body ih =>
    obtain ⟨first, claims, entries⟩ := claims_step bindings freeNames valueName locals s
    obtain ⟨others, claims', entries'⟩ := ih (locals.step bindings freeNames valueName s)
    refine ⟨first ++ others, claims.trans claims', ?_⟩
    rw [List.foldl_cons, entries', entries, List.append_assoc]

/-- **The entries are the names that are assigned**, each where it is assigned first. -/
theorem names_foldl (body : List Stmt) :
    (body.foldl (step bindings freeNames valueName) locals).entries.map Prod.fst =
      (assignedNames bindings body).foldl appendNew (locals.entries.map Prod.fst) := by
  induction body generalizing locals with
  | nil => rfl
  | cons s body ih =>
    rw [List.foldl_cons, ih, names_step, ← List.foldl_append]
    congr 1
    cases named : assignedName? bindings s <;> simp [assignedNames, named]

end Locals

/-! ## Properties of the value -/

/-- The names of properties that are exported. -/
theorem mem_propertyExports {configured assigned : List String} {name : String} :
    name ∈ propertyExports configured assigned ↔
      (name ∈ configured ∧ name ≠ "default" ∧ isLegal name.toList = true) ∨
        (name ∈ assigned ∧ name ∉ unavailable) := by
  unfold propertyExports
  simp

/-- Exports are searched for a name as their names are. -/
theorem any_name_eq_contains (exports : List Export) (name : String) :
    (exports.any fun e => e.name == name) = (exports.map Export.name).contains name := by
  rw [List.contains_eq_any_beq, List.any_map]
  congr 1
  funext e
  exact Bool.beq_comm

/-- Exporting a property adds its name, unless it is there. -/
theorem names_addProperty (freeNames : List String) (valueName : String)
    (state : ScopeTree × List Export) (name : String) :
    (addProperty freeNames valueName state name).2.map Export.name =
      appendNew (state.2.map Export.name) name := by
  unfold addProperty appendNew
  rw [any_name_eq_contains]
  split
  · rfl
  · exact List.map_append

/-- Exporting properties adds their names, as far as they are not there. -/
theorem names_foldl_addProperty (freeNames : List String) (valueName : String)
    (state : ScopeTree × List Export) (names : List String) :
    (names.foldl (addProperty freeNames valueName) state).2.map Export.name =
      names.foldl appendNew (state.2.map Export.name) := by
  induction names generalizing state with
  | nil => rfl
  | cons name names ih => rw [List.foldl_cons, ih, names_addProperty, List.foldl_cons]

/-- The properties among some names that are exported when some are exported already, with the
variables for them. -/
def propertyVariables (freeNames : List String) :
    ScopeTree → List String → List String → List (String × String)
  | _, _, [] => []
  | tree, exported, name :: names =>
    if exported.contains name then propertyVariables freeNames tree exported names
    else
      let (variableName, tree) := claimName tree ScopeTree.root freeNames name
      (name, variableName) :: propertyVariables freeNames tree (exported ++ [name]) names

/-- Properties are exported through variables that are claimed one after the other. -/
theorem claims_propertyVariables (freeNames : List String) (valueName : String)
    (state : ScopeTree × List Export) (names : List String) :
    let added := propertyVariables freeNames state.1 (state.2.map Export.name) names
    Claims freeNames state.1 (added.map Prod.snd)
        (names.foldl (addProperty freeNames valueName) state).1 ∧
      (names.foldl (addProperty freeNames valueName) state).2 =
        state.2 ++ added.map fun v => exportOfProperty valueName v.1 v.2 := by
  induction names generalizing state with
  | nil => exact ⟨.refl _ _, (List.append_nil _).symm⟩
  | cons name names ih =>
    obtain ⟨tree, exports⟩ := state
    have known : (exports.any fun e => e.name == name) =
        (exports.map Export.name).contains name := any_name_eq_contains exports name
    rw [List.foldl_cons, addProperty, propertyVariables, known]
    split
    · exact ih (tree, exports)
    · have names_eq : (exports ++ [exportOfProperty valueName name
          (claimName tree ScopeTree.root freeNames name).1]).map Export.name =
          exports.map Export.name ++ [name] := List.map_append
      obtain ⟨claims, others⟩ := ih (_, exports ++ [exportOfProperty valueName name
        (claimName tree ScopeTree.root freeNames name).1])
      rw [names_eq] at claims others
      refine ⟨(Claims.claimName freeNames tree name).trans claims, ?_⟩
      rw [others, List.append_assoc]
      rfl

/-! ## The names that uses export -/

/-- The names that a use exports. -/
def exportedBy : Use → List String
  | .exporting _ _ names => names
  | _ => []

/-- A step notes the names that its use exports. -/
theorem Findings.exported_step (frame : Frame) (findings : Findings) (use : Use) :
    (findings.step frame use).exported = (exportedBy use).foldl appendNew findings.exported := by
  cases use with
  | name name span shorthand =>
    cases name with
    | value root => cases root <;> rfl
    | global =>
      simp only [step]
      split <;> rfl
    | _ => rfl
  | outerThis span =>
    simp only [step]
    split <;> rfl
  | typeofValue span root => cases root <;> rfl
  | outerReturn => rfl
  | exporting path direct names =>
    obtain ⟨root, name⟩ := path
    cases root <;> rfl
  | requiring call statement =>
    obtain ⟨_, _, _, _, same⟩ := step_requiring_eq findings frame call statement
    rw [same]
    rfl
  | requiredVariable span name call =>
    obtain ⟨_, _, _, _, _, same⟩ := step_requiredVariable_eq findings frame span name call
    rw [same]
    rfl
  | declared span home declarators =>
    obtain ⟨edits, elided⟩ := elide_eq findings span home declarators
    simp only [step, elided]
    rfl

/-- A run notes the names that its uses export. -/
theorem Findings.exported_foldl (frame : Frame) (findings : Findings) (uses : List Use) :
    (uses.foldl (step frame) findings).exported =
      (uses.flatMap exportedBy).foldl appendNew findings.exported := by
  induction uses generalizing findings with
  | nil => rfl
  | cons use uses ih => rw [List.foldl_cons, ih, exported_step, ← List.foldl_append]; rfl

/-! ## The exports of a module -/

variable {program : Program} {source : List Char} {id : String} {options : Options}
  {out : Converted}

/-- The names that are exported in the order of their first use. -/
theorem exported_eq :
    (findingsOf program source options).exported =
      ((usesOf (Bindings.ofProgram program) options.ignored program).flatMap exportedBy).foldl
        appendNew [] :=
  Findings.exported_foldl _ _ _

/-- The names that are exported without being taken from the value of the module: that of the whole
value, and those that statements of a module that is not wrapped assign. -/
def heldNames (program : Program) (source : List Char) (options : Options) : List String :=
  (if options.isEntry then [] else [valueExport]) ++
    if (findingsOf program source options).wrapped then []
    else ((assignedNames (Bindings.ofProgram program) program.body).foldl appendNew []).filter
      (· != "default")

/-- The variables that the assignments of a module declare are claimed after the name of its value. -/
theorem claims_localsOf :
    Claims (frameOf program options).freeNames (valueOf program source id options).2
      ((localsOf program source id options).entries.map Prod.snd)
      (localsOf program source id options).scopes := by
  obtain ⟨claimed, claims, entries⟩ := Locals.claims_foldl (Bindings.ofProgram program)
    (frameOf program options).freeNames (valueOf program source id options).1
    ⟨(findingsOf program source options).edits, (valueOf program source id options).2, [], false⟩
    program.body
  have entries : (localsOf program source id options).entries.map Prod.snd = claimed := entries
  rw [entries]
  exact claims

/-- The exports that come with the body of a module that is not wrapped. -/
theorem exports_body_of_open (id : String)
    (notWrapped : (findingsOf program source options).wrapped = false) :
    (layout program source id options).body.exports =
      (if options.isEntry then [] else [exportOfValue (valueOf program source id options).1]) ++
        ((localsOf program source id options).entries.filter fun v => v.1 != "default").map
          fun v => exportOfVariable v.1 v.2 := by
  have isOpen : ¬ (findingsOf program source options).wrapped = true := by simp [notWrapped]
  show (bodyOf _ _ _ _ _ _ _).exports = _
  rw [bodyOf, if_neg isOpen]
  rfl

/-- The exports that come with the body of a wrapped module. -/
theorem exports_body_of_wrapped (id : String)
    (wrapped : (findingsOf program source options).wrapped = true) :
    (layout program source id options).body.exports =
      if options.isEntry then [] else [exportOfValue (valueOf program source id options).1] := by
  show (bodyOf _ _ _ _ _ _ _).exports = _
  rw [bodyOf, if_pos wrapped]
  rfl

/-- The names of the exports that come with the body of a module. -/
theorem names_body (id : String) :
    (layout program source id options).body.exports.map Export.name =
      heldNames program source options := by
  have body : (layout program source id options).body =
      bodyOf (frameOf program options) (Bindings.ofProgram program) program
        (findingsOf program source options) (valueOf program source id options).1
        (valueOf program source id options).2
        (if options.isEntry then [] else
          [exportOfValue (valueOf program source id options).1]) := rfl
  have first : (if options.isEntry then [] else
      [exportOfValue (valueOf program source id options).1]).map Export.name =
        if options.isEntry then [] else [valueExport] := by
    split <;> rfl
  unfold heldNames
  rw [body, bodyOf]
  split
  · rw [List.append_nil]
    exact first
  · have entries : (localsOf program source id options).entries.map Prod.fst =
        (assignedNames (Bindings.ofProgram program) program.body).foldl appendNew [] :=
      Locals.names_foldl program.body
    show (_ ++ ((localsOf program source id options).entries.filter _).map _).map Export.name = _
    rw [List.map_append, first, List.map_map, ← entries, List.filter_map]
    rfl

/-- **The names of the exports of a module.** -/
theorem names_layout :
    (layout program source id options).exports.map Export.name =
      (propertyExports options.namedExports (findingsOf program source options).exported).foldl
        appendNew (heldNames program source options) := by
  rw [← names_body id]
  exact names_foldl_addProperty _ _ ((layout program source id options).body.scopes,
    (layout program source id options).body.exports) _

/-- The default is not among these names. -/
theorem default_not_mem_names :
    "default" ∉ (layout program source id options).exports.map Export.name := by
  rw [names_layout, mem_foldl_appendNew_iff, mem_propertyExports, heldNames, List.mem_append]
  rintro ((first | held) | ⟨-, other, -⟩ | ⟨-, free⟩)
  · split at first
    · contradiction
    · exact absurd (List.mem_singleton.mp first) (by decide)
  · split at held
    · contradiction
    · exact absurd (List.mem_filter.mp held).2 (by decide)
  · exact other rfl
  · exact free (by decide)

/-- What a conversion tells of its exports. -/
theorem exports_of_convert (h : convert program source id options = .ok (some out)) :
    out.namedExports =
        ((layout program source id options).exports.map Export.name).filter (· != valueExport) ∧
      out.addsDefaultExport = !options.hasDefaultExport := by
  unfold convert at h
  dsimp only at h
  split at h
  · split at h
    · rename_i converted assembled
      obtain rfl := Option.some.inj (Except.ok.inj h)
      obtain ⟨output, -, assembled⟩ := bind_eq_ok assembled
      obtain ⟨map, -, assembled⟩ := bind_eq_ok assembled
      obtain rfl := Except.ok.inj assembled
      refine ⟨rfl, ?_⟩
      show (!(if options.hasDefaultExport then [] else _ : List String).isEmpty) = _
      cases options.hasDefaultExport <;> rfl
    · contradiction
  · split at h
    · cases Except.ok.inj h
    · contradiction

end ModuleInterop.Conversion
