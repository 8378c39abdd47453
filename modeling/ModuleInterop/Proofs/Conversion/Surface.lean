import ModuleInterop.Proofs.Conversion.Apart
import ModuleInterop.Proofs.Conversion.Exported

/-!
# Export surfaces with and without a wrapper

The mark of compiled modules has a module wrapped and changes nothing else that its uses call for
(`findingsOf_of_mark`).  A wrapped module exports no variables of its own, only properties of its
value, and among these no names that a generated binding cannot take.  So wrapping a module loses
the names of that kind that its statements assign, and no others (`wrapping_loses_unavailable`).
-/

set_option autoImplicit false

namespace ModuleInterop.Conversion

open ModuleInterop.Syntax ModuleInterop.Scope ModuleInterop.Usage ModuleInterop.Patch
  ModuleInterop.Virtual

/-! ## Findings of a module that is wrapped in any case -/

namespace Findings

/-- Findings with the module wrapped. -/
def inWrapper (findings : Findings) : Findings := { findings with wrapped := true }

variable (frame : Frame) (findings : Findings)

/-- Registering a target does not depend on whether the module is wrapped. -/
theorem register_inWrapper (call : RequireCall) (preferred : Option String) :
    findings.inWrapper.register frame call preferred =
      ((findings.register frame call preferred).1,
        (findings.register frame call preferred).2.inWrapper) := by
  unfold register
  rw [show findings.inWrapper.find? call.target = findings.find? call.target from rfl]
  split
  · rfl
  · split <;> rfl

/-- Taking a statement out does not depend on whether the module is wrapped. -/
theorem removeStatement_inWrapper (span : Span) (home : Home) :
    findings.inWrapper.removeStatement span home =
      (findings.removeStatement span home).inWrapper := by
  unfold removeStatement
  split <;> rfl

/-- Taking variables out does not depend on whether the module is wrapped. -/
theorem elide_inWrapper (span : Span) (home : Home) (declarators : List Span) :
    findings.inWrapper.elide span home declarators =
      (findings.elide span home declarators).inWrapper := by
  have all (ranges : List (Nat × Nat)) : ranges.foldl (fun findings range =>
      findings.delete range.1 range.2) findings.inWrapper = (ranges.foldl (fun findings range =>
        findings.delete range.1 range.2) findings).inWrapper := by
    induction ranges generalizing findings with
    | nil => rfl
    | cons range ranges ih => exact ih (findings.delete range.1 range.2)
  unfold elide
  dsimp only
  rw [show findings.inWrapper.elided = findings.elided from rfl]
  split
  · rfl
  · split
    · exact removeStatement_inWrapper findings span home
    · exact all _

/-- **One step** does not depend on whether the module is wrapped. -/
theorem step_inWrapper (use : Use) :
    findings.inWrapper.step frame use = (findings.step frame use).inWrapper := by
  cases use with
  | name name span shorthand =>
    cases name with
    | value root => cases root <;> rfl
    | global =>
      simp only [step]
      split <;> rfl
    | _ => rfl
  | outerThis span =>
    simp only [step]
    split <;> rfl
  | typeofValue span root => cases root <;> rfl
  | outerReturn => rfl
  | exporting path direct names =>
    obtain ⟨root, name⟩ := path
    cases root <;> rfl
  | requiring call statement =>
    cases statement with
    | none =>
      simp only [step, register_inWrapper]
      rfl
    | some statement =>
      simp only [step, register_inWrapper]
      exact removeStatement_inWrapper _ _ _
  | requiredVariable span name call =>
    simp only [step, register_inWrapper]
    split <;> rfl
  | declared span home declarators => exact elide_inWrapper findings span home declarators

/-- **A run** does not depend on whether the module is wrapped. -/
theorem foldl_inWrapper (uses : List Use) :
    uses.foldl (step frame) findings.inWrapper = (uses.foldl (step frame) findings).inWrapper := by
  induction uses generalizing findings with
  | nil => rfl
  | cons use uses ih => rw [List.foldl_cons, step_inWrapper, ih, List.foldl_cons]

end Findings

variable {program : Program} {source marked : List Char} {id : String} {options : Options}
  {out : Converted}

/-- **The mark of compiled modules has a module wrapped and changes nothing else.** -/
theorem findingsOf_of_mark (program : Program) (options : Options) (source : List Char)
    (mark : hasCompiledMark marked = true) :
    findingsOf program marked options = (findingsOf program source options).inWrapper := by
  rw [findingsOf_eq, findingsOf_eq, ← Findings.foldl_inWrapper]
  congr 1
  unfold begin
  rw [mark]
  rfl

/-! ## The two surfaces -/

/-- A statement that exports is a use. -/
theorem exportingUse_mem_usesOf {ignored : List String} {span inner : Span} {plain : Bool}
    {target : Pattern} {value : Expr} {path : ExportPath}
    (mem : .expression span (.assign inner plain target value) ∈ program.body)
    (exporting : exportPath? (Bindings.ofProgram program) target = some path) :
    exportingUse (.statement span .body) plain path value ∈
      usesOf (Bindings.ofProgram program) ignored program := by
  rw [usesOf, usesOfStmts_eq_flatMap]
  refine List.mem_flatMap.mpr ⟨_, mem, ?_⟩
  rw [usesOfStmt, usesOfExpr, exporting]
  exact List.mem_cons_self

/-- An assignment to an export is a use that exports its name. -/
theorem mem_exported_of_assigned {name : String}
    (assigned : name ∈ assignedNames (Bindings.ofProgram program) program.body) :
    name ∈ (findingsOf program source options).exported := by
  obtain ⟨s, mem, named⟩ := List.mem_filterMap.mp assigned
  rw [exported_eq, mem_foldl_appendNew_iff]
  refine .inr (List.mem_flatMap.mpr ?_)
  unfold assignedName? at named
  split at named
  · obtain ⟨⟨root, name'⟩, exporting, rfl⟩ := Option.bind_eq_some_iff.mp named
    exact ⟨_, exportingUse_mem_usesOf mem exporting, List.mem_singleton.mpr rfl⟩
  · contradiction

/-- A name that a module exports through a variable and not as a property of its value: a statement
assigns it, no generated binding can take it, and the options do not ask for it. -/
structure LostInWrapper (program : Program) (options : Options) (name : String) : Prop where
  assigned : name ∈ assignedNames (Bindings.ofProgram program) program.body
  notDefault : name ≠ "default"
  unavailable : name ∈ unavailable
  unasked : ¬ (name ∈ options.namedExports ∧ isLegal name.toList = true)

/-- The names that a module exports besides its default and its whole value. -/
theorem mem_namedExports (h : convert program source id options = .ok (some out)) {name : String} :
    name ∈ out.namedExports ↔ name ≠ valueExport ∧
      (out.wrapped = false ∧ name ≠ "default" ∧
          name ∈ assignedNames (Bindings.ofProgram program) program.body ∨
        name ∈ propertyExports options.namedExports
          (findingsOf program source options).exported) := by
  obtain ⟨edited, emitted⟩ := exists_emitted h
  rw [(exports_of_convert h).1, names_layout, List.mem_filter, bne_iff_ne, and_comm,
    mem_foldl_appendNew_iff, heldNames, List.mem_append, ← emitted.wrapped]
  refine and_congr_right fun other => or_congr_left ?_
  have first : name ∉ if options.isEntry then [] else [valueExport] := by
    split
    · exact List.not_mem_nil
    · exact mt List.mem_singleton.mp other
  rw [or_iff_right first]
  cases out.wrapped with
  | true => simp
  | false =>
    rw [if_neg Bool.false_ne_true, List.mem_filter, mem_foldl_appendNew_iff, bne_iff_ne]
    simp [and_comm]

/-- **Wrapping a module loses the names that its statements assign and no generated binding can
take**, and no others.  The module may be wrapped for any text with the mark of compiled modules that
reads the same; it keeps all the names that it exports exactly if there are none of that kind. -/
theorem wrapping_loses_unavailable (converted : convert program source id options = .ok (some out))
    (notWrapped : out.wrapped = false) (parsed : parseModule marked = .ok program)
    (mark : hasCompiledMark marked = true) :
    ∃ inside, convert program marked id options = .ok (some inside) ∧ inside.wrapped = true ∧
      (∀ name, name ∈ out.namedExports ↔
        name ∈ inside.namedExports ∨ LostInWrapper program options name) ∧
      ((∀ name, name ∈ out.namedExports ↔ name ∈ inside.namedExports) ↔
        ∀ name, ¬ LostInWrapper program options name) := by
  obtain ⟨edited, emitted⟩ := exists_emitted converted
  have findings := findingsOf_of_mark program options source mark
  have called : (findingsOf program marked options).any = true := by
    rw [findings]
    exact emitted.called
  obtain ⟨inside, again, -⟩ := exists_converted (confined_layout parsed id options) called
  obtain ⟨edited', emitted'⟩ := exists_emitted again
  have wrapped : inside.wrapped = true := by
    rw [emitted'.wrapped, findings]
    rfl
  have exported : (findingsOf program marked options).exported =
      (findingsOf program source options).exported := by
    rw [findings]
    rfl
  -- A name that is assigned is exported as a property too, unless it is lost.
  have surfaces (name : String) : name ∈ out.namedExports ↔
      name ∈ inside.namedExports ∨ LostInWrapper program options name := by
    rw [mem_namedExports converted, mem_namedExports again, notWrapped, wrapped, exported]
    simp only [Bool.true_eq_false, false_and, false_or, true_and]
    constructor
    · rintro ⟨other, ⟨notDefault, assigned⟩ | property⟩
      · by_cases kept : name ∈ propertyExports options.namedExports
          (findingsOf program source options).exported
        · exact .inl ⟨other, kept⟩
        · rw [mem_propertyExports, not_or] at kept
          have reserved : name ∈ unavailable := by
            by_contra free
            exact kept.2 ⟨mem_exported_of_assigned assigned, free⟩
          exact .inr ⟨assigned, notDefault, reserved,
            fun asked => kept.1 ⟨asked.1, notDefault, asked.2⟩⟩
      · exact .inl ⟨other, property⟩
    · rintro (⟨other, property⟩ | lost)
      · exact ⟨other, .inr property⟩
      · refine ⟨?_, .inl ⟨lost.notDefault, lost.assigned⟩⟩
        rintro rfl
        exact absurd lost.unavailable (by decide)
  have gone (name : String) (lost : LostInWrapper program options name) :
      name ∉ inside.namedExports := by
    rw [mem_namedExports again, wrapped, mem_propertyExports]
    rintro ⟨-, ⟨contra, -⟩ | ⟨asked, -, legal⟩ | ⟨-, free⟩⟩
    · contradiction
    · exact lost.unasked ⟨asked, legal⟩
    · exact free lost.unavailable
  refine ⟨inside, again, wrapped, surfaces, ?_, ?_⟩
  · exact fun same name lost => gone name lost ((same name).mp ((surfaces name).mpr (.inr lost)))
  · exact fun none name => (surfaces name).trans (or_iff_left (none name))

/-! ## A name that stays, and one that is lost -/

/-- A module that exports one name. -/
def plainExportSource : List Char := "var b; exports.a = b;".toList

/-- `plainExportSource` with the mark of compiled modules in a comment after it. -/
def plainExportMarked : List Char := "var b; exports.a = b;\n// __esModule".toList

/-- The tree of both texts. -/
def plainExportModule : Program :=
  ⟨[.variables ⟨0, 6⟩ .var [.mk ⟨4, 5⟩ (.binding ⟨⟨4, 5⟩, "b"⟩) none],
    .expression ⟨7, 21⟩ (.assign ⟨7, 20⟩ true
      (.target (.member ⟨7, 16⟩ (.name ⟨7, 14⟩ "exports") "a")) (.name ⟨19, 20⟩ "b"))]⟩

set_option maxRecDepth 4000 in
/-- The module exports its name with the mark, too. -/
theorem plain_name_kept :
    parseModule plainExportSource = .ok plainExportModule ∧
      parseModule plainExportMarked = .ok plainExportModule ∧
      ∃ out inside, convert plainExportModule plainExportSource "m" .plain = .ok (some out) ∧
        convert plainExportModule plainExportMarked "m" .plain = .ok (some inside) ∧
        inside.wrapped = true ∧ ∀ name, name ∈ out.namedExports ↔ name ∈ inside.namedExports := by
  have parsed : parseModule plainExportMarked = .ok plainExportModule := rfl
  refine ⟨rfl, parsed, ?_⟩
  obtain ⟨out, converted, notWrapped⟩ := exists_of_any (show
    (convert plainExportModule plainExportSource "m" .plain).toOption.join.any
      (fun out => !out.wrapped) = true by decide +kernel)
  obtain ⟨inside, again, wrapped, -, same⟩ := wrapping_loses_unavailable converted
    ((Bool.not_eq_true' _).mp notWrapped) parsed (by decide +kernel)
  refine ⟨out, inside, converted, again, wrapped, same.mpr fun name lost => ?_⟩
  have only : assignedNames (Bindings.ofProgram plainExportModule) plainExportModule.body = ["a"] := by
    decide +kernel
  have named : name ∈ ["a"] := only ▸ lost.assigned
  obtain rfl := List.mem_singleton.mp named
  exact absurd lost.unavailable (by decide)

/-- A module that exports a reserved word. -/
def wordExportSource : List Char := "var b; exports.class = b;".toList

/-- `wordExportSource` with the mark of compiled modules in a comment after it. -/
def wordExportMarked : List Char := "var b; exports.class = b;\n// __esModule".toList

/-- The tree of both texts. -/
def wordExportModule : Program :=
  ⟨[.variables ⟨0, 6⟩ .var [.mk ⟨4, 5⟩ (.binding ⟨⟨4, 5⟩, "b"⟩) none],
    .expression ⟨7, 25⟩ (.assign ⟨7, 24⟩ true
      (.target (.member ⟨7, 20⟩ (.name ⟨7, 14⟩ "exports") "class")) (.name ⟨23, 24⟩ "b"))]⟩

set_option maxRecDepth 4000 in
/-- The module exports the word without the mark, and not with it. -/
theorem word_lost_in_wrapper :
    parseModule wordExportSource = .ok wordExportModule ∧
      parseModule wordExportMarked = .ok wordExportModule ∧
      ∃ out inside, convert wordExportModule wordExportSource "m" .plain = .ok (some out) ∧
        out.wrapped = false ∧ out.namedExports = ["class"] ∧
        convert wordExportModule wordExportMarked "m" .plain = .ok (some inside) ∧
        inside.wrapped = true ∧ inside.namedExports = [] := by
  refine ⟨rfl, rfl, ?_⟩
  obtain ⟨out, converted, test⟩ := exists_of_any (show
    (convert wordExportModule wordExportSource "m" .plain).toOption.join.any
      (fun out => out.wrapped == false && out.namedExports == ["class"]) = true by decide +kernel)
  obtain ⟨inside, again, test'⟩ := exists_of_any (show
    (convert wordExportModule wordExportMarked "m" .plain).toOption.join.any
      (fun out => out.wrapped == true && out.namedExports == []) = true by decide +kernel)
  rw [Bool.and_eq_true, beq_iff_eq, beq_iff_eq] at test test'
  exact ⟨out, inside, converted, test.1, test.2, again, test'.1, test'.2⟩

end ModuleInterop.Conversion
