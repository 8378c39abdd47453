import ModuleInterop.Proofs.Conversion.Freshness
import ModuleInterop.Proofs.Conversion.Replay
import ModuleInterop.Proofs.Conversion.Surface
import ModuleInterop.Proofs.Conversion.Survival

/-!
# Generated references are bound

Whatever a generated piece of a converted module refers to is bound by another one
(`references_bound`).  The helpers are imported exactly if one of them is referred to
(`helpers_imported_iff`); the name that stands for a call, or for a variable that goes, is the one that
is imported for it (`Rewritten`, `TakenOver`); and the variable of the module's value and those of its
exports are declared at the top (`DeclaredAtTop`).

The last part has a condition.  A declaration takes the place of the left side of a statement, and that
has to be where the statement begins.  If the left side is in parentheses, one of them is left over, and
nothing is declared (`grouped_target_unbound`).
-/

set_option autoImplicit false

namespace ModuleInterop.Conversion

open ModuleInterop.Syntax ModuleInterop.Scope ModuleInterop.Usage ModuleInterop.Patch
  ModuleInterop.Virtual ModuleInterop.Text

/-! ## Helpers -/

/-- The helper that a use calls for, and the edit that refers to it. -/
def helped? (frame : Frame) : Use → Option (String × Edit)
  | .name .require span shorthand =>
    let helper := requireHelper frame.options.allowDynamicRequire
    some (helper, replacement span (renamed .require shorthand (frame.helper helper)))
  | .name .global span shorthand =>
    if frame.options.ignoreGlobal then none
    else some (globalHelper,
      replacement span (renamed .global shorthand (frame.helper globalHelper)))
  | .outerThis span =>
    if frame.options.ignoreGlobal then none
    else some (globalHelper, replacement span (frame.helper globalHelper))
  | _ => none

namespace Findings

variable (frame : Frame) (findings : Findings)

/-- **One step** calls for helpers if and only if its use does. -/
theorem needsHelpers_step (use : Use) :
    (findings.step frame use).needsHelpers =
      (findings.needsHelpers || (use.wraps || (helped? frame use).isSome)) := by
  cases use with
  | name name span shorthand =>
    cases name with
    | require => simp [step, replaceName, replace, needsHelpers, Use.wraps, helped?]
    | value root => cases root <;> simp [step, escape, useValue, needsHelpers, Use.wraps, helped?]
    | global =>
      cases ignored : frame.options.ignoreGlobal <;>
        simp [step, replaceName, replace, needsHelpers, Use.wraps, helped?, ignored]
    | define => simp [step, replaceName, replace, needsHelpers, Use.wraps, helped?]
  | outerThis span =>
    cases ignored : frame.options.ignoreGlobal <;>
      simp [step, replace, needsHelpers, Use.wraps, helped?, ignored]
  | typeofValue span root =>
    cases root <;> simp [step, escape, useValue, replace, needsHelpers, Use.wraps, helped?]
  | outerReturn => simp [step, needsHelpers, Use.wraps, helped?]
  | exporting path direct names =>
    obtain ⟨root, name⟩ := path
    cases root <;> cases direct <;> simp [step, useValue, needsHelpers, Use.wraps, helped?]
  | requiring call statement =>
    obtain ⟨_, _, _, _, same⟩ := step_requiring_eq findings frame call statement
    simp [same, needsHelpers, Use.wraps, helped?]
  | requiredVariable span name call =>
    obtain ⟨_, _, _, _, _, same⟩ := step_requiredVariable_eq findings frame span name call
    simp [same, needsHelpers, Use.wraps, helped?]
  | declared span home declarators =>
    obtain ⟨edits, same⟩ := elide_eq findings span home declarators
    simp [step, same, needsHelpers, Use.wraps, helped?]

/-- **A run** calls for helpers if and only if one of its uses does. -/
theorem needsHelpers_foldl (uses : List Use) :
    (uses.foldl (step frame) findings).needsHelpers =
      (findings.needsHelpers || uses.any fun use => use.wraps || (helped? frame use).isSome) := by
  induction uses generalizing findings with
  | nil => exact (Bool.or_false _).symm
  | cons use uses ih =>
    rw [List.foldl_cons, ih, needsHelpers_step, List.any_cons, Bool.or_assoc]

variable {frame findings}

/-- The edit that refers to a helper is recorded. -/
theorem Answers.helped {use : Use} (answered : findings.Answers frame use) {helper : String}
    {edit : Edit} (called : helped? frame use = some (helper, edit)) :
    edit ∈ findings.edits := by
  unfold helped? at called
  split at called
  · obtain ⟨rfl, rfl⟩ := Prod.mk.inj (Option.some.inj called)
    exact answered.2
  · split at called
    · contradiction
    · rename_i heeded
      obtain ⟨rfl, rfl⟩ := Prod.mk.inj (Option.some.inj called)
      exact (answered (Bool.eq_false_iff.mpr heeded)).2
  · split at called
    · contradiction
    · rename_i heeded
      obtain ⟨rfl, rfl⟩ := Prod.mk.inj (Option.some.inj called)
      exact (answered (Bool.eq_false_iff.mpr heeded)).2
  · contradiction

end Findings

/-- A generated piece of a converted module refers to a helper: an edit that puts it in the place of a
name or of the word `this`, the beginning of the function around a wrapped module, or the default export
of a module compiled to this format. -/
inductive HelperReference (program : Program) (source : List Char) (id : String) (options : Options) :
    String → Prop
  | edit {use : Use} {helper : String} {edit : Edit} :
      use ∈ usesOf (Bindings.ofProgram program) options.ignored program →
      helped? (frameOf program options) use = some (helper, edit) →
      edit ∈ (layout program source id options).body.edits →
      HelperReference program source id options helper
  | wrapper : (findingsOf program source options).wrapped = true →
      (layout program source id options).body.before =
        wrapperStart (valueOf program source id options).1 (frameOf program options).helpersName
          (findingsOf program source options).usesExports →
      HelperReference program source id options wrapHelper
  | unwrap : hasCompiledMark source = true →
      defaultExport (valueOf program source id options).1 (frameOf program options).helpersName true ∈
        (layout program source id options).defaults →
      HelperReference program source id options unwrapHelper

variable {program : Program} {source : List Char} {id : String} {options : Options}
  {out : Converted} {edited : Output}

/-- The helpers are needed exactly if a generated piece refers to one. -/
theorem needsHelpers_iff (id : String) :
    (findingsOf program source options).needsHelpers = true ↔
      ∃ helper, HelperReference program source id options helper := by
  constructor
  · intro needed
    cases wrapped : (findingsOf program source options).wrapped with
    | true => exact ⟨_, .wrapper wrapped (layout_of_wrapped id wrapped).1⟩
    | false =>
      rw [findingsOf_wrapped, Bool.or_eq_false_iff] at wrapped
      rw [findingsOf_eq, Findings.needsHelpers_foldl, Bool.or_eq_true] at needed
      have unmarked : (begin (Bindings.ofProgram program) options
          (hasCompiledMark source)).2.needsHelpers = false := by
        rw [wrapped.1]
        rfl
      obtain ⟨use, mem, called⟩ := List.any_eq_true.mp (needed.resolve_left (by simp [unmarked]))
      rw [List.any_eq_false.mp wrapped.2 use mem |> Bool.eq_false_iff.mpr, Bool.false_or] at called
      obtain ⟨⟨helper, edit⟩, called⟩ := Option.isSome_iff_exists.mp called
      have answered := findingsOf_answers source mem
      exact ⟨helper, .edit mem called (edits_subset_layout (answered.helped called))⟩
  · rintro ⟨helper, reference⟩
    cases reference with
    | edit mem called =>
      rw [findingsOf_eq, Findings.needsHelpers_foldl, Bool.or_eq_true]
      exact .inr (List.any_eq_true.mpr ⟨_, mem, by simp [called]⟩)
    | wrapper wrapped => simp [Findings.needsHelpers, wrapped]
    | unwrap marked => simp [Findings.needsHelpers, findingsOf_wrapped, marked]

/-- **The helpers are imported** before the required modules exactly if a generated piece refers to
one. -/
theorem helpers_imported_iff (id : String) :
    importsOf program source options = helpersImport (frameOf program options).helpersName ::
        importLines (findingsOf program source options).required ↔
      ∃ helper, HelperReference program source id options helper := by
  rw [← needsHelpers_iff id, importsOf, allImports]
  cases (findingsOf program source options).needsHelpers with
  | true => exact iff_of_true rfl rfl
  | false =>
    refine iff_of_false (fun same => ?_) Bool.false_ne_true
    have := congrArg List.length same
    simp at this

/-! ## Variables -/

/-- A variable is declared at the top of a converted module: by the function around it, by the left side
of a statement that assigns an export, which is where the statement begins, by the object of its exports,
or by the export of a property. -/
inductive DeclaredAtTop (program : Program) (source : List Char) (id : String) (options : Options) :
    String → Prop
  | function : (findingsOf program source options).wrapped = true →
      (layout program source id options).body.before =
        wrapperStart (valueOf program source id options).1 (frameOf program options).helpersName
          (findingsOf program source options).usesExports →
      DeclaredAtTop program source id options (valueOf program source id options).1
  | statement {span inner : Span} {target : Pattern} {value : Expr} {path : ExportPath}
      {variableName : String} : (findingsOf program source options).wrapped = false →
      .expression span (.assign inner true target value) ∈ program.body →
      exportPath? (Bindings.ofProgram program) target = some path →
      target.span.start = span.start →
      replacement ⟨span.start, target.span.stop⟩ ("var " ++ variableName) ∈
        (layout program source id options).body.edits →
      DeclaredAtTop program source id options variableName
  | object {entries : List (String × String)} :
      (layout program source id options).body.after =
        valueObject (valueOf program source id options).1 entries →
      DeclaredAtTop program source id options (valueOf program source id options).1
  | property {name variableName : String} :
      exportOfProperty (valueOf program source id options).1 name variableName ∈
        (layout program source id options).exports →
      DeclaredAtTop program source id options variableName

/-- The variable that an export refers to: that of the value, one that stands for the export, or one with
a property of the value. -/
inductive Export.RefersTo (valueName : String) : Export → String → Prop
  | value : RefersTo valueName (exportOfValue valueName) valueName
  | variable (name variableName : String) :
      RefersTo valueName (exportOfVariable name variableName) variableName
  | property (name variableName : String) :
      RefersTo valueName (exportOfProperty valueName name variableName) variableName

/-- Each left side of a statement that exports is where the statement begins. -/
def UprightTargets (program : Program) : Prop :=
  ∀ span inner plain target value path,
    .expression span (.assign inner plain target value) ∈ program.body →
    exportPath? (Bindings.ofProgram program) target = some path → target.span.start = span.start

/-- In a module that is not wrapped, statements export by plain assignments. -/
theorem plain_of_open (notWrapped : (findingsOf program source options).wrapped = false)
    {span inner : Span} {plain : Bool} {target : Pattern} {value : Expr} {path : ExportPath}
    (mem : .expression span (.assign inner plain target value) ∈ program.body)
    (exporting : exportPath? (Bindings.ofProgram program) target = some path) : plain = true := by
  have use : exportingUse (.statement span .body) plain path value ∈
      usesOf (Bindings.ofProgram program) options.ignored program :=
    exportingUse_mem_usesOf mem exporting
  have answered := findingsOf_answers source use
  cases plain with
  | true => rfl
  | false => exact absurd (answered.2 rfl) (by simp [notWrapped])

/-- The variable of the value is declared. -/
theorem declaredAtTop_value
    (upright : (findingsOf program source options).wrapped = false → UprightTargets program) :
    DeclaredAtTop program source id options (valueOf program source id options).1 := by
  cases declaresValue program source id options with
  | wrapped wrapped before => exact .function wrapped before
  | object after => exact .object after
  | @assigned span inner plain target value root mem exporting edit =>
    cases wrapped : (findingsOf program source options).wrapped with
    | true => exact .function wrapped (layout_of_wrapped id wrapped).1
    | false =>
      obtain rfl := plain_of_open wrapped mem exporting
      have begins := upright wrapped _ _ _ _ _ _ mem exporting
      refine .statement wrapped mem exporting begins ?_
      rw [← begins]
      exact edit

/-- The variables that stand for exports are declared. -/
theorem declaredAtTop_entry (upright : UprightTargets program)
    (notWrapped : (findingsOf program source options).wrapped = false) {v : String × String}
    (mem : v ∈ (localsOf program source id options).entries) :
    DeclaredAtTop program source id options v.2 := by
  rcases Locals.declared_foldl _ _ _ _ mem with before | ⟨_, _, _, _, _, _, among, exporting, edit⟩
  · contradiction
  · obtain rfl := plain_of_open notWrapped among exporting
    refine .statement notWrapped among exporting (upright _ _ _ _ _ _ among exporting) ?_
    rw [layout_of_open notWrapped]
    exact edit

/-- The exports of a module are that of its value, those of the variables that stand for exports, if it
is not wrapped, and those of properties. -/
theorem mem_exports_cases {e : Export} (mem : e ∈ (layout program source id options).exports) :
    e = exportOfValue (valueOf program source id options).1 ∨
      (findingsOf program source options).wrapped = false ∧
        (∃ v ∈ (localsOf program source id options).entries, e = exportOfVariable v.1 v.2) ∨
      ∃ name variableName,
        e = exportOfProperty (valueOf program source id options).1 name variableName := by
  have first (mem : e ∈ if options.isEntry then [] else
      [exportOfValue (valueOf program source id options).1]) :
      e = exportOfValue (valueOf program source id options).1 := by
    split at mem
    · contradiction
    · exact List.mem_singleton.mp mem
  rw [exports_layout] at mem
  rcases List.mem_append.mp mem with held | property
  · cases wrapped : (findingsOf program source options).wrapped with
    | true =>
      rw [exports_body_of_wrapped id wrapped] at held
      exact .inl (first held)
    | false =>
      rw [exports_body_of_open id wrapped] at held
      rcases List.mem_append.mp held with value | shown
      · exact .inl (first value)
      · obtain ⟨v, entry, same⟩ := List.mem_map.mp shown
        exact .inr (.inl ⟨rfl, v, (List.mem_filter.mp entry).1, same.symm⟩)
  · obtain ⟨v, -, same⟩ := List.mem_map.mp property
    exact .inr (.inr ⟨v.1, v.2, same.symm⟩)

/-- The exports of a converted module refer to variables that are declared. -/
theorem declaredAtTop_export
    (upright : (findingsOf program source options).wrapped = false → UprightTargets program)
    {e : Export} (mem : e ∈ (layout program source id options).exports) :
    ∃ variableName, e.RefersTo (valueOf program source id options).1 variableName ∧
      DeclaredAtTop program source id options variableName := by
  rcases mem_exports_cases mem with rfl | ⟨notWrapped, v, entry, rfl⟩ | ⟨name, variableName, rfl⟩
  · exact ⟨_, .value, declaredAtTop_value upright⟩
  · exact ⟨_, .variable v.1 v.2, declaredAtTop_entry (upright notWrapped) notWrapped entry⟩
  · exact ⟨_, .property name variableName, .property mem⟩

/-- **Every reference that a conversion puts in is bound** by what it puts in: the helpers are imported
exactly if one of them is referred to, the name for a call or for a variable that goes is that of an
import, and the variables of the value and of the exports are declared at the top, if each left side of a
statement that exports is where the statement begins. -/
theorem references_bound (parsed : parseModule source = .ok program)
    (converted : convert program source id options = .ok (some out)) :
    ∃ edited, Emitted program source id options out edited ∧
      (importsOf program source options = helpersImport (frameOf program options).helpersName ::
          importLines (findingsOf program source options).required ↔
        ∃ helper, HelperReference program source id options helper) ∧
      (∀ edit ∈ (layout program source id options).body.edits,
        Rewritten program source id options out edit) ∧
      (∀ span ∈ (findingsOf program source options).elided,
        TakenOver program source options out span) ∧
      ((out.wrapped = false → UprightTargets program) →
        DeclaredAtTop program source id options (valueOf program source id options).1 ∧
        (out.wrapped = false → ∀ v ∈ (localsOf program source id options).entries,
          DeclaredAtTop program source id options v.2) ∧
        ∀ e ∈ (layout program source id options).exports, ∃ variableName,
          e.RefersTo (valueOf program source id options).1 variableName ∧
            DeclaredAtTop program source id options variableName) := by
  obtain ⟨edited, emitted⟩ := exists_emitted converted
  refine ⟨edited, emitted, helpers_imported_iff id, fun edit mem => emitted.rewritten parsed mem,
    fun span gone => emitted.takenOver parsed gone, fun upright => ?_⟩
  rw [emitted.wrapped] at upright ⊢
  exact ⟨declaredAtTop_value upright,
    fun notWrapped v mem => declaredAtTop_entry (upright notWrapped) notWrapped mem,
    fun e mem => declaredAtTop_export upright mem⟩

set_option maxRecDepth 4000 in
/-- In a module with a name of each kind, the helpers are imported and the variable of the export is
declared. -/
theorem kinds_bound :
    parseModule kindsSource = .ok kindsModule ∧ UprightTargets kindsModule ∧
      ∃ out, convert kindsModule kindsSource "m" .plain = .ok (some out) ∧
        (∃ helper, HelperReference kindsModule kindsSource "m" .plain helper) ∧
        DeclaredAtTop kindsModule kindsSource "m" .plain "a_1" := by
  have parsed : parseModule kindsSource = .ok kindsModule := rfl
  have upright : UprightTargets kindsModule := by
    intro span inner plain target value path mem _
    simp only [kindsModule, List.mem_cons, List.not_mem_nil, or_false] at mem
    rcases mem with same | same <;> cases same
    rfl
  obtain ⟨out, converted, -⟩ :=
    exists_converted (confined_layout parsed "m" .plain) (by decide +kernel)
  obtain ⟨edited, emitted, helpers, -, -, declared⟩ := references_bound parsed converted
  obtain ⟨-, entries, -⟩ := declared fun _ => upright
  exact ⟨parsed, upright, out, converted, helpers.mp (by decide +kernel),
    entries (emitted.wrapped.trans (by decide +kernel)) ("a", "a_1") (by decide +kernel)⟩

set_option maxRecDepth 4000 in
/-- A module that assigns an export in parentheses exports a variable that nothing declares: the
parenthesis that is left over stands after its name, and the text is no module. -/
theorem grouped_target_unbound :
    parseModule groupedSource = .ok groupedModule ∧
      ∃ out, convert groupedModule groupedSource "m" .plain = .ok (some out) ∧
        out.wrapped = false ∧ out.namedExports = ["a"] ∧
        exportOfVariable "a" "a" ∈ (layout groupedModule groupedSource "m" .plain).exports ∧
        ¬ DeclaredAtTop groupedModule groupedSource "m" .plain "a" ∧
        "var b; var a) = b;\n".toList <+: out.code.toList ∧
        (parseModule out.code.toList).toBool = false := by
  refine ⟨rfl, ?_⟩
  obtain ⟨out, converted, test⟩ := exists_of_any (show
    (convert groupedModule groupedSource "m" .plain).toOption.join.any (fun out =>
      (!out.wrapped && out.namedExports == ["a"]) &&
        (decide ("var b; var a) = b;\n".toList <+: out.code.toList) &&
          !(parseModule out.code.toList).toBool)) = true by decide +kernel)
  rw [Bool.and_eq_true, Bool.and_eq_true, Bool.and_eq_true, Bool.not_eq_true', Bool.not_eq_true',
    beq_iff_eq, decide_eq_true_eq] at test
  obtain ⟨⟨notWrapped, names⟩, begins, unread⟩ := test
  have findings : (findingsOf groupedModule groupedSource .plain).wrapped = false := by decide +kernel
  have value : (valueOf groupedModule groupedSource "m" .plain).1 = "m" := by decide +kernel
  have exports : (layout groupedModule groupedSource "m" .plain).exports =
      [exportOfValue "m", exportOfVariable "a" "a"] := by decide +kernel
  refine ⟨out, converted, notWrapped, names, by simp [exports], fun declared => ?_, begins, unread⟩
  generalize named : "a" = variableName at declared
  cases declared with
  | function wrapped =>
    rw [findings] at wrapped
    contradiction
  | object =>
    rw [value] at named
    contradiction
  | statement _ mem _ begins =>
    simp only [groupedModule, List.mem_cons, List.not_mem_nil, or_false] at mem
    rcases mem with same | same <;> cases same
    contradiction
  | @property name _ mem =>
    subst named
    rw [value, exports, List.mem_cons, List.mem_singleton] at mem
    rcases mem with same | same
    all_goals
      obtain rfl : name = _ := congrArg Export.name same
      exact absurd (congrArg Export.declaration same) (by decide +kernel)

end ModuleInterop.Conversion
