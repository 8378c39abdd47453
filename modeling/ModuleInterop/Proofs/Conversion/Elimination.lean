import ModuleInterop.Proofs.Conversion.RequiredValues

/-!
# Free names are eliminated

No live reference to a free CommonJS name is left as it is: in place of `require` and `global` there
is a binding that the converted module imports, or the text around them is gone; `module` and
`exports` become variables, or are asked for their type only, or stand in a function that has them as
parameters (`Eliminated`, `free_reference_eliminated`).

The walk for uses passes over one position, the default of a target that is written as a name alone
if the default is a name itself; a module may be left alone for that (`bareDefault_left`).
-/

set_option autoImplicit false

namespace ModuleInterop.Conversion

open ModuleInterop.Syntax ModuleInterop.Scope ModuleInterop.Usage ModuleInterop.Patch
  ModuleInterop.Virtual

/-- The helper that stands for a free name where it is left as a name. -/
def helperOf? (options : Options) : FreeName → Option String
  | .require => some (requireHelper options.allowDynamicRequire)
  | .global => some globalHelper
  | _ => none

/-- What becomes of a reference to a free name in a converted module. -/
inductive Eliminated (program : Program) (source : List Char) (id : String) (options : Options)
    (out : Converted) (edited : Output) (node : Node) (span : Span) : FreeName → Prop
  /-- A helper, which is imported, stands for the name. -/
  | helper {name : FreeName} {helper : String} : helperOf? options name = some helper →
      replacement span (renamed name node.isShorthand ((frameOf program options).helper helper)) ∈
        (layout program source id options).body.edits →
      (helpersImport (frameOf program options).helpersName).toList <:+: out.code.toList →
      Eliminated program source id options out edited node span name
  /-- The binding that an import makes stands for the call of the name. -/
  | binding {place : Place} {concise : Bool} {call : RequireCall} {argument : Expr}
      {entry : RequiredModule} :
      program.Live (.expr place concise (.call call.span (.name span "require") [argument])) →
      Imported program source options out call.target entry →
      replacement call.span entry.name ∈ (layout program source id options).body.edits →
      Eliminated program source id options out edited node span .require
  /-- The statement that the call of the name is all of is taken out. -/
  | statement {place : Place} {concise : Bool} {call : RequireCall} {argument : Expr}
      {whole : Span} {home : Home} :
      program.Live (.expr place concise (.call call.span (.name span "require") [argument])) →
      place.statement? = some (whole, home) →
      TakesOut (layout program source id options).body.edits whole home →
      Eliminated program source id options out edited node span .require
  /-- The binding that an import makes takes the place of the variable with the value of the call. -/
  | value {home : Home} {whole : Span} {variableName : Name} {call : RequireCall}
      {argument : Expr} {entry : RequiredModule} :
      program.Live (.declarator home (.mk whole (.binding variableName)
        (some (.call call.span (.name span "require") [argument])))) →
      Imported program source options out call.target entry → entry.name = variableName.text →
      whole ∈ (findingsOf program source options).elided →
      Eliminated program source id options out edited node span .require
  /-- The assignment that exports through the name is a statement of the module, and a variable
  takes the place of its target. -/
  | target {whole inner : Span} {e value : Expr} {path : ExportPath} {others : List String} :
      out.wrapped = false → .expression whole (.assign inner true (.target e) value) ∈ program.body →
      path? e = some (span.start, path.root.text :: others) →
      exportPath? (Bindings.ofProgram program) (.target e) = some path →
      (layout program source id options).body.edits =
        (localsOf program source id options).edits →
      (localsOf program source id options).Edits (valueOf program source id options).1 whole
        (.target e) path.name →
      Eliminated program source id options out edited node span (.value path.root)
  /-- The question for a type that is asked of the name has its answer in its place. -/
  | question {place : Place} {concise : Bool} {whole : Span} {operand : Expr} {root : ModuleName}
      {others : List String} :
      program.Live (.expr place concise (.unary whole .typeof operand)) →
      path? operand = some (span.start, root.text :: others) →
      replacement whole "'object'" ∈ (layout program source id options).body.edits →
      Eliminated program source id options out edited node span (.value root)
  /-- The name stands in a function that has it as a parameter. -/
  | enclosed {root : ModuleName} : Enclosed program source id options out edited →
      root.text ∈ wrapperParameters (findingsOf program source options).usesExports →
      Eliminated program source id options out edited node span (.value root)

variable {program : Program} {source : List Char} {id : String} {options : Options}
  {out : Converted} {edited : Output}

/-- A name that leads to the value of the module is a parameter of the function around it. -/
theorem mem_wrapperParameters {findings : Findings} {root : ModuleName}
    (used : findings.usesValue root = true) :
    root.text ∈ wrapperParameters findings.usesExports := by
  cases root with
  | module =>
    unfold wrapperParameters
    split <;> simp [ModuleName.text]
  | exports =>
    have : findings.usesExports = true := used
    simp [wrapperParameters, this, ModuleName.text]

/-- **A use calls for the elimination** of the reference that it accounts for. -/
theorem Emitted.eliminated (h : Emitted program source id options out edited) {node : Node}
    {span : Span} {name : FreeName}
    (accounted : Accounted (Bindings.ofProgram program) options.ignored program node span name)
    (known : name ≠ .define) (heeded : name = .global → options.ignoreGlobal = false) :
    Eliminated program source id options out edited node span name := by
  cases accounted with
  | name use =>
    have answered := findingsOf_answers source use
    cases name with
    | require =>
      refine .helper rfl (edits_subset_layout answered.2) (h.helpersImport_infix ?_)
      simp [Findings.needsHelpers, answered.1]
    | value root =>
      exact .enclosed (h.enclosed (h.wrapped.trans answered.2)) (mem_wrapperParameters answered.1)
    | global =>
      obtain ⟨used, edit⟩ := answered (heeded rfl)
      refine .helper rfl (edits_subset_layout edit) (h.helpersImport_infix ?_)
      simp [Findings.needsHelpers, used]
    | define => contradiction
  | question live path use =>
    obtain ⟨edit, -, -⟩ := findingsOf_answers source use
    exact .question live path (edits_subset_layout edit)
  | @target place concise plain whole e value path others live exporting way use =>
    obtain ⟨used, other⟩ := findingsOf_answers source use
    cases wrapped : (findingsOf program source options).wrapped with
    | true => exact .enclosed (h.enclosed (h.wrapped.trans wrapped)) (mem_wrapperParameters used)
    | false =>
      have direct : (plain && place.isModuleStatement) = true := by
        cases direct : plain && place.isModuleStatement with
        | true => rfl
        | false => exact absurd (other direct) (by simp [wrapped])
      rw [Bool.and_eq_true] at direct
      obtain ⟨rfl, alone⟩ := direct
      cases place with
      | statement outer home =>
        cases home with
        | body =>
          have mem := live.expression_mem_body
          exact .target (h.wrapped.trans wrapped) mem way exporting (layout_of_open wrapped)
            (edit_of_export exporting mem)
        | _ => contradiction
      | _ => contradiction
  | @callee place concise call argument live use =>
    cases statement : place.statement? with
    | none =>
      rw [statement] at use
      obtain ⟨entry, found, binds, edit⟩ := findingsOf_answers source use
      exact .binding live (h.imported found binds) (edits_subset_layout edit)
    | some pair =>
      obtain ⟨outer, home⟩ := pair
      rw [statement] at use
      obtain ⟨entry, -, out⟩ := findingsOf_answers source use
      exact .statement live statement (out.mono edits_subset_layout)
  | value live use =>
    obtain ⟨entry, found, binds, placed⟩ := findingsOf_answers source use
    rcases placed with ⟨named, elided⟩ | edit
    · exact .value live (h.imported found binds) named elided
    · refine .binding (live.part rfl (List.mem_cons_of_mem _ (List.mem_singleton.mpr rfl)))
        (h.imported found binds) (edits_subset_layout edit)

/-- A use that accounts for a reference calls for a conversion. -/
theorem any_of_accounted (source : List Char) {node : Node} {span : Span} {name : FreeName}
    (accounted : Accounted (Bindings.ofProgram program) options.ignored program node span name)
    (known : name ≠ .define) (heeded : name = .global → options.ignoreGlobal = false) :
    (findingsOf program source options).any = true := by
  cases accounted with
  | name use =>
    have answered := findingsOf_answers source use
    cases name with
    | require => simp [Findings.any, answered.1]
    | value root => exact Findings.any_of_usesValue _ answered.1
    | global => simp [Findings.any, (answered (heeded rfl)).1]
    | define => contradiction
  | question live path use => exact Findings.any_of_usesValue _ (findingsOf_answers source use).2.1
  | target live exporting way use =>
    exact Findings.any_of_usesValue _ (findingsOf_answers source use).1
  | @callee place concise call argument live use =>
    cases statement : place.statement? with
    | none =>
      rw [statement] at use
      obtain ⟨entry, found, -⟩ := findingsOf_answers source use
      exact Findings.any_of_find? _ found
    | some pair =>
      rw [statement] at use
      obtain ⟨entry, found, -⟩ := findingsOf_answers source use
      exact Findings.any_of_find? _ found
  | value live use =>
    obtain ⟨entry, found, -⟩ := findingsOf_answers source use
    exact Findings.any_of_find? _ found

/-- **No live reference to a free CommonJS name is left as it is**, unless it is the bare default of a
target that is written as a name alone: the module is converted, and in the converted module the
reference is eliminated. -/
theorem free_reference_eliminated {node : Node} {span : Span} {name : FreeName}
    (live : program.Live node) (reference : node.reference? = some (span, name.text))
    (free : (Bindings.ofProgram program).isFreeAt span.start = true)
    (regular : node.isBareDefault = false) (known : name ≠ .define)
    (heeded : name = .global → options.ignoreGlobal = false) :
    convert program source id options ≠ .ok none ∧
      convert program source id options ≠ .error .notCommonJs ∧
      ∀ out, convert program source id options = .ok (some out) →
        ∃ edited, Emitted program source id options out edited ∧
          Eliminated program source id options out edited node span name := by
  have accounted : Accounted (Bindings.ofProgram program) options.ignored program node span name :=
    reference_covered live reference free regular
  obtain ⟨converted, accepted⟩ :=
    convert_of_any (any_of_accounted source accounted known heeded)
  refine ⟨converted, accepted, fun out h => ?_⟩
  obtain ⟨edited, emitted⟩ := exists_emitted h
  exact ⟨edited, emitted, emitted.eliminated accounted known heeded⟩

/-! ## A name as an argument, and as a bare default -/

/-- The name `require` as an argument. -/
def nameSource : List Char := "f(require);".toList

/-- The tree of `nameSource`. -/
def nameModule : Program :=
  ⟨[.expression ⟨0, 11⟩ (.call ⟨0, 10⟩ (.name ⟨0, 1⟩ "f") [.name ⟨2, 9⟩ "require"])]⟩

set_option maxRecDepth 4000 in
/-- The argument is eliminated. -/
theorem name_eliminated :
    parseModule nameSource = .ok nameModule ∧
      ∃ out, convert nameModule nameSource "m" .plain = .ok (some out) ∧
        ∃ edited, Emitted nameModule nameSource "m" .plain out edited ∧
          Eliminated nameModule nameSource "m" .plain out edited
            (.part (.name ⟨2, 9⟩ "require")) ⟨2, 9⟩ .require := by
  refine ⟨rfl, ?_⟩
  obtain ⟨out, converted⟩ := exists_of_isSome
    (show (convert nameModule nameSource "m" .plain).toOption.join.isSome = true by
      decide +kernel)
  have live : nameModule.Live (.part (.name ⟨2, 9⟩ "require")) :=
    Program.Live.follow (.statement (List.mem_singleton.mpr rfl)) [0, 1] rfl
  have reference : (Node.part (.name ⟨2, 9⟩ "require")).reference? =
      some (⟨2, 9⟩, FreeName.require.text) := rfl
  have free : (Bindings.ofProgram nameModule).isFreeAt 2 = true := by decide +kernel
  obtain ⟨-, -, eliminated⟩ :=
    free_reference_eliminated live reference free rfl (by decide) nofun
  exact ⟨out, converted, eliminated out converted⟩

/-- The name `require` as the default of a target that is written as a name alone. -/
def defaultSource : List Char := "(\x7b a = require \x7d = o)".toList

/-- The name in `defaultSource`. -/
def defaultName : Expr := .name ⟨7, 14⟩ "require"

/-- The tree of `defaultSource`. -/
def defaultModule : Program :=
  ⟨[.expression ⟨0, 21⟩ (.paren ⟨0, 21⟩ (.assign ⟨1, 20⟩ true
    (.object ⟨1, 16⟩ [.shorthand ⟨3, 14⟩ ⟨⟨3, 4⟩, "a"⟩ (some defaultName)])
    (.name ⟨19, 20⟩ "o")))]⟩

set_option maxRecDepth 4000 in
/-- A module in which the name `require` is free and live is left alone. -/
theorem bareDefault_left :
    parseModule defaultSource = .ok defaultModule ∧
      defaultModule.Live (.expr .shorthandDefault false defaultName) ∧
      (Node.expr .shorthandDefault false defaultName).reference? =
        some (⟨7, 14⟩, FreeName.require.text) ∧
      (Bindings.ofProgram defaultModule).isFreeAt 7 = true ∧
      convert defaultModule defaultSource "m" .plain = .ok none :=
  ⟨rfl, Program.Live.follow (.statement (List.mem_singleton.mpr rfl)) [0, 0, 0, 0, 0] rfl, rfl,
    by decide +kernel, by rfl⟩

end ModuleInterop.Conversion
