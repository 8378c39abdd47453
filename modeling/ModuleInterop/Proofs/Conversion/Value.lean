import ModuleInterop.Proofs.Conversion.Locals

/-!
# The value of a converted module

A converted module holds its value in a variable, declared outside all functions: the result of the
function that it is wrapped in, what it assigns as a whole, or an object of its exports
(`declaresValue`).  A module that the build does not start from also exports that variable under a
name of its own, in a line after all of its text (`Emitted.exportsValue`).
-/

set_option autoImplicit false

namespace ModuleInterop.Conversion

open ModuleInterop.Syntax ModuleInterop.Scope ModuleInterop.Usage ModuleInterop.Patch
  ModuleInterop.Text

/-- Properties that are exported leave the exports there are. -/
theorem exports_prefix_addProperty (freeNames : List String) (valueName : String)
    (state : ScopeTree × List Export) (names : List String) :
    state.2 <+: (names.foldl (addProperty freeNames valueName) state).2 := by
  induction names generalizing state with
  | nil => exact List.prefix_rfl
  | cons name names ih =>
    have one : state.2 <+: (addProperty freeNames valueName state name).2 := by
      unfold addProperty
      split
      · exact List.prefix_rfl
      · exact List.prefix_append _ _
    exact one.trans (ih _)

/-- An assignment to the value as a whole, among the statements of a module. -/
def AssignsValue (bindings : Bindings) (body : List Stmt) : Prop :=
  ∃ span inner plain target value root,
    .expression span (.assign inner plain target value) ∈ body ∧
      exportPath? bindings target = some ⟨root, none⟩

namespace Locals

variable {bindings : Bindings} {freeNames : List String} {valueName : String} {locals : Locals}

/-- Only an assignment to the value as a whole is remembered as one. -/
theorem assigns_of_step {s : Stmt} (unassigned : locals.assignsValue = false)
    (assigned : (locals.step bindings freeNames valueName s).assignsValue = true) :
    AssignsValue bindings [s] := by
  have same {other : Locals} (h : other.assignsValue = true)
      (kept : other.assignsValue = locals.assignsValue) : AssignsValue bindings [s] := by
    rw [kept, unassigned] at h
    contradiction
  unfold step at assigned
  split at assigned
  · split at assigned
    · exact same assigned rfl
    · rename_i root exporting
      exact ⟨_, _, _, _, _, root, List.mem_cons_self, exporting⟩
    · split at assigned
      · exact same assigned rfl
      · exact same assigned rfl
  · exact same assigned rfl

/-- Where the variables that stand for exports know of an assignment to the value as a whole, there
is one. -/
theorem assigns_of_foldl {body : List Stmt} (unassigned : locals.assignsValue = false)
    (assigned : (body.foldl (step bindings freeNames valueName) locals).assignsValue = true) :
    AssignsValue bindings body := by
  induction body generalizing locals with
  | nil =>
    rw [List.foldl_nil, unassigned] at assigned
    contradiction
  | cons s body ih =>
    cases here : (locals.step bindings freeNames valueName s).assignsValue with
    | false =>
      obtain ⟨span, inner, plain, target, value, root, mem, exporting⟩ := ih here assigned
      exact ⟨span, inner, plain, target, value, root, List.mem_cons_of_mem _ mem, exporting⟩
    | true =>
      obtain ⟨span, inner, plain, target, value, root, mem, exporting⟩ :=
        assigns_of_step unassigned here
      obtain rfl := List.mem_singleton.mp mem
      exact ⟨span, inner, plain, target, value, root, List.mem_cons_self, exporting⟩

end Locals

variable {program : Program} {source : List Char} {id : String} {options : Options}
  {out : Converted} {edited : Output}

/-- The variable of a module's value is declared outside all functions. -/
inductive DeclaresValue (program : Program) (source : List Char) (id : String) (options : Options) :
    Prop
  /-- Before the function that the module is wrapped in, by its result. -/
  | wrapped (wrapped : (findingsOf program source options).wrapped = true)
    (before : (layout program source id options).body.before =
      wrapperStart (valueOf program source id options).1 (frameOf program options).helpersName
        (findingsOf program source options).usesExports) :
    DeclaresValue program source id options
  /-- In place of the left side of a statement that assigns the value as a whole. -/
  | assigned {span inner : Span} {plain : Bool} {target : Pattern} {value : Expr} {root : ModuleName}
    (mem : .expression span (.assign inner plain target value) ∈ program.body)
    (exporting : exportPath? (Bindings.ofProgram program) target = some ⟨root, none⟩)
    (edit : replacement target.span ("var " ++ (valueOf program source id options).1) ∈
      (layout program source id options).body.edits) :
    DeclaresValue program source id options
  /-- After the text of the module, by an object of its exports. -/
  | object {entries : List (String × String)}
    (after : (layout program source id options).body.after =
      valueObject (valueOf program source id options).1 entries) :
    DeclaresValue program source id options

/-- **The value of a converted module is in a variable** that is declared outside all functions. -/
theorem declaresValue (program : Program) (source : List Char) (id : String) (options : Options) :
    DeclaresValue program source id options := by
  cases wrapped : (findingsOf program source options).wrapped with
  | true => exact .wrapped wrapped (layout_of_wrapped id wrapped).1
  | false =>
    cases assigned : (localsOf program source id options).assignsValue with
    | true =>
      obtain ⟨span, inner, plain, target, value, root, mem, exporting⟩ :=
        Locals.assigns_of_foldl rfl assigned
      refine .assigned mem exporting ?_
      rw [layout_of_open wrapped]
      exact edit_of_export exporting mem
    | false =>
      have after : (layout program source id options).body.after =
          if (localsOf program source id options).assignsValue then ""
          else valueObject (valueOf program source id options).1
            (localsOf program source id options).entries := by
        obtain ⟨exports, body⟩ := body_layout program source id options
        rw [body, bodyOf, if_neg (by simp [wrapped])]
        rfl
      rw [assigned] at after
      exact .object after

/-- The lines after all text of a converted module. -/
def closingLines (program : Program) (source : List Char) (id : String) (options : Options) :
    List String :=
  (layout program source id options).defaults ++
    (layout program source id options).exports.map Export.declaration ++
    (layout program source id options).body.assignments

/-- A text has a line of its own after all text of a converted module. -/
def ClosingLine (program : Program) (source : List Char) (id : String) (options : Options)
    (out : Converted) (edited : Output) (line : String) : Prop :=
  ∃ front back,
    out.code.toList =
      trim ((layout program source id options).lead.toList ++ trim edited.code) ++
        ((layout program source id options).body.after.toList ++
          (front ++ '\n' :: (line.toList ++ back))) ∧
      (back = [] ∨ ['\n'] <+: back)

theorem ClosingLine.infix {line : String}
    (h : ClosingLine program source id options out edited line) :
    line.toList <:+: out.code.toList := by
  obtain ⟨front, back, same, -⟩ := h
  have inLines : line.toList <:+: front ++ '\n' :: (line.toList ++ back) :=
    (List.prefix_append _ back).isInfix.trans
      ((List.suffix_cons '\n' _).trans (List.suffix_append front _)).isInfix
  rw [same]
  exact inLines.trans ((List.suffix_append _ _).trans (List.suffix_append _ _)).isInfix

theorem Emitted.closingLine (emitted : Emitted program source id options out edited) {line : String}
    (mem : line ∈ closingLines program source id options) :
    ClosingLine program source id options out edited line := by
  obtain ⟨front, back, same, ends⟩ :=
    exists_line (List.mem_map_of_mem mem : line.toList ∈ _)
  refine ⟨'\n' :: front, back, ?_, ends⟩
  rw [emitted.code]
  have spelled : (layout program source id options).trail =
      (layout program source id options).body.after ++ ("\n\n" ++
        joinLines (closingLines program source id options)) := rfl
  rw [spelled, String.toList_append, String.toList_append, joinLines, String.toList_intercalate,
    List.cons_append, ← same]
  rfl

/-- The export of a module's value has the name under which it is exported. -/
theorem valueExport_infix (valueName : String) :
    valueExport.toList <:+: (exportOfValue valueName).declaration.toList := by
  unfold exportOfValue
  rw [String.toList_append, String.toList_append]
  exact List.infix_append _ _ _

/-- A module that the build does not start from lists its value among its exports. -/
theorem exportOfValue_mem (notEntry : options.isEntry = false) :
    exportOfValue (valueOf program source id options).1 ∈
      (layout program source id options).exports := by
  let value := exportOfValue (valueOf program source id options).1
  have listed : value ∈ (layout program source id options).body.exports := by
    have body : (layout program source id options).body =
        bodyOf (frameOf program options) (Bindings.ofProgram program) program
          (findingsOf program source options) (valueOf program source id options).1
          (valueOf program source id options).2 (if options.isEntry then [] else [value]) := rfl
    rw [body, notEntry]
    unfold bodyOf
    split
    · exact List.mem_singleton.mpr rfl
    · exact List.mem_append_left _ (List.mem_singleton.mpr rfl)
  exact (exports_prefix_addProperty _ _ ((layout program source id options).body.scopes,
    (layout program source id options).body.exports) _).subset listed

/-- **A module that the build does not start from exports its value** in a line of its own. -/
theorem Emitted.exportsValue (emitted : Emitted program source id options out edited)
    (notEntry : options.isEntry = false) :
    ClosingLine program source id options out edited
      (exportOfValue (valueOf program source id options).1).declaration := by
  refine emitted.closingLine ?_
  refine List.mem_append_left _ (List.mem_append_right _ ?_)
  exact List.mem_map_of_mem (exportOfValue_mem notEntry)

end ModuleInterop.Conversion
