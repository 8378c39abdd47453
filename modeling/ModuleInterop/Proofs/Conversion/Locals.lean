import ModuleInterop.Proofs.Conversion.Outcome

/-!
# Variables that stand for exports

Where a module is not wrapped, its statements are taken one after the other, and each assignment
that exports is edited into the declaration of a variable or a further assignment to it.  As with
findings, what is there stays there (`Locals.Grows`), so each of these edits is among the edits of
the converted module (`edit_of_export`), and no others are added (`Locals.mem_foldl`).
-/

set_option autoImplicit false

namespace ModuleInterop.Conversion

open ModuleInterop.Syntax ModuleInterop.Scope ModuleInterop.Usage ModuleInterop.Patch

namespace Locals

/-- Later variables are the earlier ones and more. -/
structure Grows (before after : Locals) : Prop where
  edits : before.edits <+: after.edits
  names : ∀ name variableName, before.localName? name = some variableName →
    after.localName? name = some variableName

/-- There are the variables there are. -/
theorem Grows.refl (locals : Locals) : Grows locals locals := ⟨List.prefix_rfl, fun _ _ h => h⟩

/-- Growth over two stretches of statements. -/
theorem Grows.trans {first middle last : Locals} (h : Grows first middle)
    (h' : Grows middle last) : Grows first last :=
  ⟨h.edits.trans h'.edits, fun name v found => h'.names name v (h.names name v found)⟩

variable (bindings : Bindings) (freeNames : List String) (valueName : String) (locals : Locals)

/-- A new variable comes after those there are. -/
theorem localName?_append {name variableName : String} {entry : String × String}
    {rest : Locals} (entries : rest.entries = locals.entries ++ [entry])
    (found : locals.localName? name = some variableName) :
    rest.localName? name = some variableName := by
  unfold localName? at found ⊢
  obtain ⟨e, found, same⟩ := Option.map_eq_some_iff.mp found
  rw [entries, List.find?_append, found, Option.some_or, Option.map_some, same]

/-- A new entry is found under its name. -/
theorem localName?_of_new {locals rest : Locals} {name variableName : String}
    (unknown : locals.localName? name = none)
    (entries : rest.entries = locals.entries ++ [(name, variableName)]) :
    rest.localName? name = some variableName := by
  unfold localName? at unknown ⊢
  rw [Option.map_eq_none_iff] at unknown
  rw [entries, List.find?_append, unknown, Option.none_or]
  simp

/-- A statement adds to the variables. -/
theorem step_grows (s : Stmt) : Grows locals (locals.step bindings freeNames valueName s) := by
  unfold step
  split
  · split
    · exact Grows.refl locals
    · exact ⟨List.prefix_append _ _, fun _ _ h => h⟩
    · split
      · exact ⟨List.prefix_append _ _, fun _ _ h => h⟩
      · exact ⟨List.prefix_append _ _, fun _ _ h => localName?_append locals rfl h⟩
  · exact Grows.refl locals

/-- Statements add to the variables. -/
theorem foldl_grows (body : List Stmt) :
    Grows locals (body.foldl (step bindings freeNames valueName) locals) := by
  induction body generalizing locals with
  | nil => exact Grows.refl locals
  | cons s body ih => exact (step_grows bindings freeNames valueName locals s).trans (ih _)

/-- The edit of an assignment that exports.  One to the value as a whole declares its variable; one
to a name declares the variable of the name or assigns to it. -/
def Edits (final : Locals) (valueName : String) (span : Span) (target : Pattern) :
    Option String → Prop
  | none => replacement target.span ("var " ++ valueName) ∈ final.edits
  | some name => ∃ variableName, final.localName? name = some variableName ∧
      (replacement ⟨span.start, target.span.stop⟩ variableName ∈ final.edits ∨
        replacement ⟨span.start, target.span.stop⟩ ("var " ++ variableName) ∈ final.edits)

/-- An edit stays. -/
theorem Edits.mono {before after : Locals} (h : Grows before after) {span : Span}
    {target : Pattern} {name : Option String} (edited : before.Edits valueName span target name) :
    after.Edits valueName span target name := by
  cases name with
  | none => exact h.edits.subset edited
  | some name =>
    obtain ⟨variableName, found, edit⟩ := edited
    exact ⟨variableName, h.names _ _ found, edit.imp (h.edits.subset ·) (h.edits.subset ·)⟩

/-- A statement that exports is edited. -/
theorem edits_step {span inner : Span} {plain : Bool} {target : Pattern} {value : Expr}
    {path : ExportPath} (exporting : exportPath? bindings target = some path) :
    (locals.step bindings freeNames valueName
      (.expression span (.assign inner plain target value))).Edits valueName span target
        path.name := by
  obtain ⟨root, name⟩ := path
  cases name with
  | none =>
    simp only [step, exporting]
    exact List.mem_append_right _ (List.mem_singleton.mpr rfl)
  | some name =>
    cases known : locals.localName? name with
    | some variableName =>
      simp only [step, exporting, known]
      exact ⟨variableName, known, .inl (List.mem_append_right _ (List.mem_singleton.mpr rfl))⟩
    | none =>
      simp only [step, exporting, known]
      exact ⟨_, localName?_of_new known rfl,
        .inr (List.mem_append_right _ (List.mem_singleton.mpr rfl))⟩

/-- Among statements, each that exports is edited. -/
theorem edits_foldl {body : List Stmt} {span inner : Span} {plain : Bool} {target : Pattern}
    {value : Expr} {path : ExportPath} (exporting : exportPath? bindings target = some path)
    (mem : .expression span (.assign inner plain target value) ∈ body) :
    (body.foldl (step bindings freeNames valueName) locals).Edits valueName span target
      path.name := by
  obtain ⟨earlier, later, rfl⟩ := List.append_of_mem mem
  rw [List.foldl_append, List.foldl_cons]
  exact (edits_step bindings freeNames valueName _ exporting).mono valueName (foldl_grows _ _ _ _ _)

/-- The edit of a statement that exports: it declares a variable, for the value as a whole or for a name
the first time, or assigns to the variable of a name. -/
inductive Stores (final : Locals) (valueName : String) (span : Span) (target : Pattern) :
    Option String → Edit → Prop
  | value : Stores final valueName span target none (replacement target.span ("var " ++ valueName))
  | first {name variableName : String} : final.localName? name = some variableName →
      Stores final valueName span target (some name)
        (replacement ⟨span.start, target.span.stop⟩ ("var " ++ variableName))
  | again {name variableName : String} : final.localName? name = some variableName →
      Stores final valueName span target (some name)
        (replacement ⟨span.start, target.span.stop⟩ variableName)

theorem Stores.mono {before after : Locals} (h : Grows before after) {span : Span} {target : Pattern}
    {name : Option String} {edit : Edit} (stores : before.Stores valueName span target name edit) :
    after.Stores valueName span target name edit := by
  cases stores with
  | value => exact .value
  | first known => exact .first (h.names _ _ known)
  | again known => exact .again (h.names _ _ known)

/-- A statement adds no edit, unless it exports. -/
theorem mem_step {s : Stmt} {edit : Edit}
    (mem : edit ∈ (locals.step bindings freeNames valueName s).edits) :
    edit ∈ locals.edits ∨ ∃ span inner plain target value path,
      s = .expression span (.assign inner plain target value) ∧
        exportPath? bindings target = some path ∧
        (locals.step bindings freeNames valueName s).Stores valueName span target path.name edit := by
  unfold step at mem ⊢
  split at mem
  · rename_i span inner plain target value
    split at mem
    · exact .inl mem
    · rename_i root exporting
      refine (List.mem_append.mp mem).imp_right fun last => ?_
      obtain rfl := List.mem_singleton.mp last
      exact ⟨_, _, _, _, _, _, rfl, exporting, .value⟩
    · rename_i root name exporting
      split at mem <;> rename_i known
      · refine (List.mem_append.mp mem).imp_right fun last => ?_
        obtain rfl := List.mem_singleton.mp last
        exact ⟨_, _, _, _, _, _, rfl, exporting, .again known⟩
      · refine (List.mem_append.mp mem).imp_right fun last => ?_
        obtain rfl := List.mem_singleton.mp last
        exact ⟨_, _, _, _, _, _, rfl, exporting, .first (localName?_of_new known rfl)⟩
  · exact .inl mem

/-- **Statements** add no edits but those of the ones that export. -/
theorem mem_foldl {body : List Stmt} {edit : Edit}
    (mem : edit ∈ (body.foldl (step bindings freeNames valueName) locals).edits) :
    edit ∈ locals.edits ∨ ∃ span inner plain target value path,
      .expression span (.assign inner plain target value) ∈ body ∧
        exportPath? bindings target = some path ∧
        (body.foldl (step bindings freeNames valueName) locals).Stores valueName span target path.name
          edit := by
  induction body generalizing locals with
  | nil => exact .inl mem
  | cons s body ih =>
    rcases ih _ mem with earlier | ⟨span, inner, plain, target, value, path, among, later⟩
    · refine (mem_step _ _ _ _ earlier).imp_right ?_
      rintro ⟨span, inner, plain, target, value, path, rfl, exporting, stores⟩
      exact ⟨_, _, _, _, _, _, List.mem_cons_self, exporting,
        stores.mono valueName (foldl_grows _ _ _ _ _)⟩
    · exact .inr ⟨_, _, _, _, _, _, List.mem_cons_of_mem _ among, later⟩

/-- A statement makes an entry only with the declaration of its variable. -/
theorem declared_step {s : Stmt} {v : String × String}
    (mem : v ∈ (locals.step bindings freeNames valueName s).entries) :
    v ∈ locals.entries ∨ ∃ span inner plain target value root,
      s = .expression span (.assign inner plain target value) ∧
        exportPath? bindings target = some ⟨root, some v.1⟩ ∧
        replacement ⟨span.start, target.span.stop⟩ ("var " ++ v.2) ∈
          (locals.step bindings freeNames valueName s).edits := by
  unfold step at mem ⊢
  split at mem
  · split at mem
    · exact .inl mem
    · exact .inl mem
    · rename_i root name exporting
      split at mem
      · exact .inl mem
      · rename_i unknown
        refine (List.mem_append.mp mem).imp_right fun last => ?_
        obtain rfl := List.mem_singleton.mp last
        exact ⟨_, _, _, _, _, root, rfl, exporting,
          List.mem_append_right _ (List.mem_singleton.mpr rfl)⟩
  · exact .inl mem

/-- **Statements** make entries only with the declarations of their variables. -/
theorem declared_foldl {body : List Stmt} {v : String × String}
    (mem : v ∈ (body.foldl (step bindings freeNames valueName) locals).entries) :
    v ∈ locals.entries ∨ ∃ span inner plain target value root,
      .expression span (.assign inner plain target value) ∈ body ∧
        exportPath? bindings target = some ⟨root, some v.1⟩ ∧
        replacement ⟨span.start, target.span.stop⟩ ("var " ++ v.2) ∈
          (body.foldl (step bindings freeNames valueName) locals).edits := by
  induction body generalizing locals with
  | nil => exact .inl mem
  | cons s body ih =>
    rcases ih _ mem with earlier | ⟨span, inner, plain, target, value, root, among, later⟩
    · refine (declared_step _ _ _ _ earlier).imp_right ?_
      rintro ⟨span, inner, plain, target, value, root, rfl, exporting, edit⟩
      exact ⟨_, _, _, _, _, root, List.mem_cons_self, exporting,
        (foldl_grows _ _ _ _ body).edits.subset edit⟩
    · exact .inr ⟨_, _, _, _, _, root, List.mem_cons_of_mem _ among, later⟩

end Locals

variable {program : Program} {source : List Char} {id : String} {options : Options}

/-- The variables of the exports of a module that is not wrapped. -/
def localsOf (program : Program) (source : List Char) (id : String) (options : Options) : Locals :=
  program.body.foldl
    (Locals.step (Bindings.ofProgram program) (frameOf program options).freeNames
      (valueOf program source id options).1)
    ⟨(findingsOf program source options).edits, (valueOf program source id options).2, [], false⟩

/-- The edits of a module that is not wrapped include those of its exports. -/
theorem layout_of_open (notWrapped : (findingsOf program source options).wrapped = false) :
    (layout program source id options).body.edits = (localsOf program source id options).edits := by
  obtain ⟨exports, body⟩ := body_layout program source id options
  have isOpen : ¬ (findingsOf program source options).wrapped = true := by simp [notWrapped]
  exact congrArg Body.edits (body.trans (if_neg isOpen))

/-- The edits that the uses of a module call for come first among its edits. -/
theorem edits_prefix_layout :
    (findingsOf program source options).edits <+: (layout program source id options).body.edits := by
  cases wrapped : (findingsOf program source options).wrapped with
  | true =>
    exact (layout_of_wrapped id wrapped).2.2 ▸ List.prefix_rfl
  | false =>
    rw [layout_of_open wrapped, localsOf]
    exact (Locals.foldl_grows _ _ _ ⟨_, _, [], false⟩ _).edits

/-- **What the uses of a module call for is edited** in the converted module, wrapped or not. -/
theorem edits_subset_layout :
    (findingsOf program source options).edits ⊆ (layout program source id options).body.edits :=
  edits_prefix_layout.subset

/-- **An assignment that exports is edited**, as a statement of a module that is not wrapped: it
declares the variable of what it exports, or assigns to it. -/
theorem edit_of_export {span inner : Span} {plain : Bool} {target : Pattern} {value : Expr} {path : ExportPath}
    (exporting : exportPath? (Bindings.ofProgram program) target = some path)
    (mem : .expression span (.assign inner plain target value) ∈ program.body) :
    (localsOf program source id options).Edits (valueOf program source id options).1 span target
      path.name :=
  Locals.edits_foldl _ _ _ _ exporting mem

end ModuleInterop.Conversion
