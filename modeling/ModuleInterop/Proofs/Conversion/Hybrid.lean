import ModuleInterop.Proofs.Conversion.Item
import ModuleInterop.Proofs.Conversion.Wrapping

/-!
# Modules with imports and exports of their own

A module that imports or exports by itself and uses the CommonJS names as well is converted like any
other.  Its imports and exports are kept in the edited text, which stands at the top level of the
converted module exactly if nothing calls for a function around it (`items_at_top_unless_wrapped`).

Where something does, they are put into the function with everything else, and an import or export
in a function is none (`import_lost_in_function`).
-/

set_option autoImplicit false

namespace ModuleInterop.Conversion

open ModuleInterop.Syntax ModuleInterop.Scope ModuleInterop.Usage ModuleInterop.Patch
  ModuleInterop.Text

variable {program : Program} {source : List Char} {id : String} {options : Options}
  {out : Converted} {edited : Output}

/-- The edited text of a module stands at the top level: only the imports that the conversion adds
stand before it. -/
def AtTop (program : Program) (source : List Char) (id : String) (options : Options)
    (out : Converted) (edited : Output) : Prop :=
  out.code.toList =
    trim ("\n".toList.intercalate ((importsOf program source options).map String.toList) ++
      "\n\n".toList ++ trim edited.code) ++ (layout program source id options).trail.toList

theorem length_trim_le (text : List Char) : (trim text).length ≤ text.length := by
  have shorter (l : List Char) : (l.dropWhile isBlank).length ≤ l.length :=
    (List.dropWhile_sublist _).length_le
  unfold trim trimEnd trimStart
  have inner := shorter text
  have outer := shorter (text.dropWhile isBlank).reverse
  rw [List.length_reverse] at outer ⊢
  omega

/-- Where the text of a module is in a function, it is not at the top level: the beginning of the
function stands between the imports and the text. -/
theorem Emitted.not_atTop (emitted : Emitted program source id options out edited)
    (wrapped : out.wrapped = true) : ¬ AtTop program source id options out edited := by
  intro top
  obtain ⟨front, brace⟩ := wrapperHead_ends (valueOf program source id options).1
    (frameOf program options).helpersName (findingsOf program source options).usesExports
  have same := List.append_cancel_right ((emitted.code_of_wrapped wrapped).symm.trans top)
  have shorter := length_trim_le
    ("\n".toList.intercalate ((importsOf program source options).map String.toList) ++
      "\n\n".toList ++ trim edited.code)
  rw [← same, brace] at shorter
  simp only [List.length_append, List.length_cons, List.length_nil] at shorter
  split at shorter
  · rename_i empty
    rw [empty, List.length_nil] at shorter
    omega
  · rw [List.length_cons] at shorter
    omega

/-- The text of a module that is not wrapped stands at the top level. -/
theorem Emitted.atTop (emitted : Emitted program source id options out edited)
    (notWrapped : out.wrapped = false) : AtTop program source id options out edited := by
  have code := emitted.code
  rw [toList_lead, emitted.before_eq notWrapped] at code
  simpa [AtTop] using code

/-- **Imports and exports stay at the top level exactly if nothing calls for a function** around the
module.  They are kept in any case, but for the values in them. -/
theorem items_at_top_unless_wrapped (parsed : parseModule source = .ok program)
    (h : convert program source id options = .ok (some out)) :
    ∃ edited, Emitted program source id options out edited ∧
      (∀ s ∈ program.body, s.isModuleItem = true → Retained source edited s) ∧
      (AtTop program source id options out edited ↔ ¬ Wraps program source options) ∧
      (Wraps program source options → Enclosed program source id options out edited) := by
  obtain ⟨edited, emitted⟩ := exists_emitted h
  have wrapped : out.wrapped = true ↔ Wraps program source options := by
    rw [emitted.wrapped]
    exact findingsOf_wrapped_iff
  refine ⟨edited, emitted, fun s mem item => emitted.retained parsed mem item, ?_, ?_⟩
  · rw [← wrapped]
    constructor
    · exact fun top wrapped => emitted.not_atTop wrapped top
    · exact fun notWrapped => emitted.atTop (Bool.not_eq_true _ ▸ notWrapped)
  · exact fun wraps => emitted.enclosed (wrapped.mpr wraps)

/-! ## An import that stays at the top level, and one that is put into a function -/

/-- A module that imports something and assigns an export. -/
def outerImportSource : List Char := "import a from 'a'; exports.b = a;".toList

/-- The tree of `outerImportSource`. -/
def outerImportModule : Program :=
  ⟨[.importing ⟨0, 18⟩ [⟨⟨7, 8⟩, "a"⟩],
    .expression ⟨19, 33⟩
      (.assign ⟨19, 32⟩ true
        (.target (.member ⟨19, 28⟩ (.name ⟨19, 26⟩ "exports") "b"))
        (.name ⟨31, 32⟩ "a"))]⟩

set_option maxRecDepth 4000 in
/-- The import is kept, and at the top level. -/
theorem import_at_top :
    parseModule outerImportSource = .ok outerImportModule ∧
      ∃ out edited, convert outerImportModule outerImportSource "m" .plain = .ok (some out) ∧
        AtTop outerImportModule outerImportSource "m" .plain out edited ∧
        Retained outerImportSource edited (.importing ⟨0, 18⟩ [⟨⟨7, 8⟩, "a"⟩]) := by
  have parsed : parseModule outerImportSource = .ok outerImportModule := rfl
  obtain ⟨out, converted⟩ := exists_of_isSome
    (show (convert outerImportModule outerImportSource "m" .plain).toOption.join.isSome = true by
      decide +kernel)
  obtain ⟨edited, -, kept, top, -⟩ := items_at_top_unless_wrapped parsed converted
  have notWrapped : ¬ Wraps outerImportModule outerImportSource .plain := by
    rw [← findingsOf_wrapped_iff]
    decide +kernel
  exact ⟨parsed, out, edited, converted, top.mpr notWrapped, kept _ List.mem_cons_self rfl⟩

/-- A module that imports something and has an export on an object that every module has. -/
def innerImportSource : List Char := "import a from 'a'; module.x = a;".toList

/-- The tree of `innerImportSource`. -/
def innerImportModule : Program :=
  ⟨[.importing ⟨0, 18⟩ [⟨⟨7, 8⟩, "a"⟩],
    .expression ⟨19, 32⟩
      (.assign ⟨19, 31⟩ true
        (.target (.member ⟨19, 27⟩ (.name ⟨19, 25⟩ "module") "x"))
        (.name ⟨30, 31⟩ "a"))]⟩

/-- The names that the imports at the top level of a module bind. -/
def topImports (program : Program) : List String :=
  program.body.flatMap fun
    | .importing _ bindings => bindings.map Name.text
    | _ => []

set_option maxRecDepth 4000 in
/-- The module imports `a`; at the top level of the converted module only the helpers are imported. -/
theorem import_lost_in_function :
    parseModule innerImportSource = .ok innerImportModule ∧ topImports innerImportModule = ["a"] ∧
      ∃ out tree, convert innerImportModule innerImportSource "m" .plain = .ok (some out) ∧
        parseModule out.code.toList = .ok tree ∧ topImports tree = ["commonjsHelpers"] := by
  refine ⟨rfl, rfl, ?_⟩
  obtain ⟨out, converted, parsed⟩ := exists_of_any (show
    (convert innerImportModule innerImportSource "m" .plain).toOption.join.any (fun out =>
      (parseModule out.code.toList).toOption.any fun tree =>
        topImports tree == ["commonjsHelpers"]) = true by decide +kernel)
  obtain ⟨tree, read, imports⟩ := exists_ok_of_any parsed
  exact ⟨out, tree, converted, read, eq_of_beq imports⟩

end ModuleInterop.Conversion
