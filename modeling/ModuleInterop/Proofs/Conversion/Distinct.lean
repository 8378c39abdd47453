import ModuleInterop.Detection
import ModuleInterop.Syntax.Parser.Module
import ModuleInterop.Proofs.Conversion.Surface

/-!
# Exports that are made twice

A converted module exports what its source exports, a default, and what the conversion exports.  The
conversion looks up the names that it exports itself before it adds a property of the value, but it
does not look at the exports of the source, nor at the name for the whole value where a statement
assigns an export.  These are the only ways in which a name is exported twice
(`exports_distinct_iff`), and each of them is open to a module (`exported_twice`).
-/

set_option autoImplicit false

namespace ModuleInterop.Syntax

/-- The names that a statement exports. -/
def Stmt.exportedNames : Stmt → List String
  | .exportDefault _ _ | .exportDefaultDeclaration _ _ => ["default"]
  | .exportDeclaration _ declared => (Parser.declaredNames declared).map Name.text
  | .exportNames _ entries _ => entries.map fun entry => entry.exported.text
  | .exportAll _ (some name) => [name.text]
  | _ => []

/-- The names that a module exports. -/
def Program.exportedNames (program : Program) : List String :=
  program.body.flatMap Stmt.exportedNames

/-- A statement that is seen to have a default export has one. -/
theorem Stmt.default_mem_exportedNames {s : Stmt} (exports : s.exportsDefault = true) :
    "default" ∈ s.exportedNames := by
  cases s with
  | exportDefault | exportDefaultDeclaration => exact List.mem_singleton_self _
  | exportNames span entries taken =>
    obtain ⟨entry, among, named⟩ := List.any_eq_true.mp exports
    exact List.mem_map.mpr ⟨entry, among, beq_iff_eq.mp named⟩
  | _ => contradiction

end ModuleInterop.Syntax

namespace ModuleInterop.Conversion

open ModuleInterop.Syntax ModuleInterop.Scope ModuleInterop.Usage ModuleInterop.Patch

section Names

variable (program : Program) (source : List Char) (id : String) (options : Options)

/-- The names that a conversion exports, a default aside. -/
def addedNames : List String := (layout program source id options).exports.map Export.name

/-- The names that a converted module exports: those of its source, a default, and those that the
conversion adds. -/
def outputNames : List String :=
  program.exportedNames ++ (layout program source id options).defaults.map (fun _ => "default") ++
    addedNames program source id options

/-- How a name comes to be exported twice by a conversion. -/
inductive ExportedTwice : Prop where
  /-- The source exports a name that the conversion adds. -/
  | kept {name : String} (own : name ∈ program.exportedNames)
    (added : name ∈ addedNames program source id options) : ExportedTwice
  /-- The source exports something as its default and is not known to. -/
  | default {s : Stmt} (mem : s ∈ program.body) (named : "default" ∈ s.exportedNames)
    (unseen : s.exportsDefault = false) (added : options.hasDefaultExport = false) : ExportedTwice
  /-- A statement assigns an export that has the name for the whole value. -/
  | value (notEntry : options.isEntry = false)
    (notWrapped : (findingsOf program source options).wrapped = false)
    (assigned : valueExport ∈ assignedNames (Bindings.ofProgram program) program.body) :
    ExportedTwice

end Names

variable {program : Program} {source : List Char} {id : String} {options : Options}
  {out : Converted}

/-- Names that are put at the end of a list do not repeat any if and only if the list does not. -/
theorem nodup_foldl_appendNew_iff {names list : List String} :
    (names.foldl appendNew list).Nodup ↔ list.Nodup := by
  refine ⟨fun distinct => distinct.sublist ?_, nodup_foldl_appendNew⟩
  clear distinct
  induction names generalizing list with
  | nil => exact List.Sublist.refl _
  | cons name names ih =>
    refine List.Sublist.trans ?_ ih
    unfold appendNew
    split
    · exact List.Sublist.refl _
    · exact List.sublist_append_left _ _

/-- **The names that a conversion adds are distinct** unless a statement assigns the one for the
whole value. -/
theorem nodup_addedNames :
    (addedNames program source id options).Nodup ↔
      ¬ (options.isEntry = false ∧ (findingsOf program source options).wrapped = false ∧
        valueExport ∈ assignedNames (Bindings.ofProgram program) program.body) := by
  rw [addedNames, names_layout, nodup_foldl_appendNew_iff, heldNames]
  cases options.isEntry with
  | true =>
    cases (findingsOf program source options).wrapped with
    | true => simp
    | false => simpa using (nodup_foldl_appendNew List.nodup_nil).filter _
  | false =>
    cases (findingsOf program source options).wrapped with
    | true => simp
    | false =>
      have others : (((assignedNames (Bindings.ofProgram program)
          program.body).foldl appendNew []).filter (· != "default")).Nodup :=
        (nodup_foldl_appendNew List.nodup_nil).filter _
      have named : valueExport ∈ ((assignedNames (Bindings.ofProgram program)
          program.body).foldl appendNew []).filter (· != "default") ↔
          valueExport ∈ assignedNames (Bindings.ofProgram program) program.body := by
        rw [List.mem_filter, mem_foldl_appendNew_iff]
        simp [valueExport]
      simp only [Bool.false_eq_true, if_false, true_and, List.singleton_append, List.nodup_cons,
        others, and_true, named]

/-- A module of which no default export is known exports a default in spite of that exactly if one of
its statements does so in a way that is not looked for. -/
theorem default_mem_exportedNames
    (none : (EsModuleInfo.ofProgram program).hasDefaultExport = false) :
    "default" ∈ program.exportedNames ↔
      ∃ s ∈ program.body, "default" ∈ s.exportedNames ∧ s.exportsDefault = false := by
  have unseen : ∀ s ∈ program.body, s.exportsDefault = false := by
    simpa [EsModuleInfo.ofProgram] using none
  rw [Program.exportedNames, List.mem_flatMap]
  exact exists_congr fun s => and_congr_right fun mem => (and_iff_left (unseen s mem)).symm

/-- **A converted module exports no name twice** if and only if its source does not, and the
conversion adds neither a name nor a default that the source exports, nor the name for the whole value
when a statement assigns an export of that name.  All that it adds is exported in a line of its
own. -/
theorem exports_distinct_iff (converted : convert program source id options = .ok (some out))
    (known : options.hasDefaultExport = (EsModuleInfo.ofProgram program).hasDefaultExport) :
    ∃ edited, Emitted program source id options out edited ∧
      (∀ line ∈ (layout program source id options).defaults ++
          (layout program source id options).exports.map Export.declaration,
        ClosingLine program source id options out edited line) ∧
      ((outputNames program source id options).Nodup ↔
        program.exportedNames.Nodup ∧ ¬ ExportedTwice program source id options) := by
  obtain ⟨edited, emitted⟩ := exists_emitted converted
  refine ⟨edited, emitted, fun line mem => emitted.closingLine (List.mem_append_left _ mem), ?_⟩
  have defaults : (layout program source id options).defaults.map (fun _ => "default") =
      if options.hasDefaultExport then [] else ["default"] := by
    show (if options.hasDefaultExport then [] else [_]).map _ = _
    split <;> rfl
  rw [outputNames, List.append_assoc, defaults]
  constructor
  · intro distinct
    obtain ⟨own, others, apart⟩ := List.nodup_append.mp distinct
    refine ⟨own, fun twice => ?_⟩
    cases twice with
    | kept own added => exact apart _ own _ (List.mem_append_right _ added) rfl
    | default mem named unseen added =>
      refine apart _ (List.mem_flatMap.mpr ⟨_, mem, named⟩) "default" ?_ rfl
      rw [added]
      exact List.mem_cons_self
    | value notEntry notWrapped assigned =>
      exact nodup_addedNames.mp (List.nodup_append.mp others).2.1 ⟨notEntry, notWrapped, assigned⟩
  · rintro ⟨own, once⟩
    have added : (addedNames program source id options).Nodup :=
      nodup_addedNames.mpr fun ⟨notEntry, notWrapped, assigned⟩ =>
        once (.value notEntry notWrapped assigned)
    have kept : ∀ name ∈ program.exportedNames, name ∉ addedNames program source id options :=
      fun name own added => once (.kept own added)
    cases given : options.hasDefaultExport with
    | true =>
      refine List.nodup_append.mpr ⟨own, added, ?_⟩
      rintro name own _ added rfl
      exact kept name own added
    | false =>
      refine List.nodup_append.mpr ⟨own, List.nodup_cons.mpr ⟨default_not_mem_names, added⟩, ?_⟩
      rintro name own _ mem rfl
      rcases List.mem_cons.mp mem with rfl | added
      · obtain ⟨s, mem, named, unseen⟩ :=
          (default_mem_exportedNames (known.symm.trans given)).mp own
        exact once (.default mem named unseen given)
      · exact kept name own added

/-! ## Names that are exported once, and names that are exported twice -/

set_option maxRecDepth 4000 in
/-- A module that exports a default, its value and a name, each of them once. -/
theorem plain_names_distinct :
    parseModule plainExportSource = .ok plainExportModule ∧
      ∃ out, convert plainExportModule plainExportSource "m" .plain = .ok (some out) ∧
        (outputNames plainExportModule plainExportSource "m" .plain).Nodup ∧
        ¬ ExportedTwice plainExportModule plainExportSource "m" .plain := by
  obtain ⟨out, converted⟩ := exists_of_isSome (show
    (convert plainExportModule plainExportSource "m" .plain).toOption.join.isSome = true by
      decide +kernel)
  obtain ⟨edited, -, -, distinct⟩ := exports_distinct_iff converted (by decide +kernel)
  have once : (outputNames plainExportModule plainExportSource "m" .plain).Nodup := by
    decide +kernel
  exact ⟨rfl, out, converted, once, (distinct.mp once).2⟩

/-- A module that exports a name by itself and assigns it. -/
def hybridSource : List Char := "export var a; exports.a = b;".toList

/-- The tree of `hybridSource`. -/
def hybridModule : Program :=
  ⟨[.exportDeclaration ⟨0, 13⟩
      (.variables ⟨7, 13⟩ .var [.mk ⟨11, 12⟩ (.binding ⟨⟨11, 12⟩, "a"⟩) none]),
    .expression ⟨14, 28⟩ (.assign ⟨14, 27⟩ true
      (.target (.member ⟨14, 23⟩ (.name ⟨14, 21⟩ "exports") "a")) (.name ⟨26, 27⟩ "b"))]⟩

/-- A module that exports another one as its default. -/
def starSource : List Char := "export * as default from 'a'; require('b');".toList

/-- The tree of `starSource`. -/
def starModule : Program :=
  ⟨[.exportAll ⟨0, 29⟩ (some ⟨⟨12, 19⟩, "default", false⟩),
    .expression ⟨30, 43⟩
      (.call ⟨30, 42⟩ (.name ⟨30, 37⟩ "require") [.literal ⟨38, 41⟩ (.string "b")])]⟩

/-- A module that assigns an export of the name for the whole value. -/
def valueNameSource : List Char := "var b; exports.__moduleExports = b;".toList

/-- The tree of `valueNameSource`. -/
def valueNameModule : Program :=
  ⟨[.variables ⟨0, 6⟩ .var [.mk ⟨4, 5⟩ (.binding ⟨⟨4, 5⟩, "b"⟩) none],
    .expression ⟨7, 35⟩ (.assign ⟨7, 34⟩ true
      (.target (.member ⟨7, 30⟩ (.name ⟨7, 14⟩ "exports") "__moduleExports"))
      (.name ⟨33, 34⟩ "b"))]⟩

/-- A text is refused because a name is exported a second time. -/
def repeatsExport (text : List Char) (name : String) : Bool :=
  match parseModule text with
  | .error problem => problem.cause == .duplicateExport name
  | .ok _ => false

/-- A module that is known not to have a default export is converted, and exports a name twice. -/
def ConvertsToRepetition (program : Program) (source : List Char) (out : Converted) : Prop :=
  (EsModuleInfo.ofProgram program).hasDefaultExport = false ∧
    convert program source "m" .plain = .ok (some out) ∧
    ¬ (outputNames program source "m" .plain).Nodup

set_option maxRecDepth 4000 in
/-- In each of the three ways a module is converted to a text that exports a name twice, which no
module does. -/
theorem exported_twice :
    (parseModule hybridSource = .ok hybridModule ∧
      ∃ out, ConvertsToRepetition hybridModule hybridSource out ∧
        repeatsExport out.code.toList "a" = true) ∧
    (parseModule starSource = .ok starModule ∧
      ∃ out, ConvertsToRepetition starModule starSource out) ∧
    (parseModule valueNameSource = .ok valueNameModule ∧
      ∃ out, ConvertsToRepetition valueNameModule valueNameSource out) := by
  refine ⟨⟨rfl, ?_⟩, ⟨rfl, ?_⟩, ⟨rfl, ?_⟩⟩
  · obtain ⟨out, converted, repeated⟩ := exists_of_any (show
      (convert hybridModule hybridSource "m" .plain).toOption.join.any
        (fun out => repeatsExport out.code.toList "a") = true by decide +kernel)
    exact ⟨out, ⟨by decide +kernel, converted, by decide +kernel⟩, repeated⟩
  · obtain ⟨out, converted⟩ := exists_of_isSome (show
      (convert starModule starSource "m" .plain).toOption.join.isSome = true by decide +kernel)
    exact ⟨out, by decide +kernel, converted, by decide +kernel⟩
  · obtain ⟨out, converted⟩ := exists_of_isSome (show
      (convert valueNameModule valueNameSource "m" .plain).toOption.join.isSome = true by
        decide +kernel)
    exact ⟨out, by decide +kernel, converted, by decide +kernel⟩

end ModuleInterop.Conversion
