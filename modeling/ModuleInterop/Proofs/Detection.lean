import ModuleInterop.Proofs.Syntax.Names
import ModuleInterop.Proofs.Conversion.Distinct

/-!
# What a module shows of being an ES module

A module that has been read shows whether one of its statements is an import or an export, and, but for
one form of export, whether it has a default export (`esModuleInfo_exact`).  A declaration that is
exported cannot be named `default`, because that word is reserved, so the name is introduced by a default
export, by an entry of an export list, or as the name for everything that another module exports.  The
last one is not looked for (`default_mem_exportedNames_iff`, `allAsDefault_unseen`).
-/

set_option autoImplicit false

namespace ModuleInterop.Syntax

/-- Import and export declarations, form by form. -/
inductive Stmt.ImportsOrExports : Stmt → Prop
  | importing {span : Span} {bindings : List Name} : ImportsOrExports (.importing span bindings)
  | exportDefault {span : Span} {value : Expr} : ImportsOrExports (.exportDefault span value)
  | exportDefaultDeclaration {span : Span} {declaration : Expr} :
    ImportsOrExports (.exportDefaultDeclaration span declaration)
  | exportDeclaration {span : Span} {declaration : Stmt} :
    ImportsOrExports (.exportDeclaration span declaration)
  | exportNames {span : Span} {specifiers : List ExportSpecifier} {taken : Option String} :
    ImportsOrExports (.exportNames span specifiers taken)
  | exportAll {span : Span} {exported : Option ExternalName} :
    ImportsOrExports (.exportAll span exported)

theorem Stmt.isModuleItem_iff {s : Stmt} : s.isModuleItem = true ↔ s.ImportsOrExports := by
  constructor
  · intro item
    cases s <;> first | contradiction | constructor
  · rintro (_ | _) <;> rfl

variable {source : List Char} {program : Program}

/-- No declaration that is exported binds the name `default`. -/
theorem default_not_declared (parsed : parseModule source = .ok program) {span : Span} {d : Stmt}
    (mem : .exportDeclaration span d ∈ program.body) :
    "default" ∉ (Stmt.exportDeclaration span d).exportedNames := by
  intro exported
  obtain ⟨name, declared, named⟩ := List.mem_map.mp exported
  have reaches : program.Reaches (fun _ => none) (fun _ => true) (.stmt .exported false d) :=
    .part (.statement mem) rfl List.mem_cons_self
  obtain ⟨node, reaches, declares⟩ := reaches.exists_declaring declared
  have free := (reaches.usable parsed declares).notReserved
  rw [named] at free
  exact absurd free (by decide)

/-- **What exports the name `default`**: a statement that is seen to do so, or one that exports
everything of another module under this name. -/
theorem default_mem_exportedNames_iff (parsed : parseModule source = .ok program) :
    "default" ∈ program.exportedNames ↔
      (EsModuleInfo.ofProgram program).hasDefaultExport = true ∨
        ∃ span name, .exportAll span (some name) ∈ program.body ∧ name.text = "default" := by
  constructor
  · intro exported
    obtain ⟨s, mem, named⟩ := List.mem_flatMap.mp exported
    have seen (exports : s.exportsDefault = true) :
        (EsModuleInfo.ofProgram program).hasDefaultExport = true :=
      List.any_eq_true.mpr ⟨s, mem, exports⟩
    cases s with
    | exportDefault | exportDefaultDeclaration => exact .inl (seen rfl)
    | exportDeclaration span d => exact absurd named (default_not_declared parsed mem)
    | exportNames span entries taken =>
      obtain ⟨entry, among, same⟩ := List.mem_map.mp named
      exact .inl (seen (List.any_eq_true.mpr ⟨entry, among, beq_iff_eq.mpr same⟩))
    | exportAll span name =>
      cases name with
      | none => contradiction
      | some name => exact .inr ⟨span, name, mem, (List.mem_singleton.mp named).symm⟩
    | _ => contradiction
  · rintro (seen | ⟨span, name, mem, named⟩)
    · obtain ⟨s, mem, exports⟩ := List.any_eq_true.mp seen
      exact List.mem_flatMap.mpr ⟨s, mem, s.default_mem_exportedNames exports⟩
    · exact List.mem_flatMap.mpr ⟨_, mem, List.mem_singleton.mpr named.symm⟩

/-- **What is shown of a module is exact**, unless it exports everything of another module as its
default: it shows to be an ES module exactly if one of its statements is an import or an export, and to
have a default export exactly if `default` is among the names that it exports. -/
theorem esModuleInfo_exact (parsed : parseModule source = .ok program)
    (others : ∀ span name, .exportAll span (some name) ∈ program.body → name.text ≠ "default") :
    ((EsModuleInfo.ofProgram program).isEsModule = true ↔
        ∃ s ∈ program.body, s.ImportsOrExports) ∧
      ((EsModuleInfo.ofProgram program).hasDefaultExport = true ↔
        "default" ∈ program.exportedNames) := by
  constructor
  · simp only [EsModuleInfo.ofProgram, List.any_eq_true, Stmt.isModuleItem_iff]
  · refine Iff.trans ?_ (default_mem_exportedNames_iff parsed).symm
    refine (or_iff_left ?_).symm
    rintro ⟨span, name, mem, named⟩
    exact others span name mem named

/-- An import, and an export list. -/
def listSource : List Char := "import a from 'b'; export \x7b a as default \x7d;".toList

/-- The tree of `listSource`. -/
def listModule : Program :=
  ⟨[.importing ⟨0, 18⟩ [⟨⟨7, 8⟩, "a"⟩],
    .exportNames ⟨19, 43⟩ [⟨⟨⟨28, 29⟩, "a", false⟩, ⟨⟨33, 40⟩, "default", false⟩⟩] none]⟩

set_option maxRecDepth 4000 in
/-- The import and the default export are seen. -/
theorem list_seen :
    parseModule listSource = .ok listModule ∧
      (∀ span name, .exportAll span (some name) ∈ listModule.body → name.text ≠ "default") ∧
      (EsModuleInfo.ofProgram listModule).isEsModule = true ∧
      (EsModuleInfo.ofProgram listModule).hasDefaultExport = true := by
  have parsed : parseModule listSource = .ok listModule := by rfl
  have others : ∀ span name, .exportAll span (some name) ∈ listModule.body →
      name.text ≠ "default" := by simp [listModule]
  obtain ⟨module, default⟩ := esModuleInfo_exact parsed others
  exact ⟨parsed, others, module.mpr ⟨_, List.mem_cons_self, .importing⟩,
    default.mpr (by decide)⟩

/-- An export of everything as the default. -/
def allSource : List Char := "export * as default from 'a';".toList

/-- The tree of `allSource`. -/
def allModule : Program := ⟨[.exportAll ⟨0, 29⟩ (some ⟨⟨12, 19⟩, "default", false⟩)]⟩

set_option maxRecDepth 4000 in
/-- A module exports the name `default`, and no default export of it is seen. -/
theorem allAsDefault_unseen :
    parseModule allSource = .ok allModule ∧ "default" ∈ allModule.exportedNames ∧
      EsModuleInfo.ofProgram allModule = ⟨true, false⟩ :=
  ⟨rfl, List.mem_singleton.mpr rfl, rfl⟩

end ModuleInterop.Syntax
