import ModuleInterop.Virtual.Proxy
import ModuleInterop.Proofs.Syntax.SelfContained

/-!
# Proxies are modules of their own

The text of a proxy is put together from a name that any target gives and from the quoted target.  It is
read as a module that names the target and, where it uses a helper, the module of the helpers, that
refers to nothing but what it imports, and that exports a default and nothing else
(`proxies_selfContained`).  What it imports has different names unless the target gives the name of the
helper itself: the name of the helper is written beside the other one without a look at it
(`helper_bound_twice`).
-/

set_option autoImplicit false

namespace ModuleInterop.Virtual

open ModuleInterop.Text ModuleInterop.Syntax

variable {target : String}

/-! ## The name -/

theorem identifier_nameOf (id : List Char) : AsciiIdentifier (nameOf id) := by
  rw [nameOf_eq]
  exact identifier_legalize _

theorem freeWord_nameOfId (id : String) : FreeWord (Keyword.ofText? (nameOfId id)) := by
  refine freeWord_of_not_reserved ?_
  rw [nameOfId, nameOf_eq]
  exact legalize_not_reserved _

/-! ## The texts -/

section Texts

variable (target)

/-- The proxy of a module with a default export. -/
theorem exists_selfContained_default : ∃ program,
    SelfContained (proxyModule target .esmWithDefault) [target] program ∧ program.importedNames = [] := by
  have text : (proxyModule target .esmWithDefault).toList =
      "export".toList ++ ' ' :: '{' :: ("default".toList ++ '}' ::
        ' ' :: ("from".toList ++ ' ' :: ((quote target).toList ++ [';']))) := by
    show ("export \x7bdefault\x7d from " ++ quote target ++ ";").toList = _
    simp
  refine exists_selfContained_from ?_ ?_ ?_
  · simp [text]
  · simp [text]
  rw [text]
  refine .spelled (by decide) (by decide) endsName_space (.space (.mark (by decide) (by decide) rfl ?_))
  refine .spelled (by decide) (by decide) (endsName_cons (by decide)) ?_
  refine .mark (by decide) (by decide) rfl (spells_from fun pos => ?_)
  exact .mark (by decide) (by decide) rfl .endOfInput

/-- The proxy of a converted module. -/
theorem exists_selfContained_cjs : ∃ program,
    SelfContained (proxyModule target .cjs) [target] program ∧
      program.importedNames = ["__moduleExports"] := by
  have text : (proxyModule target .cjs).toList =
      "import".toList ++ ' ' :: '{' :: ([' '] ++ ("__moduleExports".toList ++ ([' '] ++ '}' ::
        ' ' :: ("from".toList ++ ' ' :: ((quote target).toList ++ (';' :: ' ' :: ("export".toList ++
          ' ' :: ("default".toList ++ ' ' :: ("__moduleExports".toList ++ [';']))))))))) := by
    show ("import \x7b __moduleExports \x7d from " ++ quote target ++
      "; export default __moduleExports;").toList = _
    simp
  refine exists_selfContained_import ?_ ?_ .list (show FreeWord none from nofun) ?_
  · simp [text]
  · simp [text]
  rw [text]
  refine spells_listImport true (by decide) (fun pos => spells_export fun pos => ?_) (by decide)
  exact spells_lastName (by decide)

/-- The proxy of a module without a default export. -/
theorem exists_selfContained_namespace : ∃ program,
    SelfContained (proxyModule target .esmWithoutDefault) [target] program ∧
      program.importedNames = [nameOfId target] := by
  have text : (proxyModule target .esmWithoutDefault).toList =
      "import".toList ++ ' ' :: '*' :: ' ' :: ("as".toList ++ ' ' :: (nameOf target.toList ++
        ' ' :: ("from".toList ++ ' ' :: ((quote target).toList ++ (';' :: ' ' :: ("export".toList ++
          ' ' :: ("default".toList ++ ' ' :: (nameOf target.toList ++ [';'])))))))) := by
    show ("import * as " ++ nameOfId target ++ " from " ++ quote target ++ "; export default " ++
      nameOfId target ++ ";").toList = _
    simp [nameOfId]
  refine exists_selfContained_import ?_ ?_ (.whole (freeWord_nameOfId target))
    (freeWord_nameOfId target) ?_
  · simp [text]
  · simp [text]
  rw [text]
  refine spells_namespaceImport (identifier_nameOf _) fun pos => spells_export fun pos => ?_
  exact spells_lastName (identifier_nameOf _)

/-- The proxy of an external module. -/
theorem exists_selfContained_external : ∃ program,
    SelfContained (externalProxy target) [target] program ∧
      program.importedNames = [nameOfId target] := by
  have text : (externalProxy target).toList =
      "import".toList ++ ' ' :: (nameOf target.toList ++
        ' ' :: ("from".toList ++ ' ' :: ((quote target).toList ++ (';' :: ' ' :: ("export".toList ++
          ' ' :: ("default".toList ++ ' ' :: (nameOf target.toList ++ [';']))))))) := by
    simp [externalProxy, nameOfId]
  refine exists_selfContained_import ?_ ?_ (.default (freeWord_nameOfId target))
    (freeWord_nameOfId target) ?_
  · simp [text]
  · simp [text]
  rw [text]
  refine spells_defaultImport (identifier_nameOf _) fun pos => spells_export fun pos => ?_
  exact spells_lastName (identifier_nameOf _)

/-- The proxy of a module of which nothing is known. -/
theorem exists_selfContained_unknown : ∃ program,
    SelfContained (proxyModule target .unknown) [target, helpersId] program ∧
      program.importedNames = [nameOfId target, namespaceHelper] := by
  have text : (proxyModule target .unknown).toList =
      "import".toList ++ ' ' :: '*' :: ' ' :: ("as".toList ++ ' ' :: (nameOf target.toList ++
        ' ' :: ("from".toList ++ ' ' :: ((quote target).toList ++ (';' :: ' ' ::
          ("import".toList ++ ' ' :: '{' :: ([] ++ (namespaceHelper.toList ++ ([] ++ '}' ::
            ' ' :: ("from".toList ++ ' ' :: ((quote helpersId).toList ++ (';' :: ' ' ::
              ("export".toList ++ ' ' :: ("default".toList ++ ' ' :: (namespaceHelper.toList ++
                '(' :: (nameOf target.toList ++ [')'])))))))))))))))) := by
    show ("import * as " ++ nameOfId target ++ " from " ++ quote target ++ "; import \x7b" ++
      namespaceHelper ++ "\x7d from " ++ quote helpersId ++ "; export default " ++ namespaceHelper ++
      "(" ++ nameOfId target ++ ")").toList = _
    simp [nameOfId]
  refine exists_selfContained_call ?_ ?_ (.whole (freeWord_nameOfId target))
    (freeWord_nameOfId target) ?_
  · simp [text]
  · simp [text]
  rw [text]
  refine spells_namespaceImport (identifier_nameOf _) fun pos => ?_
  refine .mark (by decide) (by decide) rfl (.space ?_)
  refine spells_listImport false (by decide) (fun pos => spells_export fun pos => ?_) (by decide)
  refine .spelled (by decide) (by decide) (endsName_cons (by decide)) (.mark (by decide) (by decide) rfl ?_)
  refine .word (identifier_nameOf _) (endsName_cons (by decide)) ?_
  exact .mark (by decide) (by decide) rfl .endOfInput

end Texts

/-- The modules that the proxy of a module names. -/
def proxySources (target : String) : Classification → List String
  | .unknown => [target, helpersId]
  | .cjs | .esmWithDefault | .esmWithoutDefault => [target]

/-- **Proxies are modules of their own**, whatever is known of the module that they stand for: they name
it, refer to what they import, and export a default.  The names of what they import differ unless nothing
is known of the module and it has the name of the helper. -/
theorem proxies_selfContained (target : String) :
    (∀ classification, ∃ program,
      SelfContained (proxyModule target classification) (proxySources target classification) program ∧
        (program.importedNames.Nodup ↔
          (classification = .unknown → nameOfId target ≠ namespaceHelper))) ∧
      ∃ program, SelfContained (externalProxy target) [target] program ∧
        program.importedNames.Nodup := by
  constructor
  · intro classification
    cases classification with
    | esmWithDefault =>
      obtain ⟨program, own, imported⟩ := exists_selfContained_default target
      exact ⟨program, own, by simp [imported]⟩
    | esmWithoutDefault =>
      obtain ⟨program, own, imported⟩ := exists_selfContained_namespace target
      exact ⟨program, own, by simp [imported]⟩
    | cjs =>
      obtain ⟨program, own, imported⟩ := exists_selfContained_cjs target
      exact ⟨program, own, by simp [imported]⟩
    | unknown =>
      obtain ⟨program, own, imported⟩ := exists_selfContained_unknown target
      exact ⟨program, own, by simp [imported]⟩
  · obtain ⟨program, own, imported⟩ := exists_selfContained_external target
    exact ⟨program, own, by simp [imported]⟩

/-- **A name that is bound twice**: the proxy of a module whose file is named for the helper. -/
theorem helper_bound_twice : ∃ program,
    parseModule (proxyModule "getCjsExportFromNamespace.js" .unknown).toList = .ok program ∧
      program.importedNames = ["getCjsExportFromNamespace", "getCjsExportFromNamespace"] ∧
      ¬ program.importedNames.Nodup := by
  obtain ⟨program, own, imported⟩ := exists_selfContained_unknown "getCjsExportFromNamespace.js"
  have name : nameOfId "getCjsExportFromNamespace.js" = "getCjsExportFromNamespace" := by decide
  rw [name] at imported
  exact ⟨program, own.read, imported, by rw [imported]; decide⟩

end ModuleInterop.Virtual
