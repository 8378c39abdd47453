import ModuleInterop.Text.Word
import ModuleInterop.Syntax.Tree

/-!
# Telling modules apart

Which modules need a conversion.  Two tests look at the text alone, and a text that fails both needs
not even be read: whether it has a CommonJS name as a word, and whether it has `import` or `export`
as a word.  A module that has been read shows whether it is an ES module and has a default export.
-/

set_option autoImplicit false

namespace ModuleInterop

open ModuleInterop.Syntax ModuleInterop.Text

/-- The names that a CommonJS module uses. -/
def commonJsWords (ignoreGlobal : Bool) : List (List Char) :=
  (if ignoreGlobal then ["require", "module", "exports"]
    else ["require", "module", "exports", "global"]).map String.toList

/-- Whether a text has the name of something that a CommonJS module uses. -/
def hasCommonJsWord (text : List Char) (ignoreGlobal : Bool) : Bool :=
  containsWord (commonJsWords ignoreGlobal) text

/-- Whether a text has one of the words that begin imports and exports. -/
def hasModuleWord (text : List Char) : Bool :=
  containsWord ["import".toList, "export".toList] text

/-- The property that marks modules which were compiled from ES modules. -/
def compiledMark : List Char := "__esModule".toList

/-- Whether a text has the mark of modules that were compiled from ES modules. -/
def hasCompiledMark (text : List Char) : Bool := containsText compiledMark text

/-- What a module shows of being an ES module. -/
structure EsModuleInfo where
  isEsModule : Bool
  hasDefaultExport : Bool
  deriving DecidableEq, Repr, Inhabited

/-- A module without imports and exports. -/
def EsModuleInfo.none : EsModuleInfo := ⟨false, false⟩

/-- Whether a statement imports or exports. -/
def Syntax.Stmt.isModuleItem : Stmt → Bool
  | .importing _ _ | .exportDefault _ _ | .exportDefaultDeclaration _ _ | .exportDeclaration _ _
  | .exportNames _ _ _ | .exportAll _ _ => true
  | _ => false

/-- Whether a statement is a default export, or lists the name `default` among its exports. -/
def Syntax.Stmt.exportsDefault : Stmt → Bool
  | .exportDefault _ _ | .exportDefaultDeclaration _ _ => true
  | .exportNames _ specifiers _ => specifiers.any fun s => s.exported.text == "default"
  | _ => false

/-- What a module shows of being an ES module. -/
def EsModuleInfo.ofProgram (program : Program) : EsModuleInfo :=
  ⟨program.body.any Stmt.isModuleItem, program.body.any Stmt.exportsDefault⟩

end ModuleInterop
