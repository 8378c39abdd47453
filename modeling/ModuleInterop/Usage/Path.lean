import ModuleInterop.Text.Identifier
import ModuleInterop.Scope.Bindings
import ModuleInterop.Usage.Basic

/-!
# Paths to the module's value

A path is a name with properties after it, as in `module.exports.x`.  Only the free names `module`
and `exports` lead to the value of the module.
-/

set_option autoImplicit false

namespace ModuleInterop.Usage

open ModuleInterop.Syntax ModuleInterop.Scope ModuleInterop.Text

/-- The position of the name that a path begins with, and the names along the path. -/
def path? : Expr → Option (Nat × List String)
  | .name span text => some (span.start, [text])
  | .member _ object property => (path? object).map fun path => (path.1, path.2 ++ [property])
  | _ => none

/-- The names along a path that begins with a free name. -/
def freePath? (bindings : Bindings) (e : Expr) : Option (List String) :=
  match path? e with
  | some (offset, names) => if bindings.isFreeAt offset then some names else none
  | none => none

/-- Whether a property can be exported under its own name: it is an ASCII identifier. -/
def isExportable (name : String) : Bool :=
  match name.toList with
  | [] => false
  | c :: text => isAsciiIdentifierStart c && text.all isAsciiIdentifierPart

/-- What an assignment to a path exports. -/
def exportOfPath? : List String → Option ExportPath
  | ["module", "exports"] => some ⟨.module, none⟩
  | ["exports", name] => if isExportable name then some ⟨.exports, some name⟩ else none
  | ["module", "exports", name] => if isExportable name then some ⟨.module, some name⟩ else none
  | _ => none

/-- What an assignment to a target exports. -/
def exportPath? (bindings : Bindings) : Pattern → Option ExportPath
  | .target place => (freePath? bindings place).bind exportOfPath?
  | _ => none

/-- The name that a path to an object which every module has begins with. -/
def objectOfPath? : List String → Option ModuleName
  | ["module"] | ["module", "exports"] => some .module
  | ["exports"] => some .exports
  | _ => none

/-- The name that an expression for such an object begins with. -/
def objectRoot? (bindings : Bindings) (e : Expr) : Option ModuleName :=
  (freePath? bindings e).bind objectOfPath?

/-- The text of a string, or of a template without values. -/
def fixedText? : Expr → Option String
  | .literal _ (.string text) => some text
  | .template _ (text :: _) [] => text
  | _ => none

/-- The call of `require` that an expression is, if an import can stand for it: the name is free and
the only argument is a fixed text that is not to be left alone. -/
def requireCall? (bindings : Bindings) (ignored : List String) : Expr → Option RequireCall
  | .call span (.name callee name) [argument] =>
    if name = "require" ∧ bindings.isFreeAt callee.start = true then
      match fixedText? argument with
      | some target =>
        if ignored.contains target then none
        else some ⟨span, target, bindings.scopeAt callee.start⟩
      | none => none
    else none
  | _ => none

end ModuleInterop.Usage
