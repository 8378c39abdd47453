import ModuleInterop.Conversion.Findings

/-!
# Export declarations

How the exports of a converted module are declared.  Where the module is not wrapped, each
assignment to an export at the top level becomes the declaration of a local variable or a further
assignment to it (`Locals`), and the variable is exported.  All other names that the module is known
to export are taken from its value once it has run.
-/

set_option autoImplicit false

namespace ModuleInterop.Conversion

open ModuleInterop.Syntax ModuleInterop.Scope ModuleInterop.Usage ModuleInterop.Patch

/-- A name that is exported, and the text that declares it. -/
structure Export where
  name : String
  declaration : String
  deriving DecidableEq, Repr

/-- The name under which a module exports its whole value to proxies. -/
def valueExport : String := "__moduleExports"

/-- The variables that stand for exports. -/
structure Locals where
  edits : List Edit
  scopes : ScopeTree
  /-- Exported names, in the order of their first assignment, with their variables. -/
  entries : List (String × String)
  /-- The value of the module is assigned as a whole. -/
  assignsValue : Bool
  deriving DecidableEq, Repr

namespace Locals

/-- The variable of an exported name. -/
def localName? (locals : Locals) (name : String) : Option String :=
  (locals.entries.find? fun v => v.1 == name).map (·.2)

/-- Replaces a stretch of the text. -/
def replace (locals : Locals) (start stop : Nat) (text : String) : Locals :=
  { locals with edits := overwrite locals.edits start stop text.toList }

/-- Takes one statement of the module.  An assignment that exports declares a variable, the first
time, and then assigns to it. -/
def step (bindings : Bindings) (freeNames : List String) (valueName : String) (locals : Locals) :
    Stmt → Locals
  | .expression span (.assign _ _ target _) =>
    match exportPath? bindings target with
    | none => locals
    | some ⟨_, none⟩ =>
      { locals with assignsValue := true }.replace target.span.start target.span.stop
        ("var " ++ valueName)
    | some ⟨_, some name⟩ =>
      match locals.localName? name with
      | some variableName => locals.replace span.start target.span.stop variableName
      | none =>
        let (variableName, scopes) := claimName locals.scopes ScopeTree.root freeNames name
        { locals with
          scopes
          entries := locals.entries ++ [(name, variableName)] }.replace
            span.start target.span.stop ("var " ++ variableName)
  | _ => locals

end Locals

/-- The export of a variable. -/
def exportOfVariable (name variableName : String) : Export :=
  ⟨name, if variableName = name then "export \x7b " ++ name ++ " \x7d;"
    else "export \x7b " ++ variableName ++ " as " ++ name ++ " \x7d;"⟩

/-- The export of a property of the module's value, through a variable. -/
def exportOfProperty (valueName name variableName : String) : Export :=
  let value := " = " ++ valueName ++ "." ++ name ++ ";"
  ⟨name, if variableName = name then "export var " ++ name ++ value
    else "var " ++ variableName ++ value ++ "\nexport \x7b " ++ variableName ++ " as " ++ name ++
      " \x7d;"⟩

/-- The export of the whole value for proxies. -/
def exportOfValue (valueName : String) : Export :=
  ⟨valueExport, "export \x7b " ++ valueName ++ " as " ++ valueExport ++ " \x7d;"⟩

/-- Exports a property of the module's value, unless its name is exported already. -/
def addProperty (freeNames : List String) (valueName : String) (state : ScopeTree × List Export)
    (name : String) : ScopeTree × List Export :=
  if state.2.any fun e => e.name == name then state
  else
    let (variableName, scopes) := claimName state.1 ScopeTree.root freeNames name
    (scopes, state.2 ++ [exportOfProperty valueName name variableName])

/-- The names of properties to export: those that the module is configured to export, and those that
its text assigns, as far as they can be names. -/
def propertyExports (configured assigned : List String) : List String :=
  (configured.filter fun name => name != "default" && isLegal name.toList) ++
    (assigned.filter fun name => !unavailable.contains name)

end ModuleInterop.Conversion
