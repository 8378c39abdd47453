import ModuleInterop.SourceMap.Mapping
import ModuleInterop.Virtual.Proxy
import ModuleInterop.Conversion.Exports

/-!
# The converted module

The text of a converted module: imports, the edited text of the module, in a function if it is
wrapped, and exports.  A module that is not wrapped and does not assign its value as a whole gets
its value from the variables that stand for its exports.
-/

set_option autoImplicit false

namespace ModuleInterop.Conversion

open ModuleInterop.Syntax ModuleInterop.Scope ModuleInterop.Patch ModuleInterop.Virtual
  ModuleInterop.Text

/-- A converted module. -/
structure Converted where
  code : String
  map : Option SourceMap
  /-- The targets of `require` in the order of their first use. -/
  sources : List String
  /-- The names that the conversion exports, the default and the whole value aside. -/
  namedExports : List String
  /-- The conversion adds a default export. -/
  addsDefaultExport : Bool
  wrapped : Bool
  deriving DecidableEq, Repr

/-- Lines of text, each but the last ended by a line feed. -/
def joinLines (lines : List String) : String := String.intercalate "\n" lines

/-- The import that binds the value of a required module, through its proxy. -/
def valueImport (name target : String) : String :=
  "import " ++ name ++ " from " ++ quote (proxyId target) ++ ";"

/-- The imports that required modules call for: one that runs each module, then one for each
proxy. -/
def importLines (required : List RequiredModule) : List String :=
  (required.map fun entry => "import " ++ quote entry.target ++ ";") ++
    required.map fun entry =>
      if entry.bindsValue then valueImport entry.name entry.target
      else "import " ++ quote (proxyId entry.target) ++ ";"

/-- The import of the helpers. -/
def helpersImport (helpersName : String) : String :=
  "import * as " ++ helpersName ++ " from " ++ quote helpersId ++ ";"

/-- The lines of the imports of a converted module. -/
def allImports (required : List RequiredModule) (helpersName : String) (helpers : Bool) :
    List String :=
  (if helpers then [helpersImport helpersName] else []) ++ importLines required

/-- The imports of a converted module, with an empty line after them. -/
def importBlock (required : List RequiredModule) (helpersName : String) (helpers : Bool) :
    String :=
  joinLines (allImports required helpersName helpers) ++ "\n\n"

/-- The parameters of the function that a wrapped module becomes. -/
def wrapperParameters (usesExports : Bool) : List String :=
  if usesExports then ["module", "exports"] else ["module"]

/-- The function that a wrapped module becomes, up to its body. -/
def wrapperHead (valueName helpersName : String) (usesExports : Bool) : String :=
  "var " ++ valueName ++ " = " ++ helpersName ++ "." ++ wrapHelper ++ "(function (" ++
    String.intercalate ", " (wrapperParameters usesExports) ++ ") \x7b"

/-- What stands before the body of a wrapped module. -/
def wrapperStart (valueName helpersName : String) (usesExports : Bool) : String :=
  wrapperHead valueName helpersName usesExports ++ "\n"

/-- What stands after the body of a wrapped module. -/
def wrapperEnd : String := "\n\x7d);"

/-- The declaration of the module's value as an object of the variables that stand for its
exports. -/
def valueObject (valueName : String) (entries : List (String × String)) : String :=
  "\n\nvar " ++ valueName ++ " = \x7b\n" ++
    String.intercalate ",\n" (entries.map fun v => "\t" ++ v.1 ++ ": " ++ v.2) ++ "\n\x7d;"

/-- The default export of the module's value. -/
def defaultExport (valueName helpersName : String) (compiled : Bool) : String :=
  if compiled then
    "export default " ++ helpersName ++ "." ++ unwrapHelper ++ "(" ++ valueName ++ ");"
  else "export default " ++ valueName ++ ";"

/-- The edited text of a module that has been analysed, and what it exports. -/
structure Body where
  edits : List Edit
  before : String
  after : String
  exports : List Export
  /-- Assignments that bring the variables of exports into the value that was assigned as a
  whole. -/
  assignments : List String
  scopes : ScopeTree

/-- The body of a wrapped module. -/
def wrappedBody (frame : Frame) (findings : Findings) (valueName : String) (scopes : ScopeTree)
    (exports : List Export) : Body :=
  { edits := findings.edits
    before := wrapperStart valueName frame.helpersName findings.usesExports
    after := wrapperEnd, exports, assignments := [], scopes }

/-- The body of a module that is not wrapped. -/
def openBody (frame : Frame) (bindings : Bindings) (program : Program) (findings : Findings)
    (valueName : String) (scopes : ScopeTree) (exports : List Export) : Body :=
  let locals := program.body.foldl (Locals.step bindings frame.freeNames valueName)
    ⟨findings.edits, scopes, [], false⟩
  let shown := locals.entries.filter fun v => v.1 != "default"
  { edits := locals.edits
    before := ""
    after := if locals.assignsValue then "" else valueObject valueName locals.entries
    exports := exports ++ shown.map fun v => exportOfVariable v.1 v.2
    assignments :=
      if locals.assignsValue then
        locals.entries.map fun v => valueName ++ "." ++ v.1 ++ " = " ++ v.2 ++ ";"
      else []
    scopes := locals.scopes }

/-- The body of a module. -/
def bodyOf (frame : Frame) (bindings : Bindings) (program : Program) (findings : Findings)
    (valueName : String) (scopes : ScopeTree) (exports : List Export) : Body :=
  if findings.wrapped then wrappedBody frame findings valueName scopes exports
  else openBody frame bindings program findings valueName scopes exports

/-- The pieces that the text of a converted module is made of. -/
structure Layout where
  imports : String
  body : Body
  /-- The default export, unless the module has one of its own. -/
  defaults : List String
  /-- All other exports. -/
  exports : List Export

/-- The pieces that the uses in a module call for; `compiled` tells whether its text has the mark of
modules compiled to this format. -/
def layoutOf (frame : Frame) (bindings : Bindings) (program : Program) (id : String)
    (compiled : Bool) (findings : Findings) : Layout :=
  let (valueName, scopes) :=
    claimName findings.scopes ScopeTree.root frame.freeNames (nameOfId id)
  let first := if frame.options.isEntry then [] else [exportOfValue valueName]
  let body := bodyOf frame bindings program findings valueName scopes first
  let (_, exports) :=
    (propertyExports frame.options.namedExports findings.exported).foldl
      (addProperty frame.freeNames valueName) (body.scopes, body.exports)
  { imports := importBlock findings.required frame.helpersName findings.needsHelpers
    body
    defaults :=
      if frame.options.hasDefaultExport then []
      else [defaultExport valueName frame.helpersName compiled]
    exports }

namespace Layout

/-- What stands before the edited text. -/
def lead (layout : Layout) : String := layout.imports ++ layout.body.before

/-- What stands after the edited text. -/
def trail (layout : Layout) : String :=
  layout.body.after ++ ("\n\n" ++
    joinLines (layout.defaults ++ layout.exports.map Export.declaration ++ layout.body.assignments))

/-- Puts the pieces and the edited source together. -/
def write (layout : Layout) (source : List Char) : Except Patch.Problem Output := do
  let edited ← Patch.apply source layout.body.edits
  return ((edited.trim.prepend layout.lead.toList).trim).append layout.trail.toList

end Layout

/-- The source map of an output, if one is wanted. -/
def mapOf (wanted : Bool) (output : Output) (id : String) :
    Except Patch.Problem (Option SourceMap) :=
  if wanted then (SourceMap.ofOutput output id).map some else .ok none

/-- Puts a converted module together from what its uses call for. -/
def assemble (frame : Frame) (bindings : Bindings) (program : Program) (source : List Char)
    (id : String) (compiled : Bool) (findings : Findings) : Except Patch.Problem Converted := do
  let layout := layoutOf frame bindings program id compiled findings
  let output ← layout.write source
  let map ← mapOf frame.options.sourceMap output id
  return {
    code := String.ofList output.code
    map
    sources := findings.required.map RequiredModule.target
    namedExports := (layout.exports.map Export.name).filter (· != valueExport)
    addsDefaultExport := !layout.defaults.isEmpty
    wrapped := findings.wrapped }

end ModuleInterop.Conversion
