import ModuleInterop.Patch.Edit
import ModuleInterop.Usage.Collect
import ModuleInterop.Virtual.Helpers
import ModuleInterop.Conversion.Elision
import ModuleInterop.Conversion.Options

/-!
# What the uses in a module call for

The uses in a module, taken in order, call for edits of its text and for imports, and they decide
whether its exports can be declared one by one or the whole module has to run inside a function
(`wrapped`).  A module is wrapped when its own value is used in any other way than by assigning to
its exports at the top level.

Each required module is imported once.  The binding has the name of the first variable that takes
it, if that is where it is first required, and that variable's declaration goes; otherwise it has a
name made from a running number.
-/

set_option autoImplicit false

namespace ModuleInterop.Conversion

open ModuleInterop.Syntax ModuleInterop.Scope ModuleInterop.Usage ModuleInterop.Patch
  ModuleInterop.Virtual

/-- A required module. -/
structure RequiredModule where
  target : String
  /-- The name of the binding that the import makes. -/
  name : String
  /-- Whether the value is used, and not only that the module runs. -/
  bindsValue : Bool
  deriving DecidableEq, Repr

/-- What stays the same while the uses are taken. -/
structure Frame where
  options : Options
  /-- The names that are free in the module. -/
  freeNames : List String
  /-- The name of the binding for the helpers. -/
  helpersName : String

/-- What is known after some of the uses. -/
structure Findings where
  edits : List Edit
  usesModule : Bool
  usesExports : Bool
  usesGlobal : Bool
  usesRequire : Bool
  /-- The module has to run inside a function. -/
  wrapped : Bool
  /-- The required modules in the order of their first use. -/
  required : List RequiredModule
  /-- The names that are exported, in the order of their first use. -/
  exported : List String
  scopes : ScopeTree
  /-- The next running number. -/
  counter : Nat
  /-- The variables that go. -/
  elided : List Span
  deriving DecidableEq, Repr

/-- A list with an element at its end, unless it has it already. -/
def appendNew (names : List String) (name : String) : List String :=
  if names.contains name then names else names ++ [name]

/-- The name of an import with a running number. -/
def importName (n : Nat) : String := "require$$" ++ Nat.repr n

/-- The text for a helper. -/
def Frame.helper (frame : Frame) (name : String) : String := frame.helpersName ++ "." ++ name

namespace Findings

/-- Before the first use. -/
def start (wrapped : Bool) (scopes : ScopeTree) : Findings :=
  { edits := [], usesModule := false, usesExports := false, usesGlobal := false,
    usesRequire := false, wrapped, required := [], exported := [], scopes, counter := 0,
    elided := [] }

/-- Whether the module has any use that calls for a conversion. -/
def any (findings : Findings) : Bool :=
  !findings.required.isEmpty || findings.usesModule || findings.usesExports ||
    findings.usesGlobal || findings.usesRequire

/-- Whether the converted module uses a helper. -/
def needsHelpers (findings : Findings) : Bool :=
  findings.wrapped || findings.usesGlobal || findings.usesRequire

/-- Replaces a stretch of the text. -/
def replace (findings : Findings) (span : Span) (text : String) : Findings :=
  { findings with edits := overwrite findings.edits span.start span.stop text.toList }

/-- Deletes a stretch of the text. -/
def delete (findings : Findings) (start stop : Nat) : Findings :=
  { findings with edits := remove findings.edits start stop }

/-- Replaces a name; a shorthand property keeps its key. -/
def replaceName (findings : Findings) (name : FreeName) (span : Span) (shorthand : Bool)
    (text : String) : Findings :=
  findings.replace span (if shorthand then name.text ++ ": " ++ text else text)

/-- Takes a statement out.  Where a statement has to stand, an empty one is left. -/
def removeStatement (findings : Findings) (span : Span) (home : Home) : Findings :=
  if home.allowsNone then findings.delete span.start span.stop else findings.replace span ";"

/-- Records that the value of the module is used. -/
def useValue (findings : Findings) : ModuleName → Findings
  | .module => { findings with usesModule := true }
  | .exports => { findings with usesExports := true }

/-- Records that the value of the module is used in a way that no export declaration can stand
for. -/
def escape (findings : Findings) (root : ModuleName) : Findings :=
  { findings.useValue root with wrapped := true }

/-- The first running number from some number on whose name is not visible from a scope and not free
in the module. -/
def freeNumber (findings : Findings) (frame : Frame) (scope : Nat) : Nat :=
  let taken := fun n =>
    findings.scopes.sees scope (importName n) || frame.freeNames.contains (importName n)
  firstFree taken (findings.scopes.allNames.length + frame.freeNames.length) findings.counter

/-- The required module with a target. -/
def find? (findings : Findings) (target : String) : Option RequiredModule :=
  findings.required.find? fun entry => entry.target == target

/-- Makes sure that a target is among the required modules; a new one gets the preferred name, or a
name with a running number. -/
def register (findings : Findings) (frame : Frame) (call : RequireCall)
    (preferred : Option String) : RequiredModule × Findings :=
  match findings.find? call.target with
  | some entry => (entry, findings)
  | none =>
    match preferred with
    | some name =>
      let entry : RequiredModule := ⟨call.target, name, false⟩
      (entry, { findings with required := findings.required ++ [entry] })
    | none =>
      let n := findings.freeNumber frame call.scope
      let entry : RequiredModule := ⟨call.target, importName n, false⟩
      (entry, { findings with
        required := findings.required ++ [entry]
        scopes := findings.scopes.generate ScopeTree.root entry.name
        counter := n + 1 })

/-- Records that the value of a required module is used. -/
def bindValue (findings : Findings) (target : String) : Findings :=
  { findings with
    required := findings.required.map fun entry =>
      if entry.target == target then { entry with bindsValue := true } else entry }

/-- Takes variables out of a declaration. -/
def elide (findings : Findings) (span : Span) (home : Home) (declarators : List Span) : Findings :=
  let flags := declarators.map fun s => (s, findings.elided.contains s)
  if !flags.any (·.2) then findings
  else if flags.all (·.2) then findings.removeStatement span home
  else (elisionRanges flags).foldl (fun findings range => findings.delete range.1 range.2) findings

/-- Takes one use. -/
def step (frame : Frame) (findings : Findings) : Use → Findings
  | .name .require span shorthand =>
    { findings with usesRequire := true }.replaceName .require span shorthand
      (frame.helper (requireHelper frame.options.allowDynamicRequire))
  | .name (.value root) _ _ => findings.escape root
  | .name .global span shorthand =>
    if frame.options.ignoreGlobal then findings
    else
      { findings with usesGlobal := true }.replaceName .global span shorthand
        (frame.helper globalHelper)
  | .name .define span shorthand => findings.replaceName .define span shorthand "undefined"
  | .outerThis span =>
    if frame.options.ignoreGlobal then findings
    else { findings with usesGlobal := true }.replace span (frame.helper globalHelper)
  | .typeofValue span root => (findings.replace span "'object'").escape root
  | .outerReturn => { findings with wrapped := true }
  | .exporting path direct names =>
    let used := findings.useValue path.root
    { used with
      wrapped := used.wrapped || !direct
      exported := names.foldl appendNew used.exported }
  | .requiring call none =>
    let (entry, found) := findings.register frame call none
    (found.bindValue call.target).replace call.span entry.name
  | .requiring call (some (span, home)) =>
    let (_, found) := findings.register frame call none
    found.removeStatement span home
  | .requiredVariable span name call =>
    let (entry, found) := findings.register frame call (some name)
    let bound := found.bindValue call.target
    if entry.name = name then { bound with elided := bound.elided ++ [span] }
    else bound.replace call.span entry.name
  | .declared span home declarators => findings.elide span home declarators

end Findings

end ModuleInterop.Conversion
