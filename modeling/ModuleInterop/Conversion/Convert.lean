import ModuleInterop.Detection
import ModuleInterop.Conversion.Assembly

/-!
# Conversion

The conversion of a module to an ES module.  A module without any use of the CommonJS names is left
alone; that is refused if names were given that it is known to export.
-/

set_option autoImplicit false

namespace ModuleInterop.Conversion

open ModuleInterop.Syntax ModuleInterop.Scope ModuleInterop.Usage

/-- Why a module is not converted. -/
inductive Refusal where
  /-- Names were given that the module exports, but it is no CommonJS module. -/
  | notCommonJs
  /-- The edits of the module do not apply. -/
  | unpatchable (problem : Patch.Problem)
  deriving DecidableEq, Repr

/-- What stays the same in a conversion, and the findings before the first use. -/
def begin (bindings : Bindings) (options : Options) (compiled : Bool) : Frame × Findings :=
  let freeNames := bindings.freeNames
  let (helpersName, scopes) :=
    claimName (ScopeTree.ofBindings bindings) ScopeTree.root freeNames "commonjsHelpers"
  (⟨options, freeNames, helpersName⟩, Findings.start compiled scopes)

/-- What stays the same in the conversion of a module, and what all its uses call for. -/
def analyse (program : Program) (source : List Char) (options : Options) : Frame × Findings :=
  let bindings := Bindings.ofProgram program
  let (frame, initial) := begin bindings options (hasCompiledMark source)
  (frame, (usesOf bindings options.ignored program).foldl (Findings.step frame) initial)

/-- Converts a module; the answer is `none` if nothing in it calls for it. -/
def convert (program : Program) (source : List Char) (id : String) (options : Options) :
    Except Refusal (Option Converted) :=
  let (frame, findings) := analyse program source options
  if findings.any then
    match assemble frame (Bindings.ofProgram program) program source id (hasCompiledMark source)
        findings with
    | .ok converted => .ok (some converted)
    | .error problem => .error (.unpatchable problem)
  else if options.namedExports.isEmpty then .ok none
  else .error .notCommonJs

end ModuleInterop.Conversion
