import ModuleInterop.Text.Shown
import ModuleInterop.Json.Problem
import ModuleInterop.Syntax.Problem
import ModuleInterop.Conversion.Convert
import ModuleInterop.Build.Filter

/-!
# Failures

What can go wrong in a build, with the code, the wording and the place by which a host reports it.
-/

set_option autoImplicit false

namespace ModuleInterop.Build

/-- What can go wrong. -/
inductive Failure where
  /-- A module cannot be read. -/
  | unreadable (id : String) (cause : Syntax.Cause) (line column : Nat)
  /-- Names were given that a module exports, but it is no CommonJS module. -/
  | notCommonJs (id : String)
  /-- A pattern for ids cannot be read. -/
  | badPattern (bad : BadPattern)
  /-- The text of the options cannot be read. -/
  | badOptions (problem : Json.Problem)
  /-- Two edits claim the same text. -/
  | overlap (first second : Nat × Nat)
  /-- An edit refers to a place that the text does not have. -/
  | outside (start stop : Nat)
  deriving DecidableEq, Repr

namespace Failure

/-- The failure that a problem of a patch is. -/
def ofPatch : Patch.Problem → Failure
  | .overlap first second => .overlap first second
  | .outside start stop => .outside start stop

/-- The failure that the refusal of a conversion is. -/
def ofRefusal (id : String) : Conversion.Refusal → Failure
  | .notCommonJs => .notCommonJs id
  | .unpatchable problem => ofPatch problem

/-- The code of a failure; a place outside the text has none. -/
def code? : Failure → Option String
  | .unreadable _ _ _ _ => some "CJS-ERR-SYNTAX"
  | .notCommonJs _ => some "CJS-ERR-NAMED-EXPORTS"
  | .badPattern _ => some "CJS-ERR-PATTERN"
  | .badOptions _ => some "CJS-ERR-OPTIONS"
  | .overlap _ _ => some "CJS-ERR-EDIT-OVERLAP"
  | .outside _ _ => none

/-- The wording of a range. -/
def rangeText (range : Nat × Nat) : String := toString range.1 ++ ".." ++ toString range.2

/-- The wording of a failure. -/
def message : Failure → String
  | .unreadable id cause line column =>
    cause.message ++ " in " ++ id ++ " (" ++ toString line ++ ":" ++ toString column ++ ")"
  | .notCommonJs id =>
    "Custom named exports were specified for " ++ id ++
      " but it does not appear to be a CommonJS module"
  | .badPattern bad =>
    "invalid filter pattern " ++ Text.shown bad.pattern ++ ": " ++ bad.message
  | .badOptions problem => "invalid options: " ++ problem.message
  | .overlap first second =>
    "overlapping edits at " ++ rangeText first ++ " and " ++ rangeText second
  | .outside start stop => "no text at " ++ rangeText (start, stop)

/-- The module that a failure belongs to. -/
def moduleId? : Failure → Option String
  | .unreadable id _ _ _ | .notCommonJs id => some id
  | _ => none

/-- The line and column of a failure. -/
def place? : Failure → Option (Nat × Nat)
  | .unreadable _ _ line column => some (line, column)
  | _ => none

end Failure

end ModuleInterop.Build
