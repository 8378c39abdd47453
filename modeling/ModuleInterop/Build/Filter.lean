import ModuleInterop.Virtual.Id
import ModuleInterop.Build.Options
import ModuleInterop.Glob.Match

/-!
# Which ids are converted

An id is left alone if it is reserved for virtual modules, if it matches an excluding pattern, if
there are including patterns and it matches none, or if its extension is not one of those chosen, in
this order.
-/

set_option autoImplicit false

namespace ModuleInterop.Build

open ModuleInterop.Text

/-- Why the module with an id is left alone. -/
inductive SkipReason where
  | reserved
  | excluded
  | notIncluded
  | otherExtension
  deriving DecidableEq, Repr

/-- The wording of a reason. -/
def SkipReason.text : SkipReason → String
  | .reserved => "virtual module"
  | .excluded => "excluded"
  | .notIncluded => "not included"
  | .otherExtension => "extension not eligible"

/-- A pattern that cannot be read. -/
structure BadPattern where
  pattern : String
  problem : Glob.Problem
  deriving DecidableEq, Repr

/-- The wording of what is wrong with a pattern. -/
def BadPattern.message (bad : BadPattern) : String :=
  "error parsing glob '" ++ bad.pattern ++ "': " ++ bad.problem.message

/-- The choice of ids, its patterns read. -/
structure Filter where
  included : List (List Glob.Token)
  excluded : List (List Glob.Token)
  extensions : List String

/-- Reads patterns in order up to the first one that cannot be read. -/
def readPatterns (patterns : List String) : Except BadPattern (List (List Glob.Token)) :=
  patterns.mapM fun pattern =>
    match Glob.read pattern.toList with
    | .ok tokens => .ok tokens
    | .error problem => .error ⟨pattern, problem⟩

namespace Filter

/-- The choice of ids that options make. -/
def ofOptions (options : Options) : Except BadPattern Filter := do
  let included ← readPatterns options.«include»
  let excluded ← readPatterns options.exclude
  return ⟨included, excluded, options.extensions⟩

/-- The extension of an id with its dot, or nothing if it has none. -/
def dottedExtension (id : String) : String :=
  match fileExtension? id.toList with
  | some extension => String.ofList ('.' :: extension)
  | none => ""

/-- Whether one of some patterns matches an id. -/
def anyMatch (patterns : List (List Glob.Token)) (id : String) : Bool :=
  patterns.any fun tokens => Glob.isMatch tokens id.toList

/-- Why an id is left alone, if it is. -/
def skipReason? (filter : Filter) (id : String) : Option SkipReason :=
  if Virtual.isReserved id then some .reserved
  else if anyMatch filter.excluded id then some .excluded
  else if !filter.included.isEmpty && !anyMatch filter.included id then some .notIncluded
  else if !filter.extensions.contains (dottedExtension id) then some .otherExtension
  else none

/-- Whether an id is converted. -/
def accepts (filter : Filter) (id : String) : Bool := (filter.skipReason? id).isNone

end Filter

end ModuleInterop.Build
