/-!
# Options of a build
-/

set_option autoImplicit false

namespace ModuleInterop.Build

/-- What can be chosen for a build. -/
structure Options where
  /-- The extensions, each with its dot, of files that are converted. -/
  extensions : List String
  /-- Patterns of which an id has to match one, if there are any. -/
  «include» : List String
  /-- Patterns of which an id must match none. -/
  exclude : List String
  /-- The global object is left alone. -/
  ignoreGlobal : Bool
  /-- Source maps are wanted. -/
  sourceMap : Bool
  /-- The names that modules are known to export, by id. -/
  namedExports : List (String × List String)
  /-- Targets of `require` that are left alone. -/
  ignore : List String
  /-- A `require` that stays is answered while the program runs. -/
  allowDynamicRequire : Bool
  /-- Ids of modules outside the build. -/
  external : List String
  deriving DecidableEq, Repr

namespace Options

/-- The options of a build for which nothing has been chosen. -/
def default : Options :=
  { extensions := [".js"], «include» := [], exclude := [], ignoreGlobal := false,
    sourceMap := true, namedExports := [], ignore := [], allowDynamicRequire := false,
    external := [] }

/-- Whether a `require` that stays is answered while the program runs.  It has to be if some targets
are left alone. -/
def dynamicRequireAllowed (options : Options) : Bool :=
  options.allowDynamicRequire || !options.ignore.isEmpty

/-- The names that the module with an id is known to export. -/
def namedExportsFor (options : Options) (id : String) : List String :=
  ((options.namedExports.find? fun e => e.1 == id).map (·.2)).getD []

/-- Whether an id is that of a module outside the build. -/
def isExternal (options : Options) (id : String) : Bool := options.external.contains id

end Options

end ModuleInterop.Build
