/-!
# Choices for one conversion
-/

set_option autoImplicit false

namespace ModuleInterop.Conversion

/-- What a conversion depends on beside the module itself. -/
structure Options where
  /-- The module is one that the build starts from. -/
  isEntry : Bool
  /-- The global object is left alone. -/
  ignoreGlobal : Bool
  /-- A `require` that stays is answered while the program runs. -/
  allowDynamicRequire : Bool
  /-- Targets of `require` that are left alone. -/
  ignored : List String
  /-- Names that the module is known to export. -/
  namedExports : List String
  /-- The module has a default export of its own. -/
  hasDefaultExport : Bool
  /-- A source map is wanted. -/
  sourceMap : Bool
  deriving DecidableEq, Repr

end ModuleInterop.Conversion
