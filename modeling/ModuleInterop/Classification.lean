/-!
# Classifications

What a module that imports another one through a proxy has to know of it.
-/

set_option autoImplicit false

namespace ModuleInterop

/-- What a module exports, as the modules that depend on it see it. -/
inductive Classification where
  /-- Nothing is known: a proxy looks at the module while it runs. -/
  | unknown
  | esmWithDefault
  | esmWithoutDefault
  | cjs
  deriving DecidableEq, Repr, Inhabited

/-- Whether a module was converted from CommonJS. -/
def Classification.isCjs (c : Classification) : Bool := c == .cjs

end ModuleInterop
