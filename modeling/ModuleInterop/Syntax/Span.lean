/-!
# Spans

A stretch of source text, given by the positions of its two ends (UTF-8 bytes).
-/

set_option autoImplicit false

namespace ModuleInterop.Syntax

/-- The stretch of text from `start` up to, and not including, `stop`. -/
structure Span where
  start : Nat
  stop : Nat
  deriving DecidableEq, Repr, Inhabited

end ModuleInterop.Syntax
