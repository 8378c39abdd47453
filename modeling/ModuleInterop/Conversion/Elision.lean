import ModuleInterop.Syntax.Span

/-!
# Leaving out variables

Which stretches of a declaration to delete when some of its variables go and others stay: all up to
the first one that stays, and after it each one that goes together with what separates it from the
one before.  Stretches that touch are joined.
-/

set_option autoImplicit false

namespace ModuleInterop.Conversion

open ModuleInterop.Syntax

/-- Adds a stretch after others, joined to the last one if it begins inside or right after it.  A
stretch without text is not added. -/
def addRange (ranges : List (Nat × Nat)) (start stop : Nat) : List (Nat × Nat) :=
  if stop ≤ start then ranges
  else
    match ranges.getLast? with
    | some last =>
      if start ≤ last.2 then ranges.dropLast ++ [(last.1, max last.2 stop)]
      else ranges ++ [(start, stop)]
    | none => [(start, stop)]

/-- Adds the stretches of the variables that follow; `cursor` is the end of the last one that stays,
and `kept` tells whether there is one. -/
def elisionFrom (ranges : List (Nat × Nat)) (cursor : Nat) (kept : Bool) :
    List (Span × Bool) → List (Nat × Nat)
  | [] => ranges
  | (span, true) :: others => elisionFrom (addRange ranges cursor span.stop) cursor kept others
  | (span, false) :: others =>
    elisionFrom (if kept then ranges else addRange ranges cursor span.start) span.stop true others

/-- The stretches to delete of a declaration; each variable comes with whether it goes. -/
def elisionRanges (declarators : List (Span × Bool)) : List (Nat × Nat) :=
  match declarators with
  | [] => []
  | (span, _) :: _ => elisionFrom [] span.start false declarators

end ModuleInterop.Conversion
