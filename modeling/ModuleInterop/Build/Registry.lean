import ModuleInterop.Classification

/-!
# Registry of classifications

A registry holds what has become known of modules.  Each id has at most one slot, and a slot is
settled once: whoever asks, before or after, gets the first classification.
-/

set_option autoImplicit false

namespace ModuleInterop.Build

/-- The slots of a build in the order in which they were made; a slot that is not settled has no
classification. -/
structure Registry where
  slots : List (String × Option Classification)
  deriving DecidableEq, Repr

namespace Registry

/-- A registry without slots. -/
def empty : Registry := ⟨[]⟩

/-- The slot of an id. -/
def slot? (registry : Registry) (id : String) : Option (Option Classification) :=
  (registry.slots.find? fun s => s.1 == id).map (·.2)

/-- The classification of an id, if it is settled. -/
def peek (registry : Registry) (id : String) : Option Classification := (registry.slot? id).join

/-- The number of slots. -/
def size (registry : Registry) : Nat := registry.slots.length

/-- Makes a slot for an id, unless it has one. -/
def ensure (registry : Registry) (id : String) : Registry :=
  match registry.slot? id with
  | some _ => registry
  | none => ⟨registry.slots ++ [(id, none)]⟩

/-- Asks for the classification of an id; that makes a slot for it. -/
def await (registry : Registry) (id : String) : Option Classification × Registry :=
  (registry.peek id, registry.ensure id)

/-- Settles an id.  The answer is whether this is the first time; if not, nothing changes. -/
def settle (registry : Registry) (id : String) (classification : Classification) :
    Bool × Registry :=
  match registry.peek id with
  | some _ => (false, registry)
  | none =>
    (true, ⟨(registry.ensure id).slots.map fun s =>
      if s.1 == id then (s.1, some classification) else s⟩)

end Registry

end ModuleInterop.Build
