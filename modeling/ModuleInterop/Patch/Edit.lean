import ModuleInterop.Text.Offset

/-!
# Edits of a text

A patch is a text with edits of it: each one puts a new content in place of the text between two
positions.  An edit between equal positions inserts.  Edits are recorded in any order and take
effect together.
-/

set_option autoImplicit false

namespace ModuleInterop.Patch

/-- The content that takes the place of the text from `start` up to `stop`. -/
structure Edit where
  start : Nat
  stop : Nat
  content : List Char
  deriving DecidableEq, Repr

/-- The places where an edit begins and ends. -/
def Edit.range (edit : Edit) : Nat × Nat := (edit.start, edit.stop)

/-- Edits are applied by increasing start, and at one start by increasing end, so an insertion comes
before the replacement of what follows it. -/
def Edit.precedes (a b : Edit) : Bool :=
  a.start < b.start || (a.start == b.start && a.stop ≤ b.stop)

/-- Records the replacement of the text between two positions. -/
def overwrite (edits : List Edit) (start stop : Nat) (content : List Char) : List Edit :=
  edits ++ [⟨start, stop, content⟩]

/-- Records the removal of the text between two positions; of no text there is none to record. -/
def remove (edits : List Edit) (start stop : Nat) : List Edit :=
  if start < stop then overwrite edits start stop [] else edits

/-- Records an insertion. -/
def insert (edits : List Edit) (position : Nat) (content : List Char) : List Edit :=
  overwrite edits position position content

/-- Why edits cannot be applied. -/
inductive Problem where
  /-- Two edits claim the same text. -/
  | overlap (first second : Nat × Nat)
  /-- The source has no such piece: a position lies beyond its end or inside a character. -/
  | outside (start stop : Nat)
  deriving DecidableEq, Repr

end ModuleInterop.Patch
