/-!
# Positions in a text

A position is a count of UTF-8 bytes from the start of the text.  This module cuts texts at
positions, and turns a position into a line and a column: columns count characters in messages
(`lineColumn`) and UTF-16 units in source maps (`locate?`).  Cutting fails where the position lies
beyond the end or inside a character.
-/

set_option autoImplicit false

namespace ModuleInterop.Text

/-- The number of bytes a text takes in UTF-8. -/
def byteLength : List Char → Nat
  | [] => 0
  | c :: text => c.utf8Size + byteLength text

/-- The number of UTF-16 units of a character. -/
def units16 (c : Char) : Nat := if c.toNat < 0x10000 then 1 else 2

/-- The number of UTF-16 units of a text. -/
def length16 : List Char → Nat
  | [] => 0
  | c :: text => units16 c + length16 text

/-- The text before and after a position. -/
def splitAt? : Nat → List Char → Option (List Char × List Char)
  | 0, text => some ([], text)
  | _ + 1, [] => none
  | n + 1, c :: text =>
    if c.utf8Size ≤ n + 1 then
      (splitAt? (n + 1 - c.utf8Size) text).map fun cut => (c :: cut.1, cut.2)
    else none

/-- The text between two positions. -/
def slice? (start stop : Nat) (text : List Char) : Option (List Char) :=
  if start ≤ stop then do
    let cut ← splitAt? start text
    let piece ← splitAt? (stop - start) cut.2
    return piece.1
  else none

/-- The last line of a text: what follows its last line feed. -/
def lastLine (text : List Char) : List Char :=
  (text.reverse.takeWhile (· != '\n')).reverse

/-- Line (from one) and column (from zero, in characters) of a position; a position beyond the end
stands for the end. -/
def lineColumn (text : List Char) (offset : Nat) : Nat × Nat :=
  let before := match splitAt? offset text with
    | some cut => cut.1
    | none => text
  (before.count '\n' + 1, (lastLine before).length)

/-- Line and column of a position, both from zero, the column in UTF-16 units. -/
def locate? (text : List Char) (offset : Nat) : Option (Nat × Nat) :=
  (splitAt? offset text).map fun cut => (cut.1.count '\n', length16 (lastLine cut.1))

@[simp] theorem byteLength_append (a b : List Char) :
    byteLength (a ++ b) = byteLength a + byteLength b := by
  induction a with
  | nil => simp [byteLength]
  | cons c a ih => simp [byteLength, ih, Nat.add_assoc]

/-- Cutting loses nothing, and the first part ends at the position. -/
theorem splitAt?_eq_some {n : Nat} {text before after : List Char}
    (h : splitAt? n text = some (before, after)) :
    text = before ++ after ∧ byteLength before = n := by
  induction text generalizing n before with
  | nil =>
    cases n with
    | zero => simp_all [splitAt?, byteLength]
    | succ n => simp [splitAt?] at h
  | cons c text ih =>
    cases n with
    | zero => simp_all [splitAt?, byteLength]
    | succ n =>
      simp only [splitAt?] at h
      split at h
      · rename_i hc
        obtain ⟨⟨x, y⟩, hcut, heq⟩ := Option.map_eq_some_iff.1 h
        simp only [Prod.mk.injEq] at heq
        obtain ⟨rfl, rfl⟩ := heq
        obtain ⟨rfl, hx⟩ := ih hcut
        exact ⟨by simp, by simp [byteLength, hx]; omega⟩
      · simp at h

end ModuleInterop.Text
