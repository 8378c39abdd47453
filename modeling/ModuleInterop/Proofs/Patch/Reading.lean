import ModuleInterop.Proofs.Text.Position
import ModuleInterop.Proofs.Patch.Output

/-!
# Reading edits off a text

What edits make of a text, said without sorting them and without chunks: the source is read from left
to right, and at each position there come the insertions made there, in the order they were recorded
in, and then the content of the range that is replaced from there on, or else the source character.
A character of the result is a `Glyph`: it knows the position of the source it was copied from, if it
was.

`reading` is that text.  The lemmas take it apart at the first edit: up to there the source is copied
(`reading_gap`), an insertion puts in its content (`reading_insertion`), and a range is replaced by
its own (`reading_range`); `reading_cons` puts these together.
-/

set_option autoImplicit false

namespace ModuleInterop.Patch

open ModuleInterop.Text

/-- A character of an edited text, with the position of the source it was copied from. -/
structure Glyph where
  char : Char
  origin : Option Nat
  deriving DecidableEq, Repr

/-- A text that was not in the source. -/
def newText (text : List Char) : List Glyph := text.map (⟨·, none⟩)

/-- A text that was copied from a position of the source on. -/
def copiedText : Nat → List Char → List Glyph
  | _, [] => []
  | p, c :: text => ⟨c, some p⟩ :: copiedText (p + c.utf8Size) text

@[simp] theorem newText_append (a b : List Char) : newText (a ++ b) = newText a ++ newText b :=
  List.map_append

@[simp] theorem chars_newText (text : List Char) : (newText text).map Glyph.char = text := by
  simp [newText, Function.comp_def]

@[simp] theorem chars_copiedText (p : Nat) (text : List Char) :
    (copiedText p text).map Glyph.char = text := by
  induction text generalizing p with
  | nil => rfl
  | cons c text ih => simp [copiedText, ih]

namespace Edit

/-- The edit puts something in at a position. -/
def insertsAt (p : Nat) (edit : Edit) : Bool := edit.start == p && edit.stop == p

/-- The edit replaces the text from a position on. -/
def replacesFrom (p : Nat) (edit : Edit) : Bool := edit.start == p && decide (p < edit.stop)

/-- The edit replaces the character at a position. -/
def covers (p : Nat) (edit : Edit) : Bool := decide (edit.start ≤ p) && decide (p < edit.stop)

end Edit

/-- What edits put in at a position. -/
def insertedAt (edits : List Edit) (p : Nat) : List Glyph :=
  newText ((edits.filter (Edit.insertsAt p)).flatMap Edit.content)

/-- What stands for the source character at a position. -/
def insteadOf (edits : List Edit) (p : Nat) (c : Char) : List Glyph :=
  match edits.find? (Edit.replacesFrom p) with
  | some edit => newText edit.content
  | none => if edits.any (Edit.covers p) then [] else [⟨c, some p⟩]

/-- What edits make of the text that stands at a position of the source. -/
def reading (edits : List Edit) : Nat → List Char → List Glyph
  | p, [] => insertedAt edits p
  | p, c :: text =>
    insertedAt edits p ++ insteadOf edits p c ++ reading edits (p + c.utf8Size) text

variable {edit : Edit} {edits : List Edit}

/-! ## One position -/

/-- Where no edit is an insertion, nothing is put in. -/
theorem insertedAt_eq_nil {p : Nat} (away : ∀ e ∈ edits, e.start ≠ p ∨ e.stop ≠ p) :
    insertedAt edits p = [] := by
  have none : edits.filter (Edit.insertsAt p) = [] := by
    rw [List.filter_eq_nil_iff]
    intro e mem
    have := away e mem
    grind [Edit.insertsAt]
  rw [insertedAt, none]
  rfl

/-- Where no range begins, nothing replaces the text from there on. -/
theorem find?_replacesFrom_eq_none {p : Nat} (away : ∀ e ∈ edits, e.start ≠ p ∨ e.stop ≤ p) :
    edits.find? (Edit.replacesFrom p) = none := by
  rw [List.find?_eq_none]
  intro e mem
  have := away e mem
  grind [Edit.replacesFrom]

/-- A character that no edit touches stays. -/
theorem insteadOf_untouched {p : Nat} (c : Char) (away : ∀ e ∈ edits, e.stop ≤ p ∨ p < e.start) :
    insteadOf edits p c = [⟨c, some p⟩] := by
  have replaced : edits.find? (Edit.replacesFrom p) = none := by
    refine find?_replacesFrom_eq_none fun e mem => ?_
    have := away e mem
    omega
  have covered : edits.any (Edit.covers p) = false := by
    rw [List.any_eq_false]
    intro e mem
    have := away e mem
    grind [Edit.covers]
  simp [insteadOf, replaced, covered]

/-- A character goes if it stands in a range and none begins at it. -/
theorem insteadOf_covered {p : Nat} (c : Char) (away : ∀ e ∈ edits, e.start ≠ p ∨ e.stop ≤ p)
    (mem : edit ∈ edits) (start : edit.start ≤ p) (stop : p < edit.stop) :
    insteadOf edits p c = [] := by
  have covered : edits.any (Edit.covers p) = true := by
    rw [List.any_eq_true]
    exact ⟨edit, mem, by simp [Edit.covers, start, stop]⟩
  simp [insteadOf, find?_replacesFrom_eq_none away, covered]

/-! ## Edits that do nothing where the text stands -/

/-- An edit that ends before a text does nothing to it. -/
theorem reading_past {p : Nat} (text : List Char) (start : edit.start < p) (stop : edit.stop ≤ p) :
    reading (edit :: edits) p text = reading edits p text := by
  induction text generalizing p with
  | nil =>
    have skip : edit.insertsAt p = false := by grind [Edit.insertsAt]
    simp [reading, insertedAt, skip]
  | cons c text ih =>
    have skip : edit.insertsAt p = false := by grind [Edit.insertsAt]
    have skip' : edit.replacesFrom p = false := by grind [Edit.replacesFrom]
    have skip'' : edit.covers p = false := by grind [Edit.covers]
    have rest := ih (p := p + c.utf8Size) (by omega) (by omega)
    simp [reading, insertedAt, insteadOf, skip, skip', skip'', rest]

/-- Where no edit acts yet, the source is copied. -/
theorem reading_gap (a b : List Char) {p : Nat} (later : ∀ e ∈ edits, p + byteLength a ≤ e.start) :
    reading edits p (a ++ b) = copiedText p a ++ reading edits (p + byteLength a) b := by
  induction a generalizing p with
  | nil => simp [copiedText, byteLength]
  | cons c a ih =>
    have pos := c.utf8Size_pos
    simp only [byteLength] at later
    have after : ∀ e ∈ edits, p < e.start := by
      intro e mem
      have := later e mem
      omega
    have inserted : insertedAt edits p = [] :=
      insertedAt_eq_nil fun e mem => .inl (Nat.ne_of_gt (after e mem))
    have rest := ih (p := p + c.utf8Size) (by intro e mem; have := later e mem; omega)
    rw [List.cons_append, reading, inserted, insteadOf_untouched c fun e mem => .inr (after e mem), rest]
    simp [copiedText, byteLength, Nat.add_assoc]

/-- A stretch that no edit touches is copied, after what is put in before it. -/
theorem exists_reading_copied (text after : List Char) {p : Nat}
    (away : ∀ e ∈ edits, e.stop ≤ p ∨ p + byteLength text ≤ e.start) :
    ∃ rest, reading edits p (text ++ after) = insertedAt edits p ++ (copiedText p text ++ rest) := by
  induction text generalizing p with
  | nil =>
    cases after with
    | nil => exact ⟨[], by simp [reading, copiedText]⟩
    | cons c after => exact ⟨_, List.append_assoc _ _ _⟩
  | cons c text ih =>
    have pos := c.utf8Size_pos
    simp only [byteLength] at away
    have instead : insteadOf edits p c = [⟨c, some p⟩] := by
      refine insteadOf_untouched c fun e mem => ?_
      have := away e mem
      omega
    have away' : ∀ e ∈ edits,
        e.stop ≤ p + c.utf8Size ∨ p + c.utf8Size + byteLength text ≤ e.start := by
      intro e mem
      have := away e mem
      omega
    obtain ⟨rest, copied⟩ := ih away'
    rw [List.cons_append, reading, instead, copied]
    cases text with
    | nil => exact ⟨_, List.append_assoc _ _ _⟩
    | cons d text =>
      -- Nothing is put in inside the stretch.
      have pos' := d.utf8Size_pos
      simp only [byteLength] at away
      have inserted : insertedAt edits (p + c.utf8Size) = [] := by
        refine insertedAt_eq_nil fun e mem => ?_
        have := away e mem
        omega
      exact ⟨rest, by simp [inserted, copiedText]⟩

/-- What comes later in a text is read as it would be by itself. -/
theorem reading_suffix (edits : List Edit) (before after : List Char) (p : Nat) :
    reading edits (p + byteLength before) after <:+ reading edits p (before ++ after) := by
  induction before generalizing p with
  | nil => exact List.suffix_rfl
  | cons c before ih =>
    have later := ih (p + c.utf8Size)
    rw [Nat.add_assoc] at later
    exact later.trans (List.suffix_append _ _)

/-- **A stretch of the source that no edit touches is copied.** -/
theorem copied_infix_reading {source text : List Char} {p : Nat}
    (stands : StandsAt source p text)
    (away : ∀ e ∈ edits, e.stop ≤ p ∨ p + byteLength text ≤ e.start) :
    copiedText p text <:+: reading edits 0 source := by
  obtain ⟨before, after, rfl, rfl⟩ := stands
  obtain ⟨rest, copied⟩ := exists_reading_copied text after away
  have later := reading_suffix edits before (text ++ after) 0
  rw [Nat.zero_add, copied] at later
  rw [List.append_assoc]
  exact (List.infix_append' _ _ _).trans later.isInfix

/-! ## The first edit -/

/-- An insertion puts in its content before what the edits after it give. -/
theorem reading_insertion {p : Nat} (text : List Char) (start : edit.start = p)
    (stop : edit.stop = p) :
    reading (edit :: edits) p text = newText edit.content ++ reading edits p text := by
  have inserts : edit.insertsAt p = true := by simp [Edit.insertsAt, start, stop]
  cases text with
  | nil => simp [reading, insertedAt, inserts]
  | cons c text =>
    have pos := c.utf8Size_pos
    have skip : edit.replacesFrom p = false := by grind [Edit.replacesFrom]
    have skip' : edit.covers p = false := by grind [Edit.covers]
    have rest : reading (edit :: edits) (p + c.utf8Size) text = reading edits (p + c.utf8Size) text :=
      reading_past text (by omega) (by omega)
    simp [reading, insertedAt, insteadOf, inserts, skip, skip', rest]

/-- Inside a range that is replaced nothing is left of the source. -/
theorem reading_covered (a b : List Char) {p : Nat} (start : edit.start < p)
    (stop : p + byteLength a = edit.stop) (later : ∀ e ∈ edits, edit.stop ≤ e.start) :
    reading (edit :: edits) p (a ++ b) = reading edits edit.stop b := by
  induction a generalizing p with
  | nil =>
    simp only [byteLength, Nat.add_zero] at stop
    subst stop
    exact reading_past b start (Nat.le_refl _)
  | cons c a ih =>
    have pos := c.utf8Size_pos
    simp only [byteLength] at stop
    have away : ∀ e ∈ edit :: edits, e.start ≠ p := by
      intro e mem
      rcases List.mem_cons.mp mem with rfl | mem
      · exact Nat.ne_of_lt start
      · have := later e mem
        omega
    have inserted : insertedAt (edit :: edits) p = [] :=
      insertedAt_eq_nil fun e mem => .inl (away e mem)
    have instead : insteadOf (edit :: edits) p c = [] :=
      insteadOf_covered c (fun e mem => .inl (away e mem)) List.mem_cons_self (Nat.le_of_lt start)
        (by omega)
    have rest := ih (p := p + c.utf8Size) (by omega) (by omega)
    rw [List.cons_append, reading, inserted, instead]
    exact rest

/-- A range is replaced by the content, and after it the other edits act. -/
theorem reading_range (a b : List Char) {p : Nat} (start : edit.start = p) (proper : p < edit.stop)
    (stop : p + byteLength a = edit.stop) (later : ∀ e ∈ edits, edit.stop ≤ e.start) :
    reading (edit :: edits) p (a ++ b) = newText edit.content ++ reading edits edit.stop b := by
  cases a with
  | nil =>
    simp only [byteLength] at stop
    omega
  | cons c a =>
    have pos := c.utf8Size_pos
    simp only [byteLength] at stop
    have inserted : insertedAt (edit :: edits) p = [] := by
      refine insertedAt_eq_nil fun e mem => ?_
      rcases List.mem_cons.mp mem with rfl | mem
      · exact .inr (Nat.ne_of_gt proper)
      · have := later e mem
        omega
    have found : (edit :: edits).find? (Edit.replacesFrom p) = some edit := by
      rw [List.find?_cons_of_pos]
      simp [Edit.replacesFrom, start, proper]
    have rest : reading (edit :: edits) (p + c.utf8Size) (a ++ b) = reading edits edit.stop b :=
      reading_covered a b (by omega) (by omega) later
    rw [List.cons_append, reading, inserted, insteadOf, found, rest]
    rfl

/-- **The first edit**: up to it the source is copied, its content stands for the text it replaces, and
after that the other edits act. -/
theorem reading_cons {gap old after : List Char} {p : Nat} (starts : p + byteLength gap = edit.start)
    (stops : edit.start + byteLength old = edit.stop) (later : ∀ e ∈ edits, edit.stop ≤ e.start) :
    reading (edit :: edits) p (gap ++ (old ++ after)) =
      copiedText p gap ++ (newText edit.content ++ reading edits edit.stop after) := by
  have behind : ∀ e ∈ edit :: edits, p + byteLength gap ≤ e.start := by
    intro e mem
    rcases List.mem_cons.mp mem with rfl | mem
    · exact Nat.le_of_eq starts
    · have := later e mem
      omega
  rw [reading_gap gap (old ++ after) behind, starts]
  congr 1
  rcases Nat.lt_or_ge edit.start edit.stop with proper | empty
  · exact reading_range old after rfl proper stops later
  · have same : edit.stop = edit.start := by omega
    have nothing : byteLength old = 0 := by omega
    rw [eq_nil_of_byteLength_eq_zero nothing, same]
    exact reading_insertion after rfl same

/-! ## The order of recording -/

/-- Only the order of insertions at one place matters. -/
theorem reading_congr {edits edits' : List Edit} (p : Nat) (text : List Char)
    (inserts : ∀ q, edits.filter (Edit.insertsAt q) = edits'.filter (Edit.insertsAt q))
    (replaces : ∀ q, edits.find? (Edit.replacesFrom q) = edits'.find? (Edit.replacesFrom q))
    (covered : ∀ q, edits.any (Edit.covers q) = edits'.any (Edit.covers q)) :
    reading edits p text = reading edits' p text := by
  induction text generalizing p with
  | nil => simp only [reading, insertedAt, inserts]
  | cons c text ih => simp only [reading, insertedAt, insteadOf, inserts, replaces, covered, ih]

end ModuleInterop.Patch
