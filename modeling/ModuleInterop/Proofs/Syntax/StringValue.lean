import ModuleInterop.Syntax.Lexer.Text
import ModuleInterop.Syntax.Token
import ModuleInterop.Text.Offset
import Mathlib.Data.List.Basic

/-!
# The value of a string in UTF-16

What a string denotes is a list of UTF-16 units (`value16`).  What is kept of it is a text of scalar
values (`unitsValue`), and that text shows what the string denotes as long as each surrogate has its
partner: two such strings have equal texts exactly when they denote the same units
(`Whole.unitsValue_eq_iff`).  A surrogate on its own is spelled out with the replacement character, so
its text can also be the one of another string.
-/

set_option autoImplicit false

namespace ModuleInterop.Syntax

open ModuleInterop.Text

/-- The UTF-16 units of a character. -/
def encode16 (c : Char) : List Nat :=
  if c.toNat < 0x10000 then [c.toNat]
  else [0xD800 + (c.toNat - 0x10000) / 0x400, 0xDC00 + (c.toNat - 0x10000) % 0x400]

theorem encode16_ne_nil (c : Char) : encode16 c ≠ [] := by
  unfold encode16
  split <;> simp

theorem toNat_bounds (c : Char) : c.toNat < 0xD800 ∨ 0xDFFF < c.toNat ∧ c.toNat < 0x110000 := c.valid

/-- The units of a character tell it, and where the units of the next one begin. -/
theorem encode16_append_inj {c d : Char} {a b : List Nat}
    (same : encode16 c ++ a = encode16 d ++ b) : c = d ∧ a = b := by
  have boundsC := toNat_bounds c
  have boundsD := toNat_bounds d
  have told (number : c.toNat = d.toNat) : c = d := Char.toNat_inj.mp number
  unfold encode16 at same
  split at same <;> split at same <;>
    simp only [List.cons_append, List.nil_append, List.cons.injEq] at same
  · exact ⟨told same.1, same.2⟩
  · omega
  · omega
  · obtain ⟨high, low, rest⟩ := same
    exact ⟨told (by omega), rest⟩

/-- A text is told by its UTF-16 units. -/
theorem flatMap_encode16_inj {a b : List Char} :
    a.flatMap encode16 = b.flatMap encode16 ↔ a = b := by
  refine ⟨fun same => ?_, congrArg _⟩
  induction a generalizing b with
  | nil =>
    cases b with
    | nil => rfl
    | cons d b => simp [encode16_ne_nil] at same
  | cons c a ih =>
    cases b with
    | nil => simp [encode16_ne_nil] at same
    | cons d b =>
      obtain ⟨rfl, rest⟩ := encode16_append_inj same
      rw [ih rest]

/-- The UTF-16 units of one part of a value. -/
def TextUnit.encode16 : TextUnit → List Nat
  | .scalar c => Syntax.encode16 c
  | .surrogate value _ => [value]

/-- The UTF-16 units that a string denotes. -/
def value16 (units : List TextUnit) : List Nat := units.flatMap TextUnit.encode16

/-- What is written between the quotes of the string at a place of the source. -/
def writtenAt (source : List Char) (place : Span) : List TextUnit :=
  match splitAt? place.start source with
  | some (_, quote :: after) => (scanText (.quoted quote) .start (place.start + 1) after).units
  | _ => []

/-- The character that two surrogates stand for has them as its units. -/
theorem encode16_pair {a b : Nat} (high : 0xD800 ≤ a ∧ a < 0xDC00) (low : 0xDC00 ≤ b ∧ b < 0xE000) :
    encode16 (Char.ofNat (0x10000 + (a - 0xD800) * 0x400 + (b - 0xDC00))) = [a, b] := by
  have valid : (0x10000 + (a - 0xD800) * 0x400 + (b - 0xDC00)).isValidChar := .inr (by omega)
  have number : (Char.ofNat (0x10000 + (a - 0xD800) * 0x400 + (b - 0xDC00))).toNat =
      0x10000 + (a - 0xD800) * 0x400 + (b - 0xDC00) := by rw [Char.ofNat, dif_pos valid]; rfl
  unfold encode16
  rw [number, if_neg (by omega)]
  simp only [List.cons.injEq, and_true]
  omega

/-- Joining surrogates does not change what a string denotes. -/
theorem value16_joinSurrogates (units : List TextUnit) :
    value16 (joinSurrogates units) = value16 units := by
  fun_induction joinSurrogates units with
  | case1 a b units pair ih =>
    simp only [Bool.and_eq_true, decide_eq_true_eq] at pair
    have joined := encode16_pair (a := a) (b := b) (by omega) (by omega)
    simpa [value16, TextUnit.encode16, joined] using ih
  | case2 a b units lone ih => simpa [value16] using ih
  | case3 unit units other ih => simpa [value16] using ih
  | case4 => rfl

/-- Each surrogate of a string has its partner. -/
def Whole (units : List TextUnit) : Prop := ∀ unit ∈ joinSurrogates units, unit.isSurrogate = false

instance (units : List TextUnit) : Decidable (Whole units) :=
  inferInstanceAs (Decidable (∀ unit ∈ joinSurrogates units, unit.isSurrogate = false))

theorem joinSurrogates_scalars (text : List Char) :
    joinSurrogates (text.map .scalar) = text.map .scalar := by
  induction text with
  | nil => rfl
  | cons c text ih => simp [joinSurrogates, ih]

/-- Characters have the text that they are. -/
theorem unitsValue_scalars (text : List Char) :
    unitsValue (text.map .scalar) = String.ofList text := by
  have none : (text.map TextUnit.scalar).any TextUnit.isSurrogate = false := by
    simp [TextUnit.isSurrogate]
  simp [unitsValue, joinSurrogates_scalars, none, List.flatMap_map]

theorem value16_scalars (text : List Char) :
    value16 (text.map .scalar) = text.flatMap encode16 := by
  rw [value16, List.flatMap_map]
  rfl

theorem exists_scalars {units : List TextUnit} (scalar : ∀ unit ∈ units, unit.isSurrogate = false) :
    ∃ text : List Char, units = text.map .scalar := by
  induction units with
  | nil => exact ⟨[], rfl⟩
  | cons unit units ih =>
    obtain ⟨text, rfl⟩ := ih fun other mem => scalar other (List.mem_cons_of_mem _ mem)
    cases unit with
    | scalar c => exact ⟨c :: text, rfl⟩
    | surrogate value fixed => exact absurd (scalar _ List.mem_cons_self) (by simp [TextUnit.isSurrogate])

/-- A string without lone surrogates denotes the units of the text that is kept of it. -/
theorem Whole.value16_eq {units : List TextUnit} (whole : Whole units) :
    value16 units = (unitsValue units).toList.flatMap encode16 := by
  obtain ⟨text, joined⟩ := exists_scalars whole
  have kept : unitsValue units = String.ofList text := by
    rw [← unitsValue_scalars, unitsValue, unitsValue, joined, joinSurrogates_scalars]
  rw [kept, String.toList_ofList, ← value16_joinSurrogates, joined, value16_scalars]

/-- Strings without lone surrogates have equal texts exactly when they denote the same. -/
theorem Whole.unitsValue_eq_iff {a b : List TextUnit} (wholeA : Whole a) (wholeB : Whole b) :
    unitsValue a = unitsValue b ↔ value16 a = value16 b := by
  rw [wholeA.value16_eq, wholeB.value16_eq, flatMap_encode16_inj, String.toList_inj]

/-- The text of a string is empty exactly when the string is. -/
theorem unitsValue_eq_empty_iff {units : List TextUnit} :
    unitsValue units = "" ↔ value16 units = [] := by
  rw [← value16_joinSurrogates, unitsValue, value16, String.ofList_eq_empty_iff,
    List.flatMap_eq_nil_iff, List.flatMap_eq_nil_iff]
  refine forall₂_congr fun unit _ => ?_
  cases unit with
  | scalar c =>
    simp only [TextUnit.encode16, encode16_ne_nil, iff_false]
    split <;> simp
  | surrogate value fixed => simp [TextUnit.encode16]

end ModuleInterop.Syntax
