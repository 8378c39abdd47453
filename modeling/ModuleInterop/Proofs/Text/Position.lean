import ModuleInterop.Text.Offset

/-!
# Boundaries of characters

The positions at which a text can be cut, and what cutting and locating give there.
-/

set_option autoImplicit false

namespace ModuleInterop.Text

/-- A position that is neither beyond the end of a text nor inside one of its characters. -/
def Boundary (text : List Char) (n : Nat) : Prop :=
  ∃ before after, text = before ++ after ∧ byteLength before = n

theorem boundary_zero (text : List Char) : Boundary text 0 := ⟨[], text, rfl, rfl⟩

theorem boundary_append (before after : List Char) :
    Boundary (before ++ after) (byteLength before) := ⟨before, after, rfl, rfl⟩

theorem Boundary.le {text : List Char} {n : Nat} (h : Boundary text n) : n ≤ byteLength text := by
  obtain ⟨before, after, rfl, rfl⟩ := h
  rw [byteLength_append]
  omega

/-- Only the empty text takes no bytes. -/
theorem eq_nil_of_byteLength_eq_zero {text : List Char} (h : byteLength text = 0) : text = [] := by
  cases text with
  | nil => rfl
  | cons c text =>
    have := c.utf8Size_pos
    simp only [byteLength] at h
    omega

/-- Cutting at the end of the first of two texts gives them back. -/
theorem splitAt?_append (before after : List Char) :
    splitAt? (byteLength before) (before ++ after) = some (before, after) := by
  induction before with
  | nil => simp [byteLength, splitAt?]
  | cons c before ih =>
    have pos := c.utf8Size_pos
    obtain ⟨n, hn⟩ : ∃ n, byteLength (c :: before) = n + 1 :=
      ⟨byteLength (c :: before) - 1, by simp only [byteLength]; omega⟩
    have fits : c.utf8Size ≤ n + 1 := by rw [← hn]; simp only [byteLength]; omega
    have left : n + 1 - c.utf8Size = byteLength before := by rw [← hn]; simp only [byteLength]; omega
    rw [hn, List.cons_append, splitAt?, if_pos fits, left, ih]
    rfl

theorem boundary_iff_isSome {text : List Char} {n : Nat} :
    Boundary text n ↔ (splitAt? n text).isSome = true := by
  constructor
  · rintro ⟨before, after, rfl, rfl⟩
    rw [splitAt?_append]
    rfl
  · intro h
    obtain ⟨⟨before, after⟩, cut⟩ := Option.isSome_iff_exists.mp h
    obtain ⟨rfl, rfl⟩ := splitAt?_eq_some cut
    exact boundary_append before after

instance (text : List Char) (n : Nat) : Decidable (Boundary text n) :=
  decidable_of_iff _ boundary_iff_isSome.symm

/-- A text is cut at a position in one way. -/
theorem append_inj_of_byteLength {a b c d : List Char} (h : a ++ b = c ++ d)
    (same : byteLength a = byteLength c) : a = c ∧ b = d := by
  have cut := splitAt?_append a b
  rw [h, same, splitAt?_append] at cut
  simpa [eq_comm] using cut

/-- Two positions in order cut a text into three pieces. -/
theorem Boundary.exists_split {text : List Char} {m n : Nat} (hm : Boundary text m)
    (hn : Boundary text n) (h : m ≤ n) :
    ∃ a b c, text = a ++ b ++ c ∧ byteLength a = m ∧ m + byteLength b = n := by
  obtain ⟨a, a', rfl, rfl⟩ := hm
  obtain ⟨d, c, same, rfl⟩ := hn
  rcases List.append_eq_append_iff.mp same with ⟨b, rfl, rfl⟩ | ⟨b, rfl, rfl⟩
  · exact ⟨a, b, c, by simp, rfl, by simp⟩
  · -- The second cut does not come later, so it is the same one.
    have empty : byteLength b = 0 := by
      rw [byteLength_append] at h
      omega
    rw [eq_nil_of_byteLength_eq_zero empty]
    exact ⟨d, [], a', by simp, by simp, by simp [byteLength]⟩

theorem slice?_append (a b c : List Char) :
    slice? (byteLength a) (byteLength a + byteLength b) (a ++ b ++ c) = some b := by
  unfold slice?
  rw [if_pos (Nat.le_add_right _ _), List.append_assoc, splitAt?_append]
  show (splitAt? (byteLength a + byteLength b - byteLength a) (b ++ c)).bind _ = _
  rw [Nat.add_sub_cancel_left, splitAt?_append]
  rfl

/-- A text stands in another one at a position. -/
def StandsAt (source : List Char) (n : Nat) (text : List Char) : Prop :=
  ∃ before after, source = before ++ text ++ after ∧ byteLength before = n

/-- What is left of a text at a position: all that stands there, or nothing. -/
def LeftAt (source : List Char) (n : Nat) (text : List Char) : Prop :=
  text = [] ∧ Boundary source n ∨ ∃ before, source = before ++ text ∧ byteLength before = n

namespace LeftAt

variable {source text : List Char} {n : Nat}

theorem whole (source : List Char) : LeftAt source 0 source := .inr ⟨[], rfl, rfl⟩

theorem boundary (h : LeftAt source n text) : Boundary source n := by
  rcases h with ⟨-, boundary⟩ | ⟨before, rfl, rfl⟩
  · exact boundary
  · exact boundary_append before text

theorem nil (h : LeftAt source n text) : LeftAt source n [] := .inl ⟨rfl, h.boundary⟩

theorem drop {a b : List Char} (h : LeftAt source n (a ++ b)) :
    LeftAt source (n + byteLength a) b := by
  rcases h with ⟨none, boundary⟩ | ⟨before, rfl, rfl⟩
  · obtain ⟨rfl, rfl⟩ := List.append_eq_nil_iff.mp none
    exact .inl ⟨rfl, boundary⟩
  · exact .inr ⟨before ++ a, by simp, by simp⟩

theorem tail {c : Char} (h : LeftAt source n (c :: text)) :
    LeftAt source (n + c.utf8Size) text := by
  simpa [byteLength] using h.drop (a := [c])

end LeftAt

/-- The line and the column at the end of a text, both from zero, the column in UTF-16 units. -/
def endPlace (text : List Char) : Nat × Nat := (text.count '\n', length16 (lastLine text))

theorem locate?_append (before after : List Char) :
    locate? (before ++ after) (byteLength before) = some (endPlace before) := by
  rw [locate?, splitAt?_append]
  rfl

end ModuleInterop.Text
