import ModuleInterop.Proofs.Patch.Application

/-!
# What edits leave of a text

An edited text beside its source: both are cut at the edits, and what stands between two edits is the
same in both, in the same order and once (`Spliced`).  So nothing of a source is lost, doubled or moved
but the stretches that are edited; and this holds of the result of all edits that apply
(`spliced_of_apply`).

The walk over the sorted edits gives the pieces: each step of it passes one edit and the text before it.
-/

set_option autoImplicit false

namespace ModuleInterop.Patch

open ModuleInterop.Text

/-- A source from a position on, and what edits make of it: each piece of the source before an edit, and
the one after the last edit, is copied, and the content of each edit stands for the piece that it spans. -/
inductive Spliced : List Edit → Nat → List Char → List Char → Prop
  | copied {p : Nat} (rest : List Char) : Spliced [] p rest rest
  | replaced {edit : Edit} {edits : List Edit} {p : Nat} {gap old rest after : List Char}
    (starts : p + byteLength gap = edit.start) (stops : edit.start + byteLength old = edit.stop)
    (later : Spliced edits edit.stop rest after) :
    Spliced (edit :: edits) p (gap ++ (old ++ rest)) (gap ++ (edit.content ++ after))

variable {source : List Char} {edits : List Edit}

/-- **Edits that stand one after the other** leave the pieces between them as they are. -/
theorem spliced_of_inTurn {p : Nat} {before rest : List Char} (whole : source = before ++ rest)
    (here : byteLength before = p) (turn : InTurn p edits) (fits : ∀ e ∈ edits, e.Fits source) :
    Spliced edits p rest ((reading edits p rest).map Glyph.char) := by
  induction edits generalizing p before rest with
  | nil =>
    have plain : reading [] p (rest ++ []) = copiedText p rest ++ reading [] (p + byteLength rest) [] :=
      reading_gap rest [] (by simp)
    have same : (reading [] p rest).map Glyph.char = rest := by
      rw [List.append_nil] at plain
      simp [plain, reading, insertedAt]
    rw [same]
    exact .copied rest
  | cons edit edits ih =>
    obtain ⟨first, turn⟩ := turn
    have others : ∀ e ∈ edits, e.Fits source := fun e mem => fits e (List.mem_cons_of_mem _ mem)
    have later := turn.le_start fun e mem => (others e mem).ordered
    obtain ⟨gap, old, after, rfl, starts, stops⟩ :=
      (fits edit List.mem_cons_self).exists_cut whole here first
    have behind : source = (before ++ gap ++ old) ++ after := by
      rw [whole, List.append_assoc, List.append_assoc]
    have reached : byteLength (before ++ gap ++ old) = edit.stop := by
      rw [byteLength_append, byteLength_append, here, starts, stops]
    have spliced := ih behind reached turn others
    rw [reading_cons starts stops later, List.map_append, List.map_append, chars_copiedText,
      chars_newText]
    exact .replaced starts stops spliced

/-- **Edits that apply** leave the pieces between them as they are. -/
theorem spliced_of_apply (fits : ∀ e ∈ edits, e.Fits source) (apart : edits.Pairwise Edit.Apart)
    {output : Output} (applied : apply source edits = .ok output) :
    Spliced (edits.mergeSort Edit.precedes) 0 source output.code := by
  obtain ⟨result, succeeds, -, glyphs⟩ := apply_of_apart fits apart
  obtain rfl := Except.ok.inj (succeeds.symm.trans applied)
  have sorted : ∀ e ∈ edits.mergeSort Edit.precedes, e.Fits source := fun e mem =>
    fits e ((List.mergeSort_perm edits Edit.precedes).mem_iff.mp mem)
  have spliced := spliced_of_inTurn (List.nil_append source).symm rfl (inTurn_mergeSort fits apart) sorted
  rw [Output.code_eq_chars, glyphs, ← reading_mergeSort apart]
  exact spliced

end ModuleInterop.Patch
