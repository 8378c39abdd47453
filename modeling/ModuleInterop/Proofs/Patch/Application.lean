import Mathlib.Data.List.Pairwise
import ModuleInterop.Proofs.Patch.Reading

/-!
# Applying edits

`apply` sorts the edits, walks over them once and copies the gaps between them.  For edits that lie in
the source this succeeds exactly if no two of them claim the same text, and then the result is what
reading the source from left to right gives (`apply_iff_apart`).

The walk succeeds if the sorted edits stand one after the other (`InTurn`), which for sorted edits is
the same as being pairwise apart.  Its chunks then give the reading of the edits that are left
(`chunksAfter_reading`).  If it fails, then at two neighbours in the sorted list
(`chunksAfter_conflict`).
-/

set_option autoImplicit false

namespace ModuleInterop.Patch

open ModuleInterop.Text

namespace Edit

/-- The edit replaces a stretch of a text, or inserts at a position of it. -/
structure Fits (source : List Char) (edit : Edit) : Prop where
  ordered : edit.start ≤ edit.stop
  start : Boundary source edit.start
  stop : Boundary source edit.stop

instance (source : List Char) (edit : Edit) : Decidable (edit.Fits source) :=
  decidable_of_iff (edit.start ≤ edit.stop ∧ Boundary source edit.start ∧
    Boundary source edit.stop) ⟨fun h => ⟨h.1, h.2.1, h.2.2⟩, fun h => ⟨h.1, h.2, h.3⟩⟩

/-- One of two edits ends before the other one begins, or where it begins. -/
def Apart (a b : Edit) : Prop := a.stop ≤ b.start ∨ b.stop ≤ a.start

instance (a b : Edit) : Decidable (a.Apart b) := inferInstanceAs (Decidable (_ ∨ _))

theorem Apart.symm {a b : Edit} (h : a.Apart b) : b.Apart a := Or.symm h

instance : Std.Symm Apart := ⟨fun _ _ => Apart.symm⟩

theorem precedes_iff {a b : Edit} :
    a.precedes b = true ↔ a.start < b.start ∨ a.start = b.start ∧ a.stop ≤ b.stop := by
  simp [precedes]

theorem precedes_trans (a b c : Edit) (h : a.precedes b = true) (h' : b.precedes c = true) :
    a.precedes c = true := by
  rw [precedes_iff] at *
  omega

theorem precedes_total (a b : Edit) : (a.precedes b || b.precedes a) = true := by
  rw [Bool.or_eq_true, precedes_iff, precedes_iff]
  omega

/-- Of two edits that are apart the one that precedes ends first. -/
theorem Apart.stop_le {a b : Edit} (apart : a.Apart b) (first : a.precedes b = true)
    (ordered : b.start ≤ b.stop) : a.stop ≤ b.start := by
  rw [precedes_iff] at first
  unfold Apart at apart
  omega

end Edit

/-- Edits that stand one after the other from a position on. -/
def InTurn : Nat → List Edit → Prop
  | _, [] => True
  | n, edit :: edits => n ≤ edit.start ∧ InTurn edit.stop edits

variable {source : List Char} {edits : List Edit}

theorem InTurn.le_start {n : Nat} (turn : InTurn n edits)
    (ordered : ∀ e ∈ edits, e.start ≤ e.stop) : ∀ e ∈ edits, n ≤ e.start := by
  induction edits generalizing n with
  | nil => simp
  | cons edit edits ih =>
    obtain ⟨here, later⟩ := turn
    have := ordered edit List.mem_cons_self
    intro e mem
    rcases List.mem_cons.mp mem with rfl | mem
    · exact here
    · have := ih later (fun e mem => ordered e (List.mem_cons_of_mem _ mem)) e mem
      omega

theorem InTurn.pairwise_apart {n : Nat} (turn : InTurn n edits)
    (ordered : ∀ e ∈ edits, e.start ≤ e.stop) : edits.Pairwise Edit.Apart := by
  induction edits generalizing n with
  | nil => exact List.Pairwise.nil
  | cons edit edits ih =>
    have rest : ∀ e ∈ edits, e.start ≤ e.stop := fun e mem =>
      ordered e (List.mem_cons_of_mem _ mem)
    exact List.Pairwise.cons (fun e mem => .inl (turn.2.le_start rest e mem)) (ih turn.2 rest)

theorem inTurn_of_apart {n : Nat} (sorted : edits.Pairwise fun a b => a.precedes b = true)
    (apart : edits.Pairwise Edit.Apart) (ordered : ∀ e ∈ edits, e.start ≤ e.stop)
    (later : ∀ e ∈ edits, n ≤ e.start) : InTurn n edits := by
  induction edits generalizing n with
  | nil => trivial
  | cons edit edits ih =>
    obtain ⟨first, sorted⟩ := List.pairwise_cons.mp sorted
    obtain ⟨beside, apart⟩ := List.pairwise_cons.mp apart
    have rest : ∀ e ∈ edits, e.start ≤ e.stop := fun e mem =>
      ordered e (List.mem_cons_of_mem _ mem)
    refine ⟨later edit List.mem_cons_self, ih sorted apart rest ?_⟩
    intro e mem
    exact (beside e mem).stop_le (first e mem) (rest e mem)

/-! ## The characters of chunks -/

/-- The characters of a chunk. -/
def Chunk.glyphs (chunk : Chunk) : List Glyph :=
  match chunk.origin with
  | some p => if chunk.copied then copiedText p chunk.text else newText chunk.text
  | none => newText chunk.text

/-- The characters of an output. -/
def Output.glyphs (output : Output) : List Glyph := output.chunks.flatMap Chunk.glyphs

@[simp] theorem Chunk.chars_glyphs (chunk : Chunk) :
    chunk.glyphs.map Glyph.char = chunk.text := by
  unfold glyphs
  split
  · split <;> simp
  · simp

theorem Output.code_eq_chars (output : Output) : output.code = output.glyphs.map Glyph.char := by
  rw [Output.code, Output.glyphs, List.map_flatMap]
  simp

theorem Chunk.glyphs_ofEdit (edit : Edit) :
    (Chunk.ofEdit edit).flatMap Chunk.glyphs = newText edit.content := by
  unfold ofEdit
  split
  · rename_i empty
    rw [List.isEmpty_iff.mp empty]
    rfl
  · rw [List.flatMap_singleton]
    unfold glyphs
    split <;> rfl

theorem copyGap_append (a b c : List Char) :
    ∃ chunks, copyGap (a ++ b ++ c) (byteLength a) (byteLength a + byteLength b) = .ok chunks ∧
      chunks.flatMap Chunk.glyphs = copiedText (byteLength a) b := by
  unfold copyGap
  split
  · refine ⟨[⟨b, some (byteLength a), true⟩], ?_, by simp [Chunk.glyphs]⟩
    rw [copy, slice?_append]
    rfl
  · have empty : byteLength b = 0 := by omega
    rw [eq_nil_of_byteLength_eq_zero empty]
    exact ⟨[], rfl, rfl⟩

/-- Chunks from the end of the last edit on: the gap, the first edit, and what follows it. -/
theorem chunksAfter_cons (last : Nat × Nat) {edit : Edit} (start : last.2 ≤ edit.start)
    {gap : List Chunk} (copies : copyGap source last.2 edit.start = .ok gap) :
    chunksAfter source last (edit :: edits) =
      (chunksAfter source edit.range edits).map (gap ++ Chunk.ofEdit edit ++ ·) := by
  rw [chunksAfter, if_neg (by omega), copies]
  cases chunksAfter source edit.range edits <;> rfl

/-- A source from a position on, cut at an edit: what stands before the edit, what it replaces, and the
rest. -/
theorem Edit.Fits.exists_cut {edit : Edit} (fit : edit.Fits source) {n : Nat} {before rest : List Char}
    (whole : source = before ++ rest) (here : byteLength before = n) (first : n ≤ edit.start) :
    ∃ gap old after, rest = gap ++ (old ++ after) ∧ n + byteLength gap = edit.start ∧
      edit.start + byteLength old = edit.stop := by
  have begun : Boundary source n := ⟨before, rest, whole, here⟩
  obtain ⟨a, gap, tail, cut, la, lgap⟩ := begun.exists_split fit.start first
  obtain ⟨front, old, after, cut', lfront, lold⟩ := fit.start.exists_split fit.stop fit.ordered
  obtain ⟨rfl, rfl⟩ : a = before ∧ gap ++ tail = rest := by
    apply append_inj_of_byteLength _ (la.trans here.symm)
    rw [← List.append_assoc, ← cut, whole]
  obtain ⟨rfl, rfl⟩ : front = a ++ gap ∧ old ++ after = tail := by
    apply append_inj_of_byteLength
    · rw [← List.append_assoc, ← cut', cut]
    · rw [lfront, byteLength_append, la, lgap]
  exact ⟨gap, old, after, rfl, lgap, lold⟩

/-- **Edits that stand one after the other apply**, and the result is their reading. -/
theorem chunksAfter_reading (last : Nat × Nat) {before rest : List Char}
    (whole : source = before ++ rest) (here : byteLength before = last.2)
    (turn : InTurn last.2 edits) (fits : ∀ e ∈ edits, e.Fits source) :
    ∃ chunks, chunksAfter source last edits = .ok chunks ∧
      chunks.flatMap Chunk.glyphs = reading edits last.2 rest := by
  induction edits generalizing last before rest with
  | nil =>
    obtain ⟨chunks, copies, glyphs⟩ := copyGap_append before rest []
    rw [List.append_nil, ← whole, here] at copies
    refine ⟨chunks, ?_, ?_⟩
    · rw [chunksAfter, whole, byteLength_append, here, ← whole]
      exact copies
    · have plain : reading [] last.2 (rest ++ []) =
          copiedText last.2 rest ++ reading [] (last.2 + byteLength rest) [] :=
        reading_gap rest [] (by simp)
      rw [List.append_nil] at plain
      rw [glyphs, plain, here]
      simp [reading, insertedAt, newText]
  | cons edit edits ih =>
    obtain ⟨first, turn⟩ := turn
    have fit := fits edit List.mem_cons_self
    have others : ∀ e ∈ edits, e.Fits source := fun e mem => fits e (List.mem_cons_of_mem _ mem)
    have ordered : ∀ e ∈ edits, e.start ≤ e.stop := fun e mem => (others e mem).ordered
    have later := turn.le_start ordered
    obtain ⟨gap, old, after, rfl, lgap, lold⟩ := fit.exists_cut whole here first
    obtain ⟨copies, given, glyphs⟩ := copyGap_append before gap (old ++ after)
    rw [List.append_assoc, ← whole, here, lgap] at given
    have behind : source = (before ++ gap ++ old) ++ after := by
      rw [whole, List.append_assoc, List.append_assoc]
    obtain ⟨chunks, walked, follow⟩ := ih edit.range behind
      (by rw [byteLength_append, byteLength_append, here, lgap, lold]; rfl) turn others
    refine ⟨copies ++ Chunk.ofEdit edit ++ chunks, ?_, ?_⟩
    · rw [chunksAfter_cons last first given, walked]
      rfl
    · rw [List.flatMap_append, List.flatMap_append, glyphs, Chunk.glyphs_ofEdit, follow,
        reading_cons lgap lold later, here, List.append_assoc]
      rfl

/-- **The walk fails at two neighbours** of which the second begins inside the first, or else the
edits stand one after the other. -/
theorem chunksAfter_conflict {last : Edit} (fit : last.Fits source)
    (fits : ∀ e ∈ edits, e.Fits source) :
    InTurn last.stop edits ∨ ∃ a b, [a, b] <:+: last :: edits ∧ b.start < a.stop ∧
      chunksAfter source last.range edits = .error (.overlap a.range b.range) := by
  induction edits generalizing last with
  | nil => exact .inl trivial
  | cons edit edits ih =>
    have fit' := fits edit List.mem_cons_self
    rcases Nat.lt_or_ge edit.start last.stop with inside | first
    · refine .inr ⟨last, edit, ⟨[], edits, rfl⟩, inside, ?_⟩
      rw [chunksAfter]
      exact if_pos inside
    · rcases ih fit' fun e mem => fits e (List.mem_cons_of_mem _ mem) with turn | conflict
      · exact .inl ⟨first, turn⟩
      · obtain ⟨a, b, neighbours, inside, fails⟩ := conflict
        obtain ⟨front, gap, tail, rfl, lfront, lgap⟩ := fit.stop.exists_split fit'.start first
        obtain ⟨copies, given, -⟩ := copyGap_append front gap tail
        rw [lfront, lgap] at given
        refine .inr ⟨a, b, neighbours.trans (List.suffix_cons _ _).isInfix, inside, ?_⟩
        rw [chunksAfter_cons last.range first given, fails]
        rfl

/-! ## Sorting -/

theorem sorted_mergeSort (edits : List Edit) :
    (edits.mergeSort Edit.precedes).Pairwise fun a b => a.precedes b = true :=
  List.pairwise_mergeSort Edit.precedes_trans Edit.precedes_total edits

/-- Sorting keeps the order of the insertions at one position. -/
theorem filter_insertsAt_mergeSort (edits : List Edit) (p : Nat) :
    (edits.mergeSort Edit.precedes).filter (Edit.insertsAt p) =
      edits.filter (Edit.insertsAt p) := by
  have alike : (edits.filter (Edit.insertsAt p)).Pairwise fun a b => a.precedes b = true := by
    apply List.Pairwise.imp_of_mem (R := fun _ _ => True)
    · intro a b ha hb _
      have ha := (List.mem_filter.mp ha).2
      have hb := (List.mem_filter.mp hb).2
      rw [Edit.precedes_iff]
      grind [Edit.insertsAt]
    · exact List.pairwise_of_forall fun _ _ => trivial
  have stable := (List.sublist_mergeSort Edit.precedes_trans Edit.precedes_total alike
    List.filter_sublist).filter (Edit.insertsAt p)
  rw [List.filter_filter] at stable
  simp only [Bool.and_self] at stable
  have count := ((List.mergeSort_perm edits Edit.precedes).filter (Edit.insertsAt p)).length_eq
  exact (stable.eq_of_length count.symm).symm

/-- Of edits that are apart at most one replaces the text from a position on. -/
theorem find?_replacesFrom_perm {edits' : List Edit} (perm : edits'.Perm edits)
    (apart : edits.Pairwise Edit.Apart) (p : Nat) :
    edits'.find? (Edit.replacesFrom p) = edits.find? (Edit.replacesFrom p) := by
  cases found : edits.find? (Edit.replacesFrom p) with
  | none =>
    rw [List.find?_eq_none] at found ⊢
    intro e mem
    exact found e (perm.mem_iff.mp mem)
  | some edit =>
    have among := List.mem_of_find?_eq_some found
    have replaces := List.find?_some found
    have isSome : (edits'.find? (Edit.replacesFrom p)).isSome = true := by
      rw [List.find?_isSome]
      exact ⟨edit, perm.mem_iff.mpr among, replaces⟩
    obtain ⟨edit', found'⟩ := Option.isSome_iff_exists.mp isSome
    have among' := perm.mem_iff.mp (List.mem_of_find?_eq_some found')
    have replaces' := List.find?_some found'
    by_cases same : edit' = edit
    · rw [found', same]
    · have := apart.forall among' among same
      unfold Edit.Apart at this
      grind [Edit.replacesFrom]

/-- Sorting edits that are apart does not change how they are read. -/
theorem reading_mergeSort (apart : edits.Pairwise Edit.Apart) (p : Nat) (text : List Char) :
    reading (edits.mergeSort Edit.precedes) p text = reading edits p text := by
  have perm := List.mergeSort_perm edits Edit.precedes
  apply reading_congr
  · exact filter_insertsAt_mergeSort edits
  · exact find?_replacesFrom_perm perm apart
  · intro q
    exact perm.any_eq

/-- Sorted edits that are apart stand one after the other. -/
theorem inTurn_mergeSort (fits : ∀ e ∈ edits, e.Fits source) (apart : edits.Pairwise Edit.Apart) :
    InTurn 0 (edits.mergeSort Edit.precedes) := by
  have perm := List.mergeSort_perm edits Edit.precedes
  apply inTurn_of_apart (sorted_mergeSort edits)
  · exact (perm.pairwise_iff fun h => h.symm).mpr apart
  · exact fun e mem => (fits e (perm.mem_iff.mp mem)).ordered
  · exact fun e _ => Nat.zero_le _

/-! ## Success and failure -/

/-- Edits that fit and are apart apply, and the characters of the result are their reading. -/
theorem apply_of_apart (fits : ∀ e ∈ edits, e.Fits source) (apart : edits.Pairwise Edit.Apart) :
    ∃ output, apply source edits = .ok output ∧ output.source = source ∧
      output.glyphs = reading edits 0 source := by
  have turn := inTurn_mergeSort fits apart
  have fits' : ∀ e ∈ edits.mergeSort Edit.precedes, e.Fits source := fun e mem =>
    fits e ((List.mergeSort_perm edits Edit.precedes).mem_iff.mp mem)
  obtain ⟨chunks, walked, glyphs⟩ :=
    chunksAfter_reading (0, 0) (List.nil_append source).symm rfl turn fits'
  refine ⟨⟨source, chunks⟩, ?_, rfl, ?_⟩
  · rw [apply, walked]
    rfl
  · rw [← reading_mergeSort apart]
    exact glyphs

/-- Edits that fit and are not apart do not apply because of two of them that are not apart. -/
theorem apply_of_not_apart (fits : ∀ e ∈ edits, e.Fits source)
    (notApart : ¬ edits.Pairwise Edit.Apart) :
    ∃ a b others, edits.Perm (a :: b :: others) ∧ ¬ a.Apart b ∧
      apply source edits = .error (.overlap a.range b.range) := by
  have perm := List.mergeSort_perm edits Edit.precedes
  have sorted := sorted_mergeSort edits
  have fits' : ∀ e ∈ edits.mergeSort Edit.precedes, e.Fits source := fun e mem =>
    fits e (perm.mem_iff.mp mem)
  have notTurn : ¬ InTurn 0 (edits.mergeSort Edit.precedes) := by
    intro turn
    apply notApart
    exact (perm.pairwise_iff fun h => h.symm).mp
      (turn.pairwise_apart fun e mem => (fits' e mem).ordered)
  unfold apply
  generalize edits.mergeSort Edit.precedes = ordered at *
  cases ordered with
  | nil => exact absurd trivial notTurn
  | cons first rest =>
    have fit := fits' first List.mem_cons_self
    rcases chunksAfter_conflict fit fun e mem => fits' e (List.mem_cons_of_mem _ mem) with
      turn | ⟨a, b, ⟨s, t, neighbours⟩, inside, fails⟩
    · exact absurd ⟨Nat.zero_le _, turn⟩ notTurn
    · have both : (first :: rest).Perm (a :: b :: (s ++ t)) := by
        rw [← neighbours]
        have : (s ++ [a, b] ++ t).Perm ([a, b] ++ s ++ t) :=
          (List.perm_append_comm).append_right t
        simpa using this
      have order : a.precedes b = true := by
        have : [a, b].Sublist (first :: rest) := by
          rw [← neighbours]
          exact (List.infix_append s [a, b] t).sublist
        simpa using sorted.sublist this
      have fitA := fits' a (both.mem_iff.mpr (by simp))
      have fitB := fits' b (both.mem_iff.mpr (by simp))
      obtain ⟨before, after, whole, len⟩ := fit.start
      obtain ⟨copies, given, -⟩ := copyGap_append [] before after
      rw [List.nil_append, ← whole] at given
      simp only [byteLength, Nat.zero_add, len] at given
      refine ⟨a, b, s ++ t, perm.symm.trans both, ?_, ?_⟩
      · intro apart
        have := apart.stop_le order fitB.ordered
        omega
      · rw [chunksAfter_cons (0, 0) (Nat.zero_le _) given, fails]
        rfl

/-- **Edits of a text apply exactly if no two of them claim the same text.**  The text is then the
source read from left to right, with insertions before replacements and in the order they were
recorded in, and otherwise the two edits that are reported do claim the same text. -/
theorem apply_iff_apart (fits : ∀ e ∈ edits, e.Fits source) :
    ((∃ output, apply source edits = .ok output) ↔ edits.Pairwise Edit.Apart) ∧
      (∀ output, apply source edits = .ok output →
        output.code = (reading edits 0 source).map Glyph.char) ∧
      ∀ problem, apply source edits = .error problem →
        ∃ a b others, edits.Perm (a :: b :: others) ∧ ¬ a.Apart b ∧
          problem = .overlap a.range b.range := by
  by_cases apart : edits.Pairwise Edit.Apart
  · obtain ⟨output, applied, -, glyphs⟩ := apply_of_apart fits apart
    refine ⟨⟨fun _ => apart, fun _ => ⟨output, applied⟩⟩, ?_, ?_⟩
    · intro output' applied'
      rw [applied] at applied'
      obtain rfl := Except.ok.inj applied'
      rw [Output.code_eq_chars, glyphs]
    · intro problem fails
      rw [applied] at fails
      contradiction
  · obtain ⟨a, b, others, perm, conflict, fails⟩ := apply_of_not_apart fits apart
    refine ⟨⟨fun ⟨output, applied⟩ => ?_, fun h => absurd h apart⟩, ?_, ?_⟩
    · rw [fails] at applied
      contradiction
    · intro output applied
      rw [fails] at applied
      contradiction
    · intro problem fails'
      rw [fails] at fails'
      exact ⟨a, b, others, perm, conflict, (Except.error.inj fails').symm⟩

/-- A replacement that is recorded before the insertions at its two ends. -/
def bracketEdits : List Edit := [⟨1, 2, ['B']⟩, ⟨1, 1, ['<']⟩, ⟨2, 2, ['>']⟩]

/-- The insertions at the ends of a replaced stretch stand around its content. -/
theorem brackets_apply :
    (∀ e ∈ bracketEdits, e.Fits ['a', 'b', 'c']) ∧
      ∃ output, apply ['a', 'b', 'c'] bracketEdits = .ok output ∧
        output.code = ['a', '<', 'B', '>', 'c'] := by
  have fits : ∀ e ∈ bracketEdits, e.Fits ['a', 'b', 'c'] := by decide
  obtain ⟨succeeds, reads, -⟩ := apply_iff_apart fits
  obtain ⟨output, applied⟩ := succeeds.mpr (by decide)
  exact ⟨fits, output, applied, (reads output applied).trans (by decide)⟩

end ModuleInterop.Patch
