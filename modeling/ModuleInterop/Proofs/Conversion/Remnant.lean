import Mathlib.Data.List.Basic
import ModuleInterop.Proofs.Conversion.Elision

/-!
# What is left of a declaration

When some variables of a declaration are taken out, the ones that stay are left untouched, nothing is
left before the first or behind the last of them, and of the gaps between one that stays and the next
one that stays exactly one is left: the last one (`leavesKept_elisionRanges`).  So the variables that
stay are separated as they were.

A variable that goes takes out all from the end of the last one before it that stays, and the first
one that stays takes out all before it.  `Takes` says so for a single position, and the stretches that
are collected delete these positions (`deleted_elisionFrom`).  What is left is then read off `Takes`.
-/

set_option autoImplicit false

namespace ModuleInterop.Conversion

open ModuleInterop.Syntax

/-- A position lies in one of the stretches. -/
def Deleted (ranges : List (Nat × Nat)) (p : Nat) : Prop := ∃ r ∈ ranges, r.1 ≤ p ∧ p < r.2

/-- Of a declaration, the stretches leave the variables that stay and one of the gaps between each of
them and the next one. -/
structure LeavesKept (declarators : List (Span × Bool)) (ranges : List (Nat × Nat)) : Prop where
  text : ∀ r ∈ ranges, r.1 < r.2
  apart : ranges.Pairwise fun a b => a.2 < b.1
  begins : ∀ r ∈ ranges, ∀ first ∈ declarators.head?, first.1.start ≤ r.1
  ends : ∀ r ∈ ranges, ∀ last ∈ declarators.getLast?, r.2 ≤ last.1.stop
  gone : ∀ span, (span, true) ∈ declarators →
    ∀ p, span.start ≤ p → p < span.stop → Deleted ranges p
  kept : ∀ span, (span, false) ∈ declarators →
    ∀ p, span.start ≤ p → p < span.stop → ¬ Deleted ranges p
  leading : ∀ run span others, declarators = run ++ (span, false) :: others →
    (∀ v ∈ run, v.2 = true) → ∀ first ∈ declarators.head?,
    ∀ p, first.1.start ≤ p → p < span.start → Deleted ranges p
  trailing : ∀ before span run, declarators = before ++ (span, false) :: run →
    (∀ v ∈ run, v.2 = true) → ∀ last ∈ declarators.getLast?,
    ∀ p, span.stop ≤ p → p < last.1.stop → Deleted ranges p
  /-- The gap that is left lies between two neighbours. -/
  between : ∀ before prev run next others,
    declarators = before ++ (prev, false) :: (run ++ (next, false) :: others) →
    (∀ v ∈ run, v.2 = true) →
    ∃ left v w right, (prev, false) :: (run ++ [(next, false)]) = left ++ v :: w :: right ∧
      ∀ p, prev.stop ≤ p → p < next.start → (¬ Deleted ranges p ↔ v.1.stop ≤ p ∧ p < w.1.start)

variable {first cursor reached hi : Nat} {ranges : List (Nat × Nat)}

/-! ## The positions that are taken out -/

/-- What has been collected up to the position `reached`, where `cursor` is the end of the last of
the variables that stay. -/
structure Gathered (first cursor reached : Nat) (ranges : List (Nat × Nat)) : Prop where
  inside : ∀ r ∈ ranges, first ≤ r.1 ∧ r.1 < r.2 ∧ r.2 ≤ reached
  apart : ranges.Pairwise fun a b => a.2 < b.1
  /-- Only a stretch from the cursor on can be joined with the next one. -/
  clear : ∀ r ∈ ranges, r.2 < cursor ∨ r.1 = cursor
  first_le : first ≤ cursor
  le_reached : cursor ≤ reached

theorem Gathered.start : Gathered first first first [] where
  inside := by simp
  apart := List.Pairwise.nil
  clear := by simp
  first_le := Nat.le_refl _
  le_reached := Nat.le_refl _

theorem Gathered.mono (h : Gathered first cursor reached ranges) (le : reached ≤ hi) :
    Gathered first cursor hi ranges := by
  have inside : ∀ r ∈ ranges, first ≤ r.1 ∧ r.1 < r.2 ∧ r.2 ≤ hi := by
    intro r mem
    have := h.inside r mem
    omega
  exact { h with inside := inside, le_reached := Nat.le_trans h.le_reached le }

/-- A variable that stays moves the cursor to its end. -/
theorem Gathered.keep (h : Gathered first cursor reached ranges) {span : Span}
    (begins : reached ≤ span.start) (text : span.start < span.stop) :
    Gathered first span.stop span.stop ranges := by
  have before := h.mono (show reached ≤ span.stop by omega)
  refine { before with clear := ?_, first_le := ?_, le_reached := Nat.le_refl _ }
  · intro r mem
    have := h.inside r mem
    omega
  · have := before.le_reached
    have := before.first_le
    omega

/-- A stretch from the cursor on is joined to one that begins there, or follows all others. -/
theorem Gathered.addRange_cases (h : Gathered first cursor reached ranges) {stop : Nat}
    (text : cursor < stop) :
    (∃ others last, ranges = others ++ [last] ∧ last.1 = cursor ∧
        addRange ranges cursor stop = others ++ [(cursor, max last.2 stop)]) ∨
      (∀ r ∈ ranges, r.2 < cursor) ∧ addRange ranges cursor stop = ranges ++ [(cursor, stop)] := by
  rcases joins_or_follows (h.apart.imp Nat.le_of_lt) (fun r mem => (h.inside r mem).2.1) text with
    ⟨others, last, rfl, joins, joined⟩ | follows
  · have lastClear := h.clear last (by simp)
    have same : last.1 = cursor := by omega
    exact .inl ⟨others, last, rfl, same, by rw [joined, same]⟩
  · exact .inr follows

/-- A stretch from the cursor on is collected. -/
theorem Gathered.add (h : Gathered first cursor reached ranges) {stop : Nat}
    (le : reached ≤ stop) : Gathered first cursor stop (addRange ranges cursor stop) := by
  have first_le := h.first_le
  have le_reached := h.le_reached
  by_cases text : cursor < stop
  · rcases h.addRange_cases text with ⟨others, last, rfl, same, joined⟩ | ⟨behind, added⟩
    · obtain ⟨apart, -, before⟩ := List.pairwise_append.mp h.apart
      have upto : max last.2 stop = stop := by
        have := h.inside last (by simp)
        omega
      rw [joined, upto]
      refine ⟨?_, List.pairwise_append.mpr ⟨apart, List.pairwise_singleton _ _, ?_⟩, ?_, first_le,
        by omega⟩
      · rw [List.forall_mem_append, List.forall_mem_singleton]
        refine ⟨fun r mem => ?_, first_le, text, Nat.le_refl _⟩
        have := h.inside r (List.mem_append_left _ mem)
        omega
      · intro r mem
        rw [List.forall_mem_singleton, ← same]
        exact before r mem last (by simp)
      · rw [List.forall_mem_append, List.forall_mem_singleton]
        exact ⟨fun r mem => h.clear r (List.mem_append_left _ mem), .inr rfl⟩
    · rw [added]
      refine ⟨?_, List.pairwise_append.mpr ⟨h.apart, List.pairwise_singleton _ _, ?_⟩, ?_, first_le,
        by omega⟩
      · rw [List.forall_mem_append, List.forall_mem_singleton]
        refine ⟨fun r mem => ?_, first_le, text, Nat.le_refl _⟩
        have := h.inside r mem
        omega
      · intro r mem
        rw [List.forall_mem_singleton]
        exact behind r mem
      · rw [List.forall_mem_append, List.forall_mem_singleton]
        exact ⟨h.clear, .inr rfl⟩
  · rw [addRange, if_pos (by omega)]
    exact h.mono le

theorem deleted_concat (ranges : List (Nat × Nat)) (r : Nat × Nat) (p : Nat) :
    Deleted (ranges ++ [r]) p ↔ Deleted ranges p ∨ r.1 ≤ p ∧ p < r.2 := by
  simp only [Deleted, List.mem_append, List.mem_singleton, or_and_right, exists_or, exists_eq_left]

/-- **A stretch from the cursor on** deletes its positions besides those that are deleted already. -/
theorem Gathered.deleted_addRange (h : Gathered first cursor reached ranges) (stop p : Nat) :
    Deleted (addRange ranges cursor stop) p ↔ Deleted ranges p ∨ cursor ≤ p ∧ p < stop := by
  by_cases text : cursor < stop
  · rcases h.addRange_cases text with ⟨others, last, rfl, same, joined⟩ | ⟨-, added⟩
    · rw [joined, deleted_concat, deleted_concat, or_assoc, same]
      exact or_congr_right (by omega)
    · rw [added, deleted_concat]
  · rw [addRange, if_pos (by omega), or_iff_left]
    omega

/-- Variables from the cursor on take out a position; `isKept` tells whether one that stays has come
before. -/
def Takes : Nat → Bool → List (Span × Bool) → Nat → Prop
  | _, _, [], _ => False
  | cursor, isKept, (span, true) :: others, p =>
    (cursor ≤ p ∧ p < span.stop) ∨ Takes cursor isKept others p
  | cursor, isKept, (span, false) :: others, p =>
    (isKept = false ∧ cursor ≤ p ∧ p < span.start) ∨ Takes span.stop true others p

/-- **The stretches that are collected** from a list of variables. -/
theorem deleted_elisionFrom {declarators : List (Span × Bool)} (isKept : Bool)
    (h : Gathered first cursor reached ranges)
    (order : InOrder reached hi (declarators.map Prod.fst)) :
    (∃ cursor', Gathered first cursor' hi (elisionFrom ranges cursor isKept declarators)) ∧
      ∀ p, Deleted (elisionFrom ranges cursor isKept declarators) p ↔
        Deleted ranges p ∨ Takes cursor isKept declarators p := by
  induction declarators generalizing ranges cursor reached isKept with
  | nil => exact ⟨⟨cursor, h.mono order⟩, fun p => (or_false _).symm.to_iff⟩
  | cons v declarators ih =>
    obtain ⟨span, goes⟩ := v
    obtain ⟨begins, text, order⟩ := order
    cases goes with
    | true =>
      obtain ⟨gathered, deleted⟩ := ih isKept
        (h.add (show reached ≤ span.stop from Nat.le_trans begins (Nat.le_of_lt text))) order
      refine ⟨gathered, fun p => ?_⟩
      rw [elisionFrom, deleted, h.deleted_addRange, Takes, or_assoc]
    | false =>
      cases isKept with
      | true =>
        obtain ⟨gathered, deleted⟩ := ih true (h.keep begins text) order
        refine ⟨gathered, fun p => ?_⟩
        rw [elisionFrom, if_pos rfl, deleted, Takes]
        simp only [Bool.true_eq_false, false_and, false_or]
      | false =>
        obtain ⟨gathered, deleted⟩ := ih true
          ((h.add (show reached ≤ span.start from begins)).keep (Nat.le_refl _) text) order
        refine ⟨gathered, fun p => ?_⟩
        rw [elisionFrom, if_neg Bool.false_ne_true, deleted, h.deleted_addRange, Takes, or_assoc]
        simp only [true_and]

/-! ## What is left -/

section Takes

variable {todo before run : List (Span × Bool)} {span : Span} {isKept : Bool} {p : Nat}

theorem InOrder.of_le {lo : Nat} {spans : List Span} (order : InOrder lo hi spans)
    (le : cursor ≤ lo) : InOrder cursor hi spans := by
  cases spans with
  | nil => exact Nat.le_trans le order
  | cons span spans => exact ⟨Nat.le_trans le order.1, order.2⟩

/-- All that is taken out lies behind the cursor. -/
theorem Takes.cursor_le (takes : Takes cursor isKept todo p)
    (order : InOrder cursor hi (todo.map Prod.fst)) : cursor ≤ p := by
  induction todo generalizing cursor isKept with
  | nil => contradiction
  | cons v todo ih =>
    obtain ⟨span, goes⟩ := v
    obtain ⟨begins, text, later⟩ := order
    have le : cursor ≤ span.stop := Nat.le_trans begins (Nat.le_of_lt text)
    cases goes with
    | true => exact takes.elim (·.1) fun takes => ih takes (later.of_le le)
    | false => exact takes.elim (·.2.1) fun takes => Nat.le_trans le (ih takes later)

/-- A variable that goes is taken out. -/
theorem takes_of_mem (mem : (span, true) ∈ todo) (order : InOrder cursor hi (todo.map Prod.fst))
    (begins : span.start ≤ p) (ends : p < span.stop) : Takes cursor isKept todo p := by
  induction todo generalizing cursor isKept with
  | nil => contradiction
  | cons v todo ih =>
    obtain ⟨other, goes⟩ := v
    rcases List.mem_cons.mp mem with same | among
    · cases same
      exact .inl ⟨Nat.le_trans order.1 begins, ends⟩
    · obtain ⟨before, text, later⟩ := order
      cases goes with
      | true => exact .inr (ih among (later.of_le (Nat.le_trans before (Nat.le_of_lt text))))
      | false => exact .inr (ih among later)

/-- Variables that go take out all from the cursor up to their ends. -/
theorem takes_append_of_gone (gone : ∀ v ∈ run, v.2 = true) :
    Takes cursor isKept (run ++ todo) p ↔
      (∃ v ∈ run, cursor ≤ p ∧ p < v.1.stop) ∨ Takes cursor isKept todo p := by
  induction run with
  | nil => simp
  | cons v run ih =>
    obtain ⟨span, goes⟩ := v
    obtain rfl : goes = true := gone _ List.mem_cons_self
    rw [List.cons_append, Takes, ih fun v mem => gone v (List.mem_cons_of_mem _ mem),
      List.exists_mem_cons_iff, or_assoc]

/-- From a variable that stays on, only what follows it takes something out. -/
theorem takes_append_of_kept
    (order : InOrder cursor hi ((before ++ (span, false) :: todo).map Prod.fst))
    (begins : span.start ≤ p) :
    Takes cursor isKept (before ++ (span, false) :: todo) p ↔ Takes span.stop true todo p := by
  induction before generalizing cursor isKept with
  | nil =>
    rw [List.nil_append, Takes, or_iff_right]
    omega
  | cons v before ih =>
    obtain ⟨other, goes⟩ := v
    obtain ⟨le, text, later⟩ := order
    have text : other.start < other.stop := text
    have upto : other.stop ≤ span.start := later.around.1.le_of_mem.1
    cases goes with
    | true =>
      rw [List.cons_append, Takes, ih (later.of_le (Nat.le_trans le (Nat.le_of_lt text))),
        or_iff_right]
      omega
    | false =>
      rw [List.cons_append, Takes, ih later, or_iff_right]
      omega

end Takes

/-- Spans that do not overlap and come in turn are in order. -/
theorem inOrder_of_pairwise {v : Span × Bool} {declarators : List (Span × Bool)}
    (text : ∀ w ∈ v :: declarators, w.1.start < w.1.stop)
    (order : (v :: declarators).Pairwise fun a b => a.1.stop ≤ b.1.start) :
    ∃ last ∈ (v :: declarators).getLast?,
      InOrder v.1.start last.1.stop ((v :: declarators).map Prod.fst) := by
  induction declarators generalizing v with
  | nil => exact ⟨v, rfl, Nat.le_refl _, text v List.mem_cons_self, Nat.le_refl _⟩
  | cons w declarators ih =>
    obtain ⟨before, order⟩ := List.pairwise_cons.mp order
    obtain ⟨last, isLast, later⟩ := ih (fun x mem => text x (List.mem_cons_of_mem _ mem)) order
    refine ⟨last, isLast, Nat.le_refl _, text v List.mem_cons_self, ?_⟩
    exact later.of_le (before w List.mem_cons_self)

/-- Between two variables that stay, with only variables that go in between, the last gap is left. -/
theorem gap_between {declarators before run others : List (Span × Bool)} {prev next : Span}
    (order : InOrder cursor hi (declarators.map Prod.fst))
    (split : declarators = before ++ (prev, false) :: (run ++ (next, false) :: others))
    (gone : ∀ v ∈ run, v.2 = true) :
    ∃ left v w right, (prev, false) :: (run ++ [(next, false)]) = left ++ v :: w :: right ∧
      ∀ p, prev.stop ≤ p → p < next.start →
        (¬ Takes cursor false declarators p ↔ v.1.stop ≤ p ∧ p < w.1.start) := by
  subst split
  obtain ⟨-, prevText, later⟩ := order.around
  obtain ⟨inner, nextText, rest⟩ := later.around
  have takes : ∀ p, prev.stop ≤ p → p < next.start →
      (Takes cursor false (before ++ (prev, false) :: (run ++ (next, false) :: others)) p ↔
        ∃ v ∈ run, prev.stop ≤ p ∧ p < v.1.stop) := by
    intro p after upto
    have begins : prev.start ≤ p := Nat.le_trans (Nat.le_of_lt prevText) after
    rw [takes_append_of_kept order begins, takes_append_of_gone gone, or_iff_left]
    rintro (⟨⟨⟩, -⟩ | behind)
    have := behind.cursor_le rest
    have nextText : next.start < next.stop := nextText
    omega
  rcases List.eq_nil_or_concat run with rfl | ⟨run, last, rfl⟩
  · refine ⟨[], (prev, false), (next, false), [], rfl, fun p after upto => ?_⟩
    rw [takes p after upto]
    simp [after, upto]
  · rw [List.concat_eq_append] at *
    refine ⟨(prev, false) :: run, last, (next, false), [], by simp, fun p after upto => ?_⟩
    rw [takes p after upto]
    have stops : ∀ v ∈ run, v.1.stop ≤ last.1.stop := by
      intro v mem
      obtain ⟨earlier, text, -⟩ := inner.around
      have := (earlier.le_of_mem.2 v.1 (List.mem_map_of_mem mem)).2.2
      exact Nat.le_trans this (Nat.le_of_lt text)
    constructor
    · intro none
      refine ⟨Nat.le_of_not_lt fun before => none ⟨last, by simp, after, before⟩, upto⟩
    · rintro ⟨behind, -⟩ ⟨v, mem, -, before⟩
      rcases List.mem_append.mp mem with mem | mem
      · have := stops v mem
        omega
      · rw [List.mem_singleton.mp mem] at before
        omega

/-- **What stays of a declaration is what should stay.**  The stretches to delete come one after the
other with text in between, cover each variable that goes and touch none that stays, and leave one gap
between each variable that stays and the next one. -/
theorem leavesKept_elisionRanges {declarators : List (Span × Bool)}
    (text : ∀ v ∈ declarators, v.1.start < v.1.stop)
    (order : declarators.Pairwise fun v w => v.1.stop ≤ w.1.start) :
    LeavesKept declarators (elisionRanges declarators) := by
  cases declarators with
  | nil => constructor <;> simp [elisionRanges]
  | cons first others =>
    obtain ⟨last, isLast, inOrder⟩ := inOrder_of_pairwise text order
    obtain ⟨⟨_, gathered⟩, deleted⟩ := deleted_elisionFrom false .start inOrder
    have deleted : ∀ p, Deleted (elisionRanges (first :: others)) p ↔
        Takes first.1.start false (first :: others) p := by
      intro p
      refine (deleted p).trans (or_iff_right ?_)
      simp [Deleted]
    refine
      { text := fun r mem => (gathered.inside r mem).2.1
        apart := gathered.apart
        begins := ?_
        ends := ?_
        gone := ?_
        kept := ?_
        leading := ?_
        trailing := ?_
        between := ?_ }
    · rintro r mem _ ⟨⟩
      exact (gathered.inside r mem).1
    · intro r mem v isLast'
      obtain rfl := Option.mem_unique isLast' isLast
      exact (gathered.inside r mem).2.2
    · intro span mem p begins ends
      exact (deleted p).mpr (takes_of_mem mem inOrder begins ends)
    · intro span mem p begins ends
      obtain ⟨before, after, split⟩ := List.append_of_mem mem
      rw [deleted, split]
      rw [split] at inOrder
      rw [takes_append_of_kept inOrder begins]
      intro takes
      have := takes.cursor_le inOrder.around.2.2
      omega
    · rintro run span others' split gone _ ⟨⟩ p begins ends
      rw [deleted, split, takes_append_of_gone gone]
      exact .inr (.inl ⟨rfl, begins, ends⟩)
    · intro before span run split gone v isLast' p begins ends
      rw [split] at inOrder isLast'
      have text : span.start < span.stop := inOrder.around.2.1
      rw [deleted, split, takes_append_of_kept inOrder (by omega), ← List.append_nil run,
        takes_append_of_gone gone]
      rw [List.getLast?_append_cons] at isLast'
      rcases List.mem_cons.mp (List.mem_of_getLast? isLast') with rfl | mem
      · exact absurd ends (Nat.not_lt.mpr begins)
      · exact .inl ⟨v, mem, begins, ends⟩
    · intro before prev run next others' split gone
      simp only [deleted]
      exact gap_between inOrder split gone

/-- Of six variables the first goes, two in the middle go and the last goes. -/
theorem mixed_variables_left :
    let declarators : List (Span × Bool) := [(⟨4, 20⟩, true), (⟨22, 27⟩, false), (⟨29, 35⟩, true),
      (⟨37, 43⟩, true), (⟨45, 50⟩, false), (⟨52, 60⟩, true)]
    (∀ v ∈ declarators, v.1.start < v.1.stop) ∧
      (declarators.Pairwise fun v w => v.1.stop ≤ w.1.start) ∧
      elisionRanges declarators = [(4, 22), (27, 43), (50, 60)] ∧
      LeavesKept declarators (elisionRanges declarators) := by
  intro declarators
  have text : ∀ v ∈ declarators, v.1.start < v.1.stop := by decide
  have order : declarators.Pairwise fun v w => v.1.stop ≤ w.1.start := by decide
  exact ⟨text, order, by decide, leavesKept_elisionRanges text order⟩

end ModuleInterop.Conversion
