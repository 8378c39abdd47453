import ModuleInterop.Proofs.Conversion.Elision
import ModuleInterop.Proofs.Conversion.Growth
import ModuleInterop.Proofs.Patch.Application
import ModuleInterop.Proofs.Usage.Place

/-!
# Findings about a stretch of the text

Uses that stand in one stretch of the text add edits of that stretch, and these are apart from one
another (`Findings.Extends`).  Over adjacent stretches this composes.

A declaration of variables is special: which of its variables go is known only at its end, and then
the stretches that are deleted may not touch what was edited inside the variables that stay
(`extends_elide`).
-/

set_option autoImplicit false

namespace ModuleInterop.Patch

open ModuleInterop.Text

variable {source : List Char} {lo hi lo' hi' mid : Nat} {edits others : List Edit}

/-- Edits of an interval of the source that each take the place of some text and are apart from one
another. -/
structure Confined (source : List Char) (lo hi : Nat) (edits : List Edit) : Prop where
  fits : ∀ e ∈ edits, e.Fits source
  text : ∀ e ∈ edits, e.start < e.stop
  within : ∀ e ∈ edits, lo ≤ e.start ∧ e.stop ≤ hi
  apart : edits.Pairwise Edit.Apart

namespace Confined

theorem nil : Confined source lo hi [] := ⟨by simp, by simp, by simp, List.Pairwise.nil⟩

theorem single {edit : Edit} (fits : edit.Fits source) (text : edit.start < edit.stop)
    (low : lo ≤ edit.start) (high : edit.stop ≤ hi) : Confined source lo hi [edit] :=
  ⟨by simpa using fits, by simpa using text, by simpa using ⟨low, high⟩,
    List.pairwise_singleton _ _⟩

theorem mono (h : Confined source lo hi edits) (low : lo' ≤ lo) (high : hi ≤ hi') :
    Confined source lo' hi' edits := by
  refine ⟨h.fits, h.text, ?_, h.apart⟩
  intro e mem
  have := h.within e mem
  omega

/-- Edits of one interval that are apart from each other. -/
theorem union (h : Confined source lo hi edits) (h' : Confined source lo hi others)
    (apart : ∀ a ∈ edits, ∀ b ∈ others, a.Apart b) : Confined source lo hi (edits ++ others) := by
  refine ⟨?_, ?_, ?_, List.pairwise_append.mpr ⟨h.apart, h'.apart, apart⟩⟩
  · intro e mem
    exact (List.mem_append.mp mem).elim (h.fits e) (h'.fits e)
  · intro e mem
    exact (List.mem_append.mp mem).elim (h.text e) (h'.text e)
  · intro e mem
    exact (List.mem_append.mp mem).elim (h.within e) (h'.within e)

/-- Edits of two intervals of which one follows the other. -/
theorem append (h : Confined source lo mid edits) (h' : Confined source mid hi others)
    (low : lo ≤ mid) (high : mid ≤ hi) : Confined source lo hi (edits ++ others) := by
  refine (h.mono (Nat.le_refl _) high).union (h'.mono low (Nat.le_refl _)) ?_
  intro a memA b memB
  have before := (h.within a memA).2
  have after := (h'.within b memB).1
  left
  omega

theorem left (h : Confined source lo hi (edits ++ others)) : Confined source lo hi edits :=
  ⟨fun e mem => h.fits e (List.mem_append_left _ mem),
    fun e mem => h.text e (List.mem_append_left _ mem),
    fun e mem => h.within e (List.mem_append_left _ mem), (List.pairwise_append.mp h.apart).1⟩

/-- The order in which edits are recorded makes no difference. -/
theorem perm (h : Confined source lo hi edits) (same : edits.Perm others) :
    Confined source lo hi others := by
  refine ⟨?_, ?_, ?_, (same.pairwise_iff Edit.Apart.symm).mp h.apart⟩
  · intro e mem
    exact h.fits e (same.mem_iff.mpr mem)
  · intro e mem
    exact h.text e (same.mem_iff.mpr mem)
  · intro e mem
    exact h.within e (same.mem_iff.mpr mem)

end Confined

end ModuleInterop.Patch

namespace ModuleInterop.Conversion

open ModuleInterop.Syntax ModuleInterop.Scope ModuleInterop.Usage ModuleInterop.Patch
  ModuleInterop.Text

variable {source : List Char} {lo hi lo' hi' mid : Nat}

/-- The replacement of a span of the source, or its deletion. -/
theorem confined_span {span : Span} (within : span.Within source lo hi)
    (text : span.start < span.stop) (content : List Char) :
    Confined source lo hi [⟨span.start, span.stop, content⟩] :=
  .single ⟨within.ordered, within.start, within.stop⟩ text within.lo_le within.le_hi

namespace Findings

variable {findings before after : Findings} {frame : Frame}

/-- Later findings have edits and elided variables of an interval besides the earlier ones. -/
structure Extends (source : List Char) (lo hi : Nat) (before after : Findings) : Prop where
  edits : ∃ added, after.edits = before.edits ++ added ∧ Confined source lo hi added
  elided : ∃ gone, after.elided = before.elided ++ gone ∧
    ∀ s ∈ gone, lo < s.start ∧ s.start < s.stop ∧ s.stop ≤ hi

namespace Extends

/-- Nothing is added. -/
theorem of_eq (edits : after.edits = before.edits) (elided : after.elided = before.elided) :
    Extends source lo hi before after :=
  ⟨⟨[], by simpa using edits, .nil⟩, ⟨[], by simpa using elided, by simp⟩⟩

/-- Edits are added. -/
theorem of_edits {added : List Edit} (confined : Confined source lo hi added)
    (edits : after.edits = before.edits ++ added) (elided : after.elided = before.elided) :
    Extends source lo hi before after :=
  ⟨⟨added, edits, confined⟩, ⟨[], by simpa using elided, by simp⟩⟩

/-- What is added depends on the edits and the elided variables that there are, and on nothing
else. -/
theorem congr {before' : Findings} (h : Extends source lo hi before' after)
    (edits : before'.edits = before.edits) (elided : before'.elided = before.elided) :
    Extends source lo hi before after := by
  obtain ⟨extended, gone⟩ := h
  rw [edits] at extended
  rw [elided] at gone
  exact ⟨extended, gone⟩

theorem mono (h : Extends source lo hi before after) (low : lo' ≤ lo) (high : hi ≤ hi') :
    Extends source lo' hi' before after := by
  obtain ⟨⟨added, edits, confined⟩, ⟨gone, elided, spans⟩⟩ := h
  refine ⟨⟨added, edits, confined.mono low high⟩, ⟨gone, elided, ?_⟩⟩
  intro s mem
  have := spans s mem
  omega

theorem trans {middle : Findings} (h : Extends source lo mid before middle)
    (h' : Extends source mid hi middle after) (low : lo ≤ mid) (high : mid ≤ hi) :
    Extends source lo hi before after := by
  obtain ⟨⟨added, edits, confined⟩, ⟨gone, elided, spans⟩⟩ := h
  obtain ⟨⟨added', edits', confined'⟩, ⟨gone', elided', spans'⟩⟩ := h'
  refine ⟨⟨added ++ added', by rw [edits', edits, List.append_assoc], ?_⟩,
    ⟨gone ++ gone', by rw [elided', elided, List.append_assoc], ?_⟩⟩
  · exact confined.append confined' low high
  · intro s mem
    rcases List.mem_append.mp mem with mem | mem
    · have := spans s mem
      omega
    · have := spans' s mem
      omega

/-- Variables that went before an interval went before what follows it, too. -/
theorem past (h : Extends source lo hi before after) (le : lo ≤ hi)
    (past : ∀ s ∈ before.elided, s.start < lo) : ∀ s ∈ after.elided, s.start < hi := by
  obtain ⟨gone, elided, spans⟩ := h.elided
  rw [elided]
  intro s mem
  rcases List.mem_append.mp mem with mem | mem
  · have := past s mem
    omega
  · have := spans s mem
    omega

end Extends

/-! ## One use -/

theorem extends_replace {span : Span} (within : span.Within source lo hi)
    (text : span.start < span.stop) (content : String) :
    Extends source lo hi findings (findings.replace span content) :=
  .of_edits (confined_span within text _) rfl rfl

theorem extends_removeStatement {span : Span} (within : span.Within source lo hi)
    (text : span.start < span.stop) (home : Home) :
    Extends source lo hi findings (findings.removeStatement span home) := by
  unfold removeStatement
  split
  · unfold delete remove
    rw [if_pos text]
    exact .of_edits (confined_span within text _) rfl rfl
  · exact extends_replace within text _

/-- Registering a target concerns no text. -/
theorem register_same (frame : Frame) (findings : Findings) (call : RequireCall)
    (preferred : Option String) :
    (findings.register frame call preferred).2.edits = findings.edits ∧
      (findings.register frame call preferred).2.elided = findings.elided := by
  obtain ⟨_, _, _, same⟩ := register_eq findings frame call preferred
  rw [same]
  exact ⟨rfl, rfl⟩

theorem useValue_same (findings : Findings) (root : ModuleName) :
    (findings.useValue root).edits = findings.edits ∧
      (findings.useValue root).elided = findings.elided := by
  cases root with
  | module => exact ⟨rfl, rfl⟩
  | exports => exact ⟨rfl, rfl⟩

/-- **One step**: a use edits where it lies. -/
theorem extends_step {use : Use} (lies : use.Lies source lo hi) :
    Extends source lo hi findings (findings.step frame use) := by
  cases use with
  | name name span shorthand =>
    cases name with
    | require => exact .of_edits (confined_span lies.1 lies.2 _) rfl rfl
    | value root =>
      have same := useValue_same findings root
      exact .of_eq same.1 same.2
    | global =>
      simp only [step]
      split
      · exact .of_eq rfl rfl
      · exact .of_edits (confined_span lies.1 lies.2 _) rfl rfl
    | define => exact .of_edits (confined_span lies.1 lies.2 _) rfl rfl
  | outerThis span =>
    simp only [step]
    split
    · exact .of_eq rfl rfl
    · exact .of_edits (confined_span lies.1 lies.2 _) rfl rfl
  | typeofValue span root =>
    have same := useValue_same (findings.replace span "'object'") root
    exact .of_edits (confined_span lies.1 lies.2 _) same.1 same.2
  | outerReturn => exact .of_eq rfl rfl
  | exporting path direct names =>
    have same := useValue_same findings path.root
    exact .of_eq same.1 same.2
  | requiring call statement =>
    have same := register_same frame findings call none
    cases statement with
    | none =>
      exact (extends_replace lies.1 lies.2 _).congr same.1 same.2
    | some statement =>
      exact (extends_removeStatement lies.1 lies.2 statement.2).congr same.1 same.2
  | requiredVariable span name call => exact lies.elim
  | declared span home declarators => exact lies.elim

/-- The own use of a node edits where it lies. -/
theorem extends_own {node : Node} {context : Usage.Context}
    (lies : ∀ use ∈ node.own context, use.Lies source lo hi) :
    Extends source lo hi findings ((node.own context).foldl (step frame) findings) := by
  obtain ⟨use, own⟩ := node.own_eq_toList context
  rw [own] at lies ⊢
  cases use with
  | none => exact .of_eq rfl rfl
  | some use => exact extends_step (lies use (by simp))

/-! ## A declaration of variables -/

/-- What becomes of one variable: it goes, or what is edited lies inside it. -/
def Declares (source : List Char) (span : Span) (before after : Findings) : Prop :=
  after.edits = before.edits ∧ after.elided = before.elided ++ [span] ∨
    Extends source span.start span.stop before after

/-- What becomes of the variables of a declaration up to its end. -/
structure Declared (source : List Char) (lo hi : Nat) (spans : List Span)
    (before after : Findings) : Prop where
  order : InOrder lo hi spans
  boundaries : ∀ s ∈ spans, Boundary source s.start ∧ Boundary source s.stop
  elided : ∃ gone, after.elided = before.elided ++ gone ∧
    ∀ s ∈ gone, lo ≤ s.start ∧ s.start < s.stop ∧ s.stop ≤ hi
  /-- Each edit lies in a variable that stays. -/
  edits : ∃ added, after.edits = before.edits ++ added ∧ Confined source lo hi added ∧
    ∀ e ∈ added, ∃ s ∈ spans, s ∉ after.elided ∧ s.start ≤ e.start ∧ e.stop ≤ s.stop

/-- A variable before others.  It cannot be taken for one that goes elsewhere, since that one begins
further to the left, inside this one, or further to the right. -/
theorem Declared.cons {span : Span} {spans : List Span} {middle : Findings}
    (within : span.Within source lo mid) (text : span.start < span.stop)
    (h : Declares source span before middle) (h' : Declared source mid hi spans middle after)
    (past : ∀ s ∈ before.elided, s.start < lo) (le : mid ≤ hi) :
    Declared source lo hi (span :: spans) before after := by
  obtain ⟨lo_le, -, le_mid, start, stop⟩ := within
  obtain ⟨order, boundaries, ⟨gone', elided', spans'⟩, ⟨added', edits', confined', kept'⟩⟩ := h'
  have order : InOrder span.stop hi spans := by
    cases spans with
    | nil => exact Nat.le_trans le_mid order
    | cons next spans => exact ⟨Nat.le_trans le_mid order.1, order.2⟩
  have kept' : ∀ e ∈ added', ∃ s ∈ span :: spans,
      s ∉ after.elided ∧ s.start ≤ e.start ∧ e.stop ≤ s.stop := by
    intro e mem
    obtain ⟨s, among, stays⟩ := kept' e mem
    exact ⟨s, List.mem_cons_of_mem _ among, stays⟩
  have boundaries : ∀ s ∈ span :: spans, Boundary source s.start ∧ Boundary source s.stop := by
    intro s mem
    rcases List.mem_cons.mp mem with rfl | mem
    · exact ⟨start, stop⟩
    · exact boundaries s mem
  refine ⟨⟨lo_le, text, order⟩, boundaries, ?_, ?_⟩
  · rcases h with ⟨-, elided⟩ | h
    · refine ⟨span :: gone', by rw [elided', elided]; simp, ?_⟩
      intro s mem
      rcases List.mem_cons.mp mem with rfl | mem
      · omega
      · have := spans' s mem
        omega
    · obtain ⟨gone, elided, inside⟩ := h.elided
      refine ⟨gone ++ gone', by rw [elided', elided, List.append_assoc], ?_⟩
      intro s mem
      rcases List.mem_append.mp mem with mem | mem
      · have := inside s mem
        omega
      · have := spans' s mem
        omega
  · rcases h with ⟨edits, -⟩ | h
    · exact ⟨added', by rw [edits', edits], confined'.mono (by omega) (Nat.le_refl _), kept'⟩
    · obtain ⟨⟨added, edits, confined⟩, ⟨gone, elided, inside⟩⟩ := h
      have stays : span ∉ after.elided := by
        rw [elided', elided, List.mem_append, List.mem_append]
        rintro ((mem | mem) | mem)
        · have := past span mem
          omega
        · have := inside span mem
          omega
        · have := spans' span mem
          omega
      refine ⟨added ++ added', by rw [edits', edits, List.append_assoc],
        (confined.mono lo_le le_mid).append confined' (by omega) le, ?_⟩
      intro e mem
      rcases List.mem_append.mp mem with mem | mem
      · exact ⟨span, List.mem_cons_self, stays, confined.within e mem⟩
      · exact kept' e mem

theorem elided_elide (findings : Findings) (span : Span) (home : Home) (spans : List Span) :
    (findings.elide span home spans).elided = findings.elided := by
  obtain ⟨edits, same⟩ := elide_eq findings span home spans
  rw [same]

/-- Stretches with text are deleted by one edit each. -/
theorem edits_deleteAll {ranges : List (Nat × Nat)} (text : ∀ r ∈ ranges, r.1 < r.2) :
    (ranges.foldl (fun findings r => findings.delete r.1 r.2) findings).edits =
      findings.edits ++ ranges.map fun r => ⟨r.1, r.2, []⟩ := by
  induction ranges generalizing findings with
  | nil => simp
  | cons r ranges ih =>
    have deleted : (findings.delete r.1 r.2).edits = findings.edits ++ [⟨r.1, r.2, []⟩] := by
      unfold delete remove
      rw [if_pos (text r List.mem_cons_self)]
      rfl
    rw [List.foldl_cons, ih fun r mem => text r (List.mem_cons_of_mem _ mem), deleted,
      List.append_assoc]
    rfl

theorem confined_deleteAll {ranges : List (Nat × Nat)}
    (inside : ∀ r ∈ ranges, lo ≤ r.1 ∧ r.1 < r.2 ∧ r.2 ≤ hi ∧
      Boundary source r.1 ∧ Boundary source r.2)
    (inTurn : ranges.Pairwise fun a b => a.2 ≤ b.1) :
    Confined source lo hi (ranges.map fun r => ⟨r.1, r.2, []⟩) := by
  refine ⟨?_, ?_, ?_, List.pairwise_map.mpr (inTurn.imp fun le => .inl le)⟩
  · intro e mem
    obtain ⟨r, among, rfl⟩ := List.mem_map.mp mem
    obtain ⟨-, text, -, start, stop⟩ := inside r among
    exact ⟨Nat.le_of_lt text, start, stop⟩
  · intro e mem
    obtain ⟨r, among, rfl⟩ := List.mem_map.mp mem
    exact (inside r among).2.1
  · intro e mem
    obtain ⟨r, among, rfl⟩ := List.mem_map.mp mem
    obtain ⟨low, -, high, -⟩ := inside r among
    exact ⟨low, high⟩

/-- The stretches to delete where some of the variables of a declaration go. -/
theorem cuts_elide {spans : List Span} (gone : List Span) (order : InOrder lo hi spans)
    (boundaries : ∀ s ∈ spans, Boundary source s.start ∧ Boundary source s.stop) :
    (∀ r ∈ elisionRanges (spans.map fun s => (s, gone.contains s)), lo ≤ r.1 ∧ r.1 < r.2 ∧
        r.2 ≤ hi ∧ Boundary source r.1 ∧ Boundary source r.2) ∧
      (elisionRanges (spans.map fun s => (s, gone.contains s))).Pairwise (fun a b => a.2 ≤ b.1) ∧
      ∀ r ∈ elisionRanges (spans.map fun s => (s, gone.contains s)), ∀ s ∈ spans, s ∉ gone →
        r.2 ≤ s.start ∨ s.stop ≤ r.1 := by
  have flagged : InOrder lo hi ((spans.map fun s => (s, gone.contains s)).map (·.1)) := by
    rw [List.map_map]
    exact (List.map_id spans).symm ▸ order
  have ends : ∀ v ∈ spans.map fun s => (s, gone.contains s),
      Boundary source v.1.start ∧ Boundary source v.1.stop := by
    intro v mem
    obtain ⟨s, among, rfl⟩ := List.mem_map.mp mem
    exact boundaries s among
  obtain ⟨inside, inTurn, spares⟩ := cuts_elisionRanges flagged ends
  exact ⟨inside, inTurn, fun r range s mem stays =>
    spares r range s (List.mem_map.mpr ⟨s, mem, by simpa using stays⟩)⟩

/-- **The end of a declaration** deletes none of what was edited inside the variables that stay. -/
theorem extends_elide {span : Span} {spans : List Span} (within : span.Within source lo hi)
    (text : span.start < span.stop)
    (h : Declared source (span.start + 1) span.stop spans before after) (home : Home) :
    Extends source lo hi before (after.elide span home spans) := by
  obtain ⟨lo_le, ordered, le_hi, -, -⟩ := id within
  obtain ⟨order, boundaries, ⟨gone, elided, inside⟩, ⟨added, edits, confined, kept⟩⟩ := h
  have wide : Confined source lo hi added := confined.mono (by omega) le_hi
  have gone : ∃ gone, (after.elide span home spans).elided = before.elided ++ gone ∧
      ∀ s ∈ gone, lo < s.start ∧ s.start < s.stop ∧ s.stop ≤ hi := by
    refine ⟨gone, by rw [elided_elide, elided], ?_⟩
    intro s mem
    have := inside s mem
    omega
  refine ⟨?_, gone⟩
  unfold elide
  dsimp only
  split
  · exact ⟨added, edits, wide⟩
  · split
    · -- All variables go, so nothing was edited inside of them.
      rename_i all
      have none : added = [] := by
        rw [List.eq_nil_iff_forall_not_mem]
        intro e mem
        obtain ⟨s, among, stays, -⟩ := kept e mem
        refine stays ?_
        simpa using List.all_eq_true.mp all _ (List.mem_map_of_mem among)
      rw [none, List.append_nil] at edits
      rw [← edits]
      exact (extends_removeStatement within text home).edits
    · obtain ⟨cuts, inTurn, spares⟩ := cuts_elide after.elided order boundaries
      refine ⟨added ++ _, ?_, wide.union
        ((confined_deleteAll cuts inTurn).mono (by omega) le_hi) ?_⟩
      · rw [edits_deleteAll fun r mem => (cuts r mem).2.1, edits, List.append_assoc]
      · intro a memA b memB
        obtain ⟨s, among, stays, low, high⟩ := kept a memA
        obtain ⟨r, range, rfl⟩ := List.mem_map.mp memB
        have apart := spares r range s among stays
        show a.stop ≤ r.1 ∨ r.2 ≤ a.start
        omega

end Findings

end ModuleInterop.Conversion
