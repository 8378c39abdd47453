import ModuleInterop.Conversion.Elision
import ModuleInterop.Proofs.Text.Position

/-!
# The stretches that take variables out

Where some variables of a declaration go and others stay, the stretches to delete leave the ones
that stay alone, and they come one after the other (`cuts_elisionRanges`).  The stretches are
collected from left to right; what holds of them on the way is `Cuts`.  Each of them takes out
variables that go and one gap for each (`takesRun_of_mem`).
-/

set_option autoImplicit false

namespace ModuleInterop.Conversion

open ModuleInterop.Syntax ModuleInterop.Text

/-- Spans with text that follow one another between two positions. -/
def InOrder : Nat → Nat → List Span → Prop
  | lo, hi, [] => lo ≤ hi
  | lo, hi, span :: spans => lo ≤ span.start ∧ span.start < span.stop ∧ InOrder span.stop hi spans

variable {source : List Char} {first cursor reached hi : Nat} {kept : List Span}
  {ranges : List (Nat × Nat)}

/-- What has been collected up to the position `reached`, where `cursor` is the end of the last of
the variables that stay. -/
structure Cuts (source : List Char) (first cursor reached : Nat) (kept : List Span)
    (ranges : List (Nat × Nat)) : Prop where
  inside : ∀ r ∈ ranges, first ≤ r.1 ∧ r.1 < r.2 ∧ r.2 ≤ reached
  boundaries : ∀ r ∈ ranges, Boundary source r.1 ∧ Boundary source r.2
  inTurn : ranges.Pairwise fun a b => a.2 ≤ b.1
  spares : ∀ r ∈ ranges, ∀ s ∈ kept, r.2 ≤ s.start ∨ s.stop ≤ r.1
  /-- No stretch reaches the cursor from the left, so joining never passes over it. -/
  clear : ∀ r ∈ ranges, r.2 < cursor ∨ cursor ≤ r.1
  behind : ∀ s ∈ kept, s.stop ≤ cursor
  first_le : first ≤ cursor
  le_reached : cursor ≤ reached
  boundary : Boundary source cursor

theorem Cuts.start (boundary : Boundary source first) : Cuts source first first first [] [] where
  inside := by simp
  boundaries := by simp
  inTurn := List.Pairwise.nil
  spares := by simp
  clear := by simp
  behind := by simp
  first_le := Nat.le_refl _
  le_reached := Nat.le_refl _
  boundary := boundary

theorem Cuts.mono (h : Cuts source first cursor reached kept ranges) (le : reached ≤ hi) :
    Cuts source first cursor hi kept ranges := by
  have inside : ∀ r ∈ ranges, first ≤ r.1 ∧ r.1 < r.2 ∧ r.2 ≤ hi := by
    intro r mem
    have := h.inside r mem
    omega
  exact { h with inside := inside, le_reached := Nat.le_trans h.le_reached le }

theorem Cuts.left {others : List (Nat × Nat)}
    (h : Cuts source first cursor reached kept (ranges ++ others)) :
    Cuts source first cursor reached kept ranges where
  inside := fun r mem => h.inside r (List.mem_append_left _ mem)
  boundaries := fun r mem => h.boundaries r (List.mem_append_left _ mem)
  inTurn := (List.pairwise_append.mp h.inTurn).1
  spares := fun r mem => h.spares r (List.mem_append_left _ mem)
  clear := fun r mem => h.clear r (List.mem_append_left _ mem)
  behind := h.behind
  first_le := h.first_le
  le_reached := h.le_reached
  boundary := h.boundary

/-- A stretch that begins at the cursor or after it, and behind all others. -/
theorem Cuts.concat (h : Cuts source first cursor reached kept ranges) {start stop : Nat}
    (begins : cursor ≤ start) (text : start < stop) (le : reached ≤ stop)
    (behind : ∀ r ∈ ranges, r.2 ≤ start) (startBoundary : Boundary source start)
    (stopBoundary : Boundary source stop) :
    Cuts source first cursor stop kept (ranges ++ [(start, stop)]) := by
  have first_le := h.first_le
  have le_reached := h.le_reached
  have all {p : Nat × Nat → Prop} (old : ∀ r ∈ ranges, p r) (new : p (start, stop)) :
      ∀ r ∈ ranges ++ [(start, stop)], p r := by
    intro r mem
    rcases List.mem_append.mp mem with mem | mem
    · exact old r mem
    · rw [List.mem_singleton.mp mem]
      exact new
  refine ⟨all ?_ ?_, all h.boundaries ⟨startBoundary, stopBoundary⟩, ?_, all h.spares ?_,
    all h.clear (.inr begins), h.behind, first_le, by omega, h.boundary⟩
  · intro r mem
    have := h.inside r mem
    omega
  · dsimp only
    omega
  · rw [List.pairwise_append]
    refine ⟨h.inTurn, List.pairwise_singleton _ _, ?_⟩
    intro r mem last isLast
    rw [List.mem_singleton.mp isLast]
    exact behind r mem
  · intro s mem
    have := h.behind s mem
    right
    omega

/-- A stretch is joined to the last of stretches that come one after the other, or it follows all of
them. -/
theorem joins_or_follows (inTurn : ranges.Pairwise fun a b => a.2 ≤ b.1)
    (proper : ∀ r ∈ ranges, r.1 < r.2) {start stop : Nat} (text : start < stop) :
    (∃ others last, ranges = others ++ [last] ∧ start ≤ last.2 ∧
        addRange ranges start stop = others ++ [(last.1, max last.2 stop)]) ∨
      (∀ r ∈ ranges, r.2 < start) ∧ addRange ranges start stop = ranges ++ [(start, stop)] := by
  unfold addRange
  rw [if_neg (Nat.not_le_of_lt text)]
  cases isLast : ranges.getLast? with
  | none =>
    rw [List.getLast?_eq_none_iff] at isLast
    subst isLast
    exact .inr ⟨nofun, rfl⟩
  | some last =>
    obtain ⟨others, rfl⟩ := List.getLast?_eq_some_iff.mp isLast
    dsimp only
    split
    · rename_i joins
      exact .inl ⟨others, last, rfl, joins, by rw [List.dropLast_concat]⟩
    · rename_i apart
      refine .inr ⟨?_, rfl⟩
      rw [List.forall_mem_append, List.forall_mem_singleton]
      refine ⟨fun r mem => ?_, Nat.lt_of_not_le apart⟩
      have := (List.pairwise_append.mp inTurn).2.2 r mem last (by simp)
      have := proper last (by simp)
      omega

/-- A stretch from the cursor on is appended, or it is joined to the last one, which then begins at
the cursor or after it. -/
theorem Cuts.add (h : Cuts source first cursor reached kept ranges) {stop : Nat}
    (le : reached ≤ stop) (boundary : Boundary source stop) :
    Cuts source first cursor stop kept (addRange ranges cursor stop) := by
  rcases Nat.lt_or_ge cursor stop with text | empty
  · rcases joins_or_follows h.inTurn (fun r mem => (h.inside r mem).2.1) text with
      ⟨others, last, rfl, joins, joined⟩ | ⟨behind, added⟩
    · have lastInside := h.inside last (by simp)
      have lastClear := h.clear last (by simp)
      have before : ∀ r ∈ others, r.2 ≤ last.1 := fun r mem =>
        (List.pairwise_append.mp h.inTurn).2.2 r mem last (by simp)
      rw [joined, Nat.max_eq_right (by omega)]
      exact h.left.concat (by omega) (by omega) le before (h.boundaries last (by simp)).1 boundary
    · rw [added]
      exact h.concat (Nat.le_refl _) text le (fun r mem => Nat.le_of_lt (behind r mem)) h.boundary
        boundary
  · rw [addRange, if_pos empty]
    exact h.mono le

/-- A variable that stays moves the cursor to its end. -/
theorem Cuts.keep (h : Cuts source first cursor reached kept ranges) {span : Span}
    (le : reached ≤ span.start) (text : span.start < span.stop)
    (boundary : Boundary source span.stop) :
    Cuts source first span.stop span.stop (span :: kept) ranges := by
  have first_le := h.first_le
  have le_reached := h.le_reached
  refine ⟨?_, h.boundaries, h.inTurn, ?_, ?_, ?_, by omega, Nat.le_refl _, boundary⟩
  · intro r mem
    have := h.inside r mem
    omega
  · intro r mem s keeps
    rcases List.mem_cons.mp keeps with rfl | keeps
    · have := h.inside r mem
      left
      omega
    · exact h.spares r mem s keeps
  · intro r mem
    have := h.inside r mem
    left
    omega
  · intro s keeps
    rcases List.mem_cons.mp keeps with rfl | keeps
    · exact Nat.le_refl _
    · have := h.behind s keeps
      omega

/-- The stretches that are collected from a list of variables, some of which go. -/
theorem cuts_elisionFrom {declarators : List (Span × Bool)} (isKept : Bool)
    (h : Cuts source first cursor reached kept ranges)
    (order : InOrder reached hi (declarators.map (·.1)))
    (boundaries : ∀ v ∈ declarators, Boundary source v.1.start ∧ Boundary source v.1.stop) :
    ∃ cursor' kept', Cuts source first cursor' hi kept'
        (elisionFrom ranges cursor isKept declarators) ∧
      kept ⊆ kept' ∧ ∀ span, (span, false) ∈ declarators → span ∈ kept' := by
  induction declarators generalizing ranges cursor reached kept isKept with
  | nil => exact ⟨cursor, kept, h.mono order, List.Subset.refl _, by simp⟩
  | cons v declarators ih =>
    obtain ⟨span, goes⟩ := v
    obtain ⟨begins, text, order⟩ := order
    have ends := boundaries _ List.mem_cons_self
    have later : ∀ v ∈ declarators, Boundary source v.1.start ∧ Boundary source v.1.stop :=
      fun v mem => boundaries v (List.mem_cons_of_mem _ mem)
    cases goes with
    | true =>
      obtain ⟨cursor', kept', cuts, old, new⟩ := ih isKept
        (h.add (Nat.le_trans begins (Nat.le_of_lt text)) ends.2) order later
      refine ⟨cursor', kept', cuts, old, ?_⟩
      intro s mem
      rcases List.mem_cons.mp mem with same | mem
      · cases same
      · exact new s mem
    | false =>
      have upTo : Cuts source first cursor span.start kept
          (if isKept then ranges else addRange ranges cursor span.start) := by
        split
        · exact h.mono begins
        · exact h.add begins ends.1
      obtain ⟨cursor', kept', cuts, old, new⟩ := ih true
        (upTo.keep (Nat.le_refl _) text ends.2) order later
      refine ⟨cursor', kept', cuts, fun s mem => old (List.mem_cons_of_mem _ mem), ?_⟩
      intro s mem
      rcases List.mem_cons.mp mem with same | mem
      · cases same
        exact old List.mem_cons_self
      · exact new s mem

/-- **The stretches to delete** of a declaration: they lie in it one after the other, and each
variable that stays lies before or after each of them. -/
theorem cuts_elisionRanges {declarators : List (Span × Bool)} {lo : Nat}
    (order : InOrder lo hi (declarators.map (·.1)))
    (boundaries : ∀ v ∈ declarators, Boundary source v.1.start ∧ Boundary source v.1.stop) :
    (∀ r ∈ elisionRanges declarators, lo ≤ r.1 ∧ r.1 < r.2 ∧ r.2 ≤ hi ∧
        Boundary source r.1 ∧ Boundary source r.2) ∧
      (elisionRanges declarators).Pairwise (fun a b => a.2 ≤ b.1) ∧
      ∀ r ∈ elisionRanges declarators, ∀ span, (span, false) ∈ declarators →
        r.2 ≤ span.start ∨ span.stop ≤ r.1 := by
  cases declarators with
  | nil => simp [elisionRanges]
  | cons v declarators =>
    have begins : lo ≤ v.1.start := order.1
    have first : Cuts source v.1.start v.1.start v.1.start [] [] :=
      .start (boundaries v List.mem_cons_self).1
    have fromFirst : InOrder v.1.start hi ((v :: declarators).map (·.1)) :=
      ⟨Nat.le_refl _, order.2⟩
    obtain ⟨_, kept, cuts, -, stays⟩ := cuts_elisionFrom false first fromFirst boundaries
    refine ⟨?_, cuts.inTurn, ?_⟩
    · intro r mem
      obtain ⟨low, text, high⟩ := cuts.inside r mem
      exact ⟨Nat.le_trans begins low, text, high, cuts.boundaries r mem⟩
    · intro r mem span mem'
      exact cuts.spares r mem span (stays span mem')

/-! ## The variables that a stretch takes out -/

variable {lo : Nat}

/-- A stretch of a declaration takes out variables that go and follow one another, each with one of the
gaps beside it: those before the first one that stays, each with the gap after it, or some right after
one that stays, each with the gap before it. -/
inductive TakesRun (declarators : List (Span × Bool)) : Nat × Nat → Prop
  | first {first next : Span} {run others : List (Span × Bool)}
    (split : declarators = (first, true) :: run ++ (next, false) :: others)
    (gone : ∀ v ∈ run, v.2 = true) : TakesRun declarators (first.start, next.start)
  | later {prev last : Span} {before run others : List (Span × Bool)}
    (split : declarators = before ++ (prev, false) :: (run ++ (last, true) :: others))
    (gone : ∀ v ∈ run, v.2 = true) : TakesRun declarators (prev.stop, last.stop)

/-- The stretch from the cursor on that variables which go have given so far. -/
def openRange (cursor : Nat) (run : List (Span × Bool)) : List (Nat × Nat) :=
  run.getLast?.toList.map fun v => (cursor, v.1.stop)

theorem openRange_concat (cursor : Nat) (run : List (Span × Bool)) (v : Span × Bool) :
    openRange cursor (run ++ [v]) = [(cursor, v.1.stop)] := by
  simp [openRange]

theorem mem_openRange {run : List (Span × Bool)} {r : Nat × Nat} (mem : r ∈ openRange cursor run) :
    ∃ front v, run = front ++ [v] ∧ r = (cursor, v.1.stop) := by
  rcases List.eq_nil_or_concat run with rfl | ⟨front, v, rfl⟩
  · contradiction
  · rw [List.concat_eq_append] at mem ⊢
    rw [openRange_concat] at mem
    exact ⟨front, v, rfl, List.mem_singleton.mp mem⟩

/-- A stretch from the cursor on takes the place of the open one, or follows those there are. -/
theorem addRange_openRange {closed : List (Nat × Nat)} {stop : Nat} {run : List (Span × Bool)}
    (text : cursor < stop) (behind : ∀ r ∈ closed, r.2 < cursor)
    (inside : ∀ v ∈ run, cursor ≤ v.1.stop ∧ v.1.stop ≤ stop) :
    addRange (closed ++ openRange cursor run) cursor stop = closed ++ [(cursor, stop)] := by
  unfold addRange
  rw [if_neg (by omega)]
  rcases List.eq_nil_or_concat run with rfl | ⟨run, v, rfl⟩
  · rw [openRange, List.getLast?_nil, Option.toList_none, List.map_nil, List.append_nil]
    split
    · rename_i last isLast
      have := behind last (List.mem_of_getLast? isLast)
      rw [if_neg (by omega)]
    · rename_i none
      rw [List.getLast?_eq_none_iff.mp none]
      rfl
  · have ends := inside v (by simp)
    rw [List.concat_eq_append, openRange_concat, List.getLast?_concat]
    dsimp only
    rw [if_pos ends.1, List.dropLast_concat, Nat.max_eq_right ends.2]

theorem InOrder.le_of_mem {spans : List Span} (order : InOrder lo hi spans) :
    lo ≤ hi ∧ ∀ s ∈ spans, lo ≤ s.start ∧ s.start < s.stop ∧ s.stop ≤ hi := by
  induction spans generalizing lo with
  | nil => exact ⟨order, by simp⟩
  | cons span spans ih =>
    obtain ⟨begins, text, rest⟩ := order
    obtain ⟨le, others⟩ := ih rest
    refine ⟨by omega, List.forall_mem_cons.mpr ⟨by omega, fun s mem => ?_⟩⟩
    have := others s mem
    omega

/-- Of variables in order, those before one of them lie before it, and those after it behind it. -/
theorem InOrder.around {v : Span × Bool} {before after : List (Span × Bool)}
    (order : InOrder lo hi ((before ++ v :: after).map Prod.fst)) :
    InOrder lo v.1.start (before.map Prod.fst) ∧ v.1.start < v.1.stop ∧
      InOrder v.1.stop hi (after.map Prod.fst) := by
  induction before generalizing lo with
  | nil => exact order
  | cons first before ih =>
    obtain ⟨begins, text, rest⟩ := order
    obtain ⟨earlier, later⟩ := ih rest
    exact ⟨⟨begins, text, earlier⟩, later⟩

/-- A variable that goes makes the open stretch longer, or opens it. -/
theorem addRange_of_gone {closed : List (Nat × Nat)} {span : Span} {goes : Bool}
    {run todo : List (Span × Bool)}
    (order : InOrder cursor hi ((run ++ (span, goes) :: todo).map Prod.fst))
    (behind : ∀ r ∈ closed, r.2 < cursor) :
    addRange (closed ++ openRange cursor run) cursor span.stop =
      closed ++ openRange cursor (run ++ [(span, goes)]) := by
  obtain ⟨before, text, -⟩ := order.around
  have le := before.le_of_mem.1
  have text : span.start < span.stop := text
  have le : cursor ≤ span.start := le
  rw [openRange_concat]
  refine addRange_openRange (by omega) behind fun v mem => ?_
  obtain ⟨after, text', upto⟩ := before.le_of_mem.2 v.1 (List.mem_map_of_mem mem)
  have upto : v.1.stop ≤ span.start := upto
  exact ⟨by omega, by omega⟩

/-- The open stretch after a variable that stays takes out a run. -/
theorem takesRun_openRange {prev : Span} {run : List (Span × Bool)} (gone : ∀ v ∈ run, v.2 = true)
    (before others : List (Span × Bool)) :
    ∀ r ∈ openRange prev.stop run, TakesRun (before ++ (prev, false) :: (run ++ others)) r := by
  intro r mem
  obtain ⟨front, ⟨last, goes⟩, rfl, rfl⟩ := mem_openRange mem
  obtain rfl : goes = true := gone (last, goes) (by simp)
  exact @TakesRun.later _ prev last before front others (by simp)
    fun v mem => gone v (List.mem_append_left _ mem)

/-- **After a variable that stays**, each stretch takes out a run. -/
theorem takesRun_of_kept {todo : List (Span × Bool)} {closed : List (Nat × Nat)} {prev : Span}
    {before run : List (Span × Bool)} (gone : ∀ v ∈ run, v.2 = true)
    (order : InOrder prev.stop hi ((run ++ todo).map Prod.fst))
    (behind : ∀ r ∈ closed, r.2 < prev.stop)
    (taken : ∀ r ∈ closed, TakesRun (before ++ (prev, false) :: (run ++ todo)) r) :
    ∀ r ∈ elisionFrom (closed ++ openRange prev.stop run) prev.stop true todo,
      TakesRun (before ++ (prev, false) :: (run ++ todo)) r := by
  induction todo generalizing closed prev before run with
  | nil => exact List.forall_mem_append.mpr ⟨taken, takesRun_openRange gone before []⟩
  | cons v todo ih =>
    obtain ⟨span, goes⟩ := v
    cases goes with
    | true =>
      have whole : run ++ (span, true) :: todo = (run ++ [(span, true)]) ++ todo := by simp
      rw [elisionFrom, addRange_of_gone order behind]
      rw [whole] at order taken ⊢
      exact ih (by simpa using gone) order behind taken
    | false =>
      have moved : before ++ (prev, false) :: (run ++ (span, false) :: todo) =
          (before ++ (prev, false) :: run) ++ (span, false) :: ([] ++ todo) := by simp
      have ranges : closed ++ openRange prev.stop run =
          (closed ++ openRange prev.stop run) ++ openRange span.stop [] := by simp [openRange]
      obtain ⟨earlier, text, later⟩ := order.around
      have le : prev.stop ≤ span.start := earlier.le_of_mem.1
      have text : span.start < span.stop := text
      have taken := List.forall_mem_append.mpr
        ⟨taken, takesRun_openRange gone before ((span, false) :: todo)⟩
      rw [elisionFrom, if_pos rfl, ranges, moved]
      refine ih (by simp) later (List.forall_mem_append.mpr ⟨fun r mem => ?_, fun r mem => ?_⟩)
        (moved ▸ taken)
      · have := behind r mem
        omega
      · obtain ⟨front, v, rfl, rfl⟩ := mem_openRange mem
        have ends := (earlier.le_of_mem.2 v.1 (by simp)).2.2
        exact Nat.lt_of_le_of_lt ends text

/-- **Up to the first variable that stays** there is at most one stretch, and it takes out a run. -/
theorem takesRun_of_leading {todo : List (Span × Bool)} {run : List (Span × Bool)}
    (gone : ∀ v ∈ run, v.2 = true) (order : InOrder cursor hi ((run ++ todo).map Prod.fst))
    (first : ∀ v ∈ (run ++ todo).head?, v.1.start = cursor) (kept : ∃ v ∈ todo, v.2 = false) :
    ∀ r ∈ elisionFrom (openRange cursor run) cursor false todo, TakesRun (run ++ todo) r := by
  induction todo generalizing run with
  | nil => simp at kept
  | cons v todo ih =>
    obtain ⟨span, goes⟩ := v
    cases goes with
    | true =>
      have whole : run ++ (span, true) :: todo = (run ++ [(span, true)]) ++ todo := by simp
      have joined := @addRange_of_gone _ _ [] span true run todo order (by simp)
      rw [List.nil_append, List.nil_append] at joined
      rw [elisionFrom, joined]
      rw [whole] at order first ⊢
      exact ih (by simpa using gone) order first (by simpa using kept)
    | false =>
      obtain ⟨earlier, text, later⟩ := order.around
      have text : span.start < span.stop := text
      have run_taken : ∀ r ∈ addRange (openRange cursor run) cursor span.start,
          r.2 < span.stop ∧ TakesRun (run ++ (span, false) :: ([] ++ todo)) r := by
        intro r mem
        cases run with
        | nil =>
          have start : span.start = cursor := first _ rfl
          simp [openRange, addRange, start] at mem
        | cons v run =>
          obtain ⟨begun, goes⟩ := v
          obtain rfl : goes = true := gone _ List.mem_cons_self
          have start : begun.start = cursor := first _ rfl
          have before : begun.start < begun.stop ∧ begun.stop ≤ span.start :=
            (earlier.le_of_mem.2 begun (by simp)).2
          have joined := @addRange_openRange cursor [] span.start ((begun, true) :: run)
            (start ▸ Nat.lt_of_lt_of_le before.1 before.2)
            (by simp) fun v mem => by
              obtain ⟨after, text', upto⟩ := earlier.le_of_mem.2 v.1 (List.mem_map_of_mem mem)
              exact ⟨by omega, upto⟩
          rw [List.nil_append, List.nil_append] at joined
          rw [joined] at mem
          obtain rfl := List.mem_singleton.mp mem
          rw [← start]
          exact ⟨text, .first rfl fun v mem => gone v (List.mem_cons_of_mem _ mem)⟩
      have ranges : addRange (openRange cursor run) cursor span.start =
          addRange (openRange cursor run) cursor span.start ++ openRange span.stop [] := by
        simp [openRange]
      rw [elisionFrom, if_neg (by simp), ranges]
      exact takesRun_of_kept (by simp) later (fun r mem => (run_taken r mem).1)
        fun r mem => (run_taken r mem).2

/-- **Each stretch of a declaration takes out a run** of its variables, if one of them stays. -/
theorem takesRun_of_mem {declarators : List (Span × Bool)}
    (order : InOrder lo hi (declarators.map Prod.fst)) (kept : ∃ v ∈ declarators, v.2 = false)
    {r : Nat × Nat} (mem : r ∈ elisionRanges declarators) : TakesRun declarators r := by
  cases declarators with
  | nil => contradiction
  | cons v declarators =>
    have fromFirst : InOrder v.1.start hi ((v :: declarators).map Prod.fst) :=
      ⟨Nat.le_refl _, order.2⟩
    exact @takesRun_of_leading _ _ (v :: declarators) [] (by simp) fromFirst (by simp) kept r mem

end ModuleInterop.Conversion
