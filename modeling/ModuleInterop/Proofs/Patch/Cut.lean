import ModuleInterop.Proofs.Patch.Reading

/-!
# Cutting an edited text

At a position that no edit goes across, what edits make of a text falls into two pieces
(`reading_cut`): some of the edits act before the position and the others after it.

So if stretches of a text are deleted and nothing between them is edited, what is left between two
positions is what stands between the stretches, and around it there is what the other edits make of the
text before and after (`reading_deletions`).
-/

set_option autoImplicit false

namespace ModuleInterop.Patch

open ModuleInterop.Text

variable {edits : List Edit}

/-! ## Edits that do not matter -/

section Skip

variable {keep test : Edit → Bool}

/-- Edits that fail a test can be left out before it. -/
theorem filter_filter_of_skip (skip : ∀ e ∈ edits, keep e = false → test e = false) :
    (edits.filter keep).filter test = edits.filter test := by
  rw [List.filter_filter]
  refine List.filter_congr fun e mem => ?_
  cases kept : keep e with
  | true => simp
  | false => simp [skip e mem kept]

theorem find?_filter_of_skip (skip : ∀ e ∈ edits, keep e = false → test e = false) :
    (edits.filter keep).find? test = edits.find? test := by
  rw [← List.head?_filter, ← List.head?_filter, filter_filter_of_skip skip]

theorem any_filter_of_skip (skip : ∀ e ∈ edits, keep e = false → test e = false) :
    (edits.filter keep).any test = edits.any test := by
  rw [Bool.eq_iff_iff, List.any_eq_true, List.any_eq_true]
  constructor
  · rintro ⟨e, mem, passes⟩
    exact ⟨e, (List.mem_filter.mp mem).1, passes⟩
  · rintro ⟨e, mem, passes⟩
    refine ⟨e, List.mem_filter.mpr ⟨mem, ?_⟩, passes⟩
    cases kept : keep e with
    | true => rfl
    | false => simp [skip e mem kept] at passes

end Skip

/-- Edits that do not act at a position can be left out there. -/
theorem insteadOf_filter {keep : Edit → Bool} {p : Nat} (c : Char)
    (skip : ∀ e ∈ edits, keep e = false → e.stop ≤ p ∨ p < e.start) :
    insteadOf (edits.filter keep) p c = insteadOf edits p c := by
  have replaces : ∀ e ∈ edits, keep e = false → Edit.replacesFrom p e = false := by
    intro e mem left
    have := skip e mem left
    grind [Edit.replacesFrom]
  have covers : ∀ e ∈ edits, keep e = false → Edit.covers p e = false := by
    intro e mem left
    have := skip e mem left
    grind [Edit.covers]
  simp only [insteadOf, find?_filter_of_skip replaces, any_filter_of_skip covers]

theorem insertedAt_filter {keep : Edit → Bool} {p : Nat}
    (skip : ∀ e ∈ edits, keep e = false → e.start ≠ p ∨ e.stop ≠ p) :
    insertedAt (edits.filter keep) p = insertedAt edits p := by
  have inserts : ∀ e ∈ edits, keep e = false → Edit.insertsAt p e = false := by
    intro e mem left
    have := skip e mem left
    grind [Edit.insertsAt]
  rw [insertedAt, filter_filter_of_skip inserts, insertedAt]

/-- Edits that come before a text can be left out. -/
theorem reading_filter {keep : Edit → Bool} {p : Nat} (text : List Char)
    (skip : ∀ e ∈ edits, keep e = false → e.start < p ∧ e.stop ≤ p) :
    reading (edits.filter keep) p text = reading edits p text := by
  induction text generalizing p with
  | nil => exact insertedAt_filter fun e mem left => .inl (Nat.ne_of_lt (skip e mem left).1)
  | cons c text ih =>
    have rest := ih (p := p + c.utf8Size) fun e mem left => by
      have := skip e mem left
      omega
    rw [reading, reading, rest, insertedAt_filter fun e mem left => .inl (Nat.ne_of_lt (skip e mem left).1),
      insteadOf_filter c fun e mem left => .inl (skip e mem left).2]

/-- What is put in at a position is put in by edits of two kinds, if one of the kinds does not put in
anything there. -/
theorem insertedAt_cut {left : Edit → Bool} {p : Nat}
    (side : (∀ e ∈ edits, left e = true → e.start < p) ∨ ∀ e ∈ edits, left e = false → p < e.stop) :
    insertedAt edits p =
      insertedAt (edits.filter left) p ++ insertedAt (edits.filter fun e => !left e) p := by
  have none {kind : Edit → Bool} (skip : ∀ e ∈ edits, kind e = true → e.start ≠ p ∨ e.stop ≠ p) :
      insertedAt (edits.filter kind) p = [] := by
    refine insertedAt_eq_nil fun e mem => ?_
    obtain ⟨mem, isKind⟩ := List.mem_filter.mp mem
    exact skip e mem isKind
  rcases side with strict | strict
  · have skip (e : Edit) (mem : e ∈ edits) (isLeft : left e = true) : e.start ≠ p ∨ e.stop ≠ p :=
      .inl (Nat.ne_of_lt (strict e mem isLeft))
    rw [none skip, List.nil_append, insertedAt_filter fun e mem isLeft => skip e mem (by simpa using isLeft)]
  · have skip (e : Edit) (mem : e ∈ edits) (isRight : left e = false) : e.start ≠ p ∨ e.stop ≠ p :=
      .inr (Nat.ne_of_gt (strict e mem isRight))
    have right : insertedAt (edits.filter fun e => !left e) p = [] :=
      none fun e mem isRight => skip e mem (by simpa using isRight)
    rw [right, List.append_nil, insertedAt_filter skip]

/-- At a position that no edit goes across a text can be cut: some of the edits end by there and act
on the text before it, and the others begin from there on and act on the text after it.  Insertions at
the position are all on one side. -/
theorem reading_cut {left : Edit → Bool} (a b : List Char) {p : Nat}
    (ends : ∀ e ∈ edits, left e = true → e.stop ≤ p + byteLength a)
    (begins : ∀ e ∈ edits, left e = false → p + byteLength a ≤ e.start)
    (side : (∀ e ∈ edits, left e = true → e.start < p + byteLength a) ∨
      ∀ e ∈ edits, left e = false → p + byteLength a < e.stop)
    (ordered : ∀ e ∈ edits, e.start ≤ e.stop) :
    reading edits p (a ++ b) = reading (edits.filter left) p a ++
      reading (edits.filter fun e => !left e) (p + byteLength a) b := by
  have passed (q : Nat) (le : p + byteLength a ≤ q) (e : Edit) (mem : e ∈ edits)
      (isLeft : (!left e) = false) : e.start ≤ q ∧ e.stop ≤ q := by
    have := ends e mem (by simpa using isLeft)
    have := ordered e mem
    omega
  induction a generalizing p with
  | nil =>
    simp only [byteLength, Nat.add_zero] at begins side passed ⊢
    cases b with
    | nil => exact insertedAt_cut side
    | cons c b =>
      have pos := c.utf8Size_pos
      have instead : insteadOf (edits.filter fun e => !left e) p c = insteadOf edits p c :=
        insteadOf_filter c fun e mem isLeft => .inl (passed p (Nat.le_refl p) e mem isLeft).2
      have rest : reading (edits.filter fun e => !left e) (p + c.utf8Size) b =
          reading edits (p + c.utf8Size) b := reading_filter b fun e mem isLeft => by
        have := passed p (Nat.le_refl p) e mem isLeft
        omega
      rw [List.nil_append, reading, reading, reading, insertedAt_cut side, instead, rest]
      simp only [List.append_assoc]
  | cons c a ih =>
    have pos := c.utf8Size_pos
    simp only [byteLength] at ends begins side passed
    rw [← Nat.add_assoc] at ends begins side passed
    have rest := ih ends begins side passed
    have later (e : Edit) (mem : e ∈ edits) (isRight : left e = false) : p < e.start := by
      have := begins e mem isRight
      omega
    rw [List.cons_append, reading, reading, rest,
      insertedAt_filter fun e mem isRight => .inl (Nat.ne_of_gt (later e mem isRight)),
      insteadOf_filter c fun e mem isRight => .inr (later e mem isRight)]
    simp only [byteLength, List.append_assoc, Nat.add_assoc]

/-! ## Deleted stretches -/

/-- Inside a stretch that is deleted nothing is left. -/
theorem reading_inside {p stop : Nat} (text : List Char) (some : edits ≠ [])
    (inside : ∀ e ∈ edits, e.start < p ∧ e.stop = stop) (le : p + byteLength text ≤ stop) :
    reading edits p text = [] := by
  have away (p : Nat) (inside : ∀ e ∈ edits, e.start < p ∧ e.stop = stop) (e : Edit)
      (mem : e ∈ edits) : e.start ≠ p := Nat.ne_of_lt (inside e mem).1
  induction text generalizing p with
  | nil => exact insertedAt_eq_nil fun e mem => .inl (away p inside e mem)
  | cons c text ih =>
    have pos := c.utf8Size_pos
    simp only [byteLength] at le
    obtain ⟨e, mem⟩ := List.exists_mem_of_ne_nil edits some
    obtain ⟨start, ends⟩ := inside e mem
    have instead : insteadOf edits p c = [] :=
      insteadOf_covered c (fun e mem => .inl (away p inside e mem)) mem (Nat.le_of_lt start) (by omega)
    have rest := ih (p := p + c.utf8Size) (fun e mem => by have := inside e mem; omega) (by omega)
    rw [reading, insertedAt_eq_nil fun e mem => .inl (away p inside e mem), instead, rest]
    rfl

/-- The deletion of the text between two positions. -/
def deletion (start stop : Nat) : Edit := ⟨start, stop, []⟩

/-- Of a stretch that is deleted nothing is left. -/
theorem reading_deleted {p : Nat} {text : List Char} (some : edits ≠ [])
    (all : ∀ e ∈ edits, e = deletion p (p + byteLength text)) (proper : text ≠ []) :
    reading edits p text = [] := by
  cases text with
  | nil => contradiction
  | cons c text =>
    have pos := c.utf8Size_pos
    have inserted : insertedAt edits p = [] := by
      refine insertedAt_eq_nil fun e mem => .inr ?_
      rw [all e mem]
      simp only [deletion, byteLength]
      omega
    obtain ⟨e, found, empty⟩ : ∃ e, edits.find? (Edit.replacesFrom p) = Option.some e ∧
        e.content = [] := by
      obtain ⟨e, mem⟩ := List.exists_mem_of_ne_nil edits some
      cases found : edits.find? (Edit.replacesFrom p) with
      | none =>
        have := List.find?_eq_none.mp found e mem
        rw [all e mem] at this
        grind [Edit.replacesFrom, deletion, byteLength]
      | some e => exact ⟨e, rfl, by rw [all e (List.mem_of_find?_eq_some found)]; rfl⟩
    have rest : reading edits (p + c.utf8Size) text = [] := by
      refine @reading_inside edits _ (p + byteLength (c :: text)) text some ?_ ?_
      · intro e mem
        rw [all e mem]
        exact ⟨by simp only [deletion]; omega, rfl⟩
      · simp only [byteLength]
        omega
    simp [reading, insteadOf, inserted, found, empty, rest, newText]

/-- Of a stretch that is deleted nothing is left, and behind it the edits that begin there act. -/
theorem reading_stretch {p stop : Nat} {gone after : List Char} (ends : p + byteLength gone = stop)
    (proper : p < stop) (ordered : ∀ e ∈ edits, e.start ≤ e.stop)
    (all : ∀ e ∈ edits, e = deletion p stop ∨ stop ≤ e.start) (deleted : deletion p stop ∈ edits) :
    reading edits p (gone ++ after) =
      reading (edits.filter fun e => !decide (e.start < stop)) stop after := by
  have first : ∀ e ∈ edits, decide (e.start < stop) = true → e = deletion p stop := by
    intro e mem before
    rcases all e mem with same | after
    · exact same
    · have := of_decide_eq_true before
      omega
  have some : gone ≠ [] := by
    rintro rfl
    simp only [byteLength] at ends
    omega
  have nothing : reading (edits.filter fun e => decide (e.start < stop)) p gone = [] := by
    have among : deletion p stop ∈ edits.filter fun e => decide (e.start < stop) :=
      List.mem_filter.mpr ⟨deleted, decide_eq_true proper⟩
    refine reading_deleted (List.ne_nil_of_mem among) ?_ some
    intro e mem
    obtain ⟨mem, before⟩ := List.mem_filter.mp mem
    rw [first e mem before, ends]
  rw [reading_cut gone after ?_ ?_ (.inl ?_) ordered, nothing, List.nil_append, ends]
  · intro e mem before
    rw [ends, first e mem before]
    exact Nat.le_refl _
  · intro e _ after
    rw [ends]
    exact Nat.le_of_not_lt (of_decide_eq_false after)
  · intro e _ before
    rw [ends]
    exact of_decide_eq_true before

/-- Stretches with text that follow one another between two positions. -/
def Ordered : Nat → List (Nat × Nat) → Nat → Prop
  | n, [], m => n ≤ m
  | n, r :: rs, m => n ≤ r.1 ∧ r.1 < r.2 ∧ Ordered r.2 rs m

/-- What is left of the text between two positions when stretches of it are deleted. -/
def leftOver (source : List Char) : Nat → List (Nat × Nat) → Nat → List Glyph
  | n, [], m => copiedText n ((slice? n m source).getD [])
  | n, r :: rs, m => copiedText n ((slice? n r.1 source).getD []) ++ leftOver source r.2 rs m

theorem Ordered.le {n m : Nat} {ranges : List (Nat × Nat)} (h : Ordered n ranges m) : n ≤ m := by
  induction ranges generalizing n with
  | nil => exact h
  | cons r ranges ih =>
    have := ih h.2.2
    have := h.1
    have := h.2.1
    omega

theorem Ordered.le_of_mem {n m : Nat} {ranges : List (Nat × Nat)} (h : Ordered n ranges m)
    {r : Nat × Nat} (mem : r ∈ ranges) : n ≤ r.1 ∧ r.1 < r.2 ∧ r.2 ≤ m := by
  induction ranges generalizing n with
  | nil => contradiction
  | cons first ranges ih =>
    obtain ⟨low, text, others⟩ := h
    rcases List.mem_cons.mp mem with rfl | mem
    · exact ⟨low, text, others.le⟩
    · have := ih others mem
      omega

variable {source : List Char}

/-- A position inside a piece of a text cuts the piece. -/
theorem exists_pieces {before between after : List Char} {k : Nat}
    (h : Boundary (before ++ (between ++ after)) k) (low : byteLength before ≤ k)
    (high : k ≤ byteLength before + byteLength between) :
    ∃ a b, between = a ++ b ∧ byteLength before + byteLength a = k := by
  obtain ⟨u, v, whole, rfl⟩ := h
  rcases List.append_eq_append_iff.mp whole with ⟨a, rfl, behind⟩ | ⟨a, rfl, -⟩
  · rw [byteLength_append] at high
    rcases List.append_eq_append_iff.mp behind with ⟨b, rfl, -⟩ | ⟨b, rfl, -⟩
    · have empty : b = [] := eq_nil_of_byteLength_eq_zero (by rw [byteLength_append] at high; omega)
      exact ⟨between, [], by simp, by simp [empty]⟩
    · exact ⟨a, b, rfl, (byteLength_append _ _).symm⟩
  · have empty : a = [] := eq_nil_of_byteLength_eq_zero (by rw [byteLength_append] at low; omega)
    exact ⟨[], between, rfl, by simp [empty, byteLength]⟩

/-- Deleted stretches, read from the position on where they begin. -/
theorem reading_leftOver {before between after : List Char} {ranges : List (Nat × Nat)} {n m : Nat}
    (cut : source = before ++ between ++ after) (starts : byteLength before = n)
    (stops : n + byteLength between = m) (order : Ordered n ranges m)
    (boundaries : ∀ r ∈ ranges, Boundary source r.1 ∧ Boundary source r.2)
    (ordered : ∀ e ∈ edits, e.start ≤ e.stop)
    (all : ∀ e ∈ edits, (∃ r ∈ ranges, e = deletion r.1 r.2) ∨ m ≤ e.start)
    (deleted : ∀ r ∈ ranges, deletion r.1 r.2 ∈ edits) :
    reading edits n (between ++ after) =
      leftOver source n ranges m ++ reading (edits.filter fun e => m ≤ e.start) m after := by
  induction ranges generalizing before between n edits with
  | nil =>
    have later : ∀ e ∈ edits, m ≤ e.start := by simpa using all
    have same : edits.filter (fun e => decide (m ≤ e.start)) = edits :=
      List.filter_eq_self.mpr fun e mem => decide_eq_true (later e mem)
    have slice : slice? n m source = some between := by
      rw [cut, ← stops, ← starts]
      exact slice?_append before between after
    rw [reading_gap between after (by rw [stops]; exact later), stops, same, leftOver, slice]
    rfl
  | cons r ranges ih =>
    obtain ⟨low, text, others⟩ := order
    have le := others.le
    obtain ⟨startAt, stopAt⟩ := boundaries r List.mem_cons_self
    -- What stands before the first stretch, the stretch, and what stands after it.
    have startAt : Boundary (before ++ (between ++ after)) r.1 := by
      rwa [cut, List.append_assoc] at startAt
    obtain ⟨gap, behind, rfl, begins⟩ := exists_pieces startAt (by omega) (by omega)
    rw [byteLength_append] at stops
    have stopAt : Boundary ((before ++ gap) ++ (behind ++ after)) r.2 := by
      rw [cut] at stopAt
      simpa using stopAt
    obtain ⟨gone, rest, rfl, ends⟩ := exists_pieces stopAt (by rw [byteLength_append]; omega)
      (by rw [byteLength_append]; omega)
    rw [byteLength_append] at stops ends
    rw [starts] at begins ends
    have later : ∀ e ∈ edits, e = deletion r.1 r.2 ∨ r.2 ≤ e.start := by
      intro e mem
      rcases all e mem with ⟨r', among, rfl⟩ | after
      · rcases List.mem_cons.mp among with rfl | among
        · exact .inl rfl
        · exact .inr (others.le_of_mem among).1
      · exact .inr (Nat.le_trans le after)
    have atStart : ∀ e ∈ edits, n + byteLength gap ≤ e.start := by
      intro e mem
      rcases later e mem with rfl | after
      · exact Nat.le_of_eq begins
      · omega
    have kept : slice? n r.1 source = some gap := by
      rw [cut, ← begins, ← starts, List.append_assoc]
      simpa using slice?_append before gap (gone ++ rest ++ after)
    have behind : reading (edits.filter fun e => !decide (e.start < r.2)) r.2 (rest ++ after) =
        leftOver source r.2 ranges m ++ reading (edits.filter fun e => decide (m ≤ e.start)) m after := by
      have same : (edits.filter fun e => !decide (e.start < r.2)).filter
          (fun e => decide (m ≤ e.start)) = edits.filter fun e => decide (m ≤ e.start) := by
        refine filter_filter_of_skip fun e mem before => ?_
        have : e.start < r.2 := by simpa using before
        exact decide_eq_false (by omega)
      rw [← same]
      refine @ih _ (before ++ gap ++ gone) rest r.2 (by simpa using cut)
        (by simp only [byteLength_append]; omega) (by omega) others
        (fun r mem => boundaries r (List.mem_cons_of_mem _ mem))
        (fun e mem => ordered e (List.mem_filter.mp mem).1) ?_ ?_
      · intro e mem
        obtain ⟨mem, notBefore⟩ := List.mem_filter.mp mem
        rcases all e mem with ⟨r', among, rfl⟩ | after
        · rcases List.mem_cons.mp among with rfl | among
          · simp [deletion, text] at notBefore
          · exact .inl ⟨r', among, rfl⟩
        · exact .inr after
      · intro r' mem
        refine List.mem_filter.mpr ⟨deleted r' (List.mem_cons_of_mem _ mem), ?_⟩
        have := (others.le_of_mem mem).1
        simp [deletion, Nat.not_lt.mpr this]
    have stretch : reading edits r.1 (gone ++ (rest ++ after)) =
        reading (edits.filter fun e => !decide (e.start < r.2)) r.2 (rest ++ after) :=
      reading_stretch (by omega) text ordered later (deleted r List.mem_cons_self)
    rw [List.append_assoc, reading_gap gap _ atStart, begins, List.append_assoc, stretch, behind, leftOver,
      kept, Option.getD_some, List.append_assoc]

/-- **Stretches of a text are deleted**, and nothing else is edited between two positions: what is left
between them is what stands between the stretches.  Before and after it there is what the edits there
make of the text. -/
theorem reading_deletions {ranges : List (Nat × Nat)} {before between after : List Char} {n m : Nat}
    (cut : source = before ++ between ++ after) (starts : byteLength before = n)
    (stops : n + byteLength between = m) (order : Ordered n ranges m)
    (boundaries : ∀ r ∈ ranges, Boundary source r.1 ∧ Boundary source r.2)
    (ordered : ∀ e ∈ edits, e.start ≤ e.stop)
    (all : ∀ e ∈ edits, e.stop ≤ n ∨ (∃ r ∈ ranges, e = deletion r.1 r.2) ∨ m ≤ e.start)
    (deleted : ∀ r ∈ ranges, deletion r.1 r.2 ∈ edits) :
    reading edits 0 source =
      reading (edits.filter fun e => e.stop ≤ n) 0 before ++ leftOver source n ranges m ++
        reading (edits.filter fun e => n < e.stop ∧ m ≤ e.start) m after := by
  have le := order.le
  have later : ∀ e ∈ edits, decide (e.stop ≤ n) = false →
      (∃ r ∈ ranges, e = deletion r.1 r.2) ∨ m ≤ e.start := by
    intro e mem notBefore
    exact (all e mem).resolve_left (of_decide_eq_false notBefore)
  have behind : reading (edits.filter fun e => !decide (e.stop ≤ n)) n (between ++ after) =
      leftOver source n ranges m ++
        reading (edits.filter fun e => n < e.stop ∧ m ≤ e.start) m after := by
    have same : (edits.filter fun e => !decide (e.stop ≤ n)).filter
        (fun e => decide (m ≤ e.start)) = edits.filter fun e => n < e.stop ∧ m ≤ e.start := by
      rw [List.filter_filter]
      refine List.filter_congr fun e _ => ?_
      grind
    rw [← same]
    refine reading_leftOver cut starts stops order boundaries
      (fun e mem => ordered e (List.mem_filter.mp mem).1) ?_ ?_
    · intro e mem
      obtain ⟨mem, notBefore⟩ := List.mem_filter.mp mem
      exact later e mem (by simpa using notBefore)
    · intro r mem
      refine List.mem_filter.mpr ⟨deleted r mem, ?_⟩
      have inside := order.le_of_mem mem
      have notBefore : ¬r.2 ≤ n := by omega
      simp [deletion, notBefore]
  have cutAt := @reading_cut edits (fun e => decide (e.stop ≤ n)) before (between ++ after) 0
  rw [Nat.zero_add, starts] at cutAt
  have whole : source = before ++ (between ++ after) := by rw [cut, List.append_assoc]
  rw [List.append_assoc, ← behind]
  rw [congrArg (reading edits 0) whole]
  refine cutAt (fun e _ => of_decide_eq_true) ?_ (.inr ?_) ordered
  · intro e mem notBefore
    rcases later e mem notBefore with ⟨r, among, rfl⟩ | after
    · exact (order.le_of_mem among).1
    · exact Nat.le_trans le after
  · intro e _ notBefore
    exact Nat.lt_of_not_le (of_decide_eq_false notBefore)

end ModuleInterop.Patch
