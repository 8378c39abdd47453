import Mathlib.Data.List.Induction
import ModuleInterop.Proofs.Patch.Change
import ModuleInterop.Proofs.SourceMap.Decoding

/-!
# Looking up where a character comes from

A reader of a source map takes the last segment at or before a column of a line, and moves from the
place of the source that it names by the difference of the columns (`lookup?`).  For a character that
was copied from the source this gives the place where it stood (`lookup_of_copied`).

While the marks of a text are read from left to right one segment is live: the last one of the line.
`Traced` says that each copied character is mapped by the live segment and that a segment stands
after the live one.  The chunks of a sound output are traced (`traced_chunkMarks`), and from a traced
text the order of the columns and the results of lookups are read off.
-/

set_option autoImplicit false

namespace ModuleInterop.SourceMap

open ModuleInterop.Text ModuleInterop.Patch

/-! ## Places in a text -/

/-- Lines ended and column reached by a text that begins at a column. -/
def placeAfter : Nat → List Char → Nat × Nat
  | column, [] => (0, column)
  | column, c :: text =>
    if c = '\n' then
      let (line, column) := placeAfter 0 text
      (line + 1, column)
    else placeAfter (column + units16 c) text

theorem placeAfter_concat (column : Nat) (text : List Char) (c : Char) :
    placeAfter column (text ++ [c]) =
      if c = '\n' then ((placeAfter column text).1 + 1, 0)
      else ((placeAfter column text).1, (placeAfter column text).2 + units16 c) := by
  induction text generalizing column with
  | nil => simp only [List.nil_append, placeAfter]
  | cons d text ih =>
    simp only [List.cons_append, placeAfter, ih]
    split <;> split <;> rfl

theorem length16_append (a b : List Char) : length16 (a ++ b) = length16 a + length16 b := by
  induction a with
  | nil => simp [length16]
  | cons c a ih => simp [length16, ih, Nat.add_assoc]

theorem endPlace_concat (text : List Char) (c : Char) :
    endPlace (text ++ [c]) =
      if c = '\n' then ((endPlace text).1 + 1, 0)
      else ((endPlace text).1, (endPlace text).2 + units16 c) := by
  unfold endPlace lastLine
  by_cases feed : c = '\n'
  · simp [feed, length16]
  · simp [feed, length16_append, length16]

theorem placeAfter_zero (text : List Char) : placeAfter 0 text = endPlace text := by
  induction text using List.reverseRecOn with
  | nil => rfl
  | append_singleton text c ih => rw [placeAfter_concat, endPlace_concat, ih]

theorem units16_pos (c : Char) : 0 < units16 c := by
  unfold units16
  split <;> omega

/-! ## Reading segments -/

/-- The line and column of the source for a line and column of an edited text. -/
def lookup? (lines : List (List Segment)) (line column : Nat) : Option (Nat × Nat) := do
  let segments ← lines[line]?
  let last ← (segments.filter (·.column ≤ column)).getLast?
  return (last.sourceLine, last.sourceColumn + (column - last.column))

/-- A segment maps a column to the place of a position of the source. -/
structure Segment.Maps (source : List Char) (segment : Segment) (column position : Nat) : Prop where
  begun : segment.column ≤ column
  place : locate? source position =
    some (segment.sourceLine, segment.sourceColumn + (column - segment.column))

/-- The marks of characters that begin at a column, with the live segment if there is one. -/
inductive Traced (source : List Char) :
    Option Segment → Nat → List Mark → List Glyph → Prop where
  | done {live : Option Segment} {column : Nat} : Traced source live column [] []
  | segment {live : Option Segment} {column : Nat} {marks : List Mark} {glyphs : List Glyph}
      (segment : Segment) (here : segment.column = column)
      (later : ∀ s ∈ live, s.column < column)
      (rest : Traced source (some segment) column marks glyphs) :
      Traced source live column (.segment segment :: marks) glyphs
  | feed {live : Option Segment} {column : Nat} {marks : List Mark} {glyphs : List Glyph}
      (glyph : Glyph) (isFeed : glyph.char = '\n')
      (mapped : ∀ p ∈ glyph.origin, ∃ s ∈ live, s.Maps source column p)
      (rest : Traced source none 0 marks glyphs) :
      Traced source live column (.lineEnd :: marks) (glyph :: glyphs)
  | glyph {live : Option Segment} {column : Nat} {marks : List Mark} {glyphs : List Glyph}
      (glyph : Glyph) (noFeed : glyph.char ≠ '\n')
      (mapped : ∀ p ∈ glyph.origin, ∃ s ∈ live, s.Maps source column p)
      (rest : Traced source live (column + units16 glyph.char) marks glyphs) :
      Traced source live column marks (glyph :: glyphs)

section Marks

variable {source : List Char}

/-- The characters of a text that was copied from a position, or is new. -/
def glyphsFrom : Option Nat → List Char → List Glyph
  | some p, text => copiedText p text
  | none, text => newText text

theorem Chunk.glyphs_eq_glyphsFrom (chunk : Chunk) :
    chunk.glyphs = glyphsFrom (if chunk.copied then chunk.origin else none) chunk.text := by
  obtain ⟨text, origin, copied⟩ := chunk
  cases origin <;> cases copied <;> rfl

theorem glyphsFrom_cons (position : Option Nat) (c : Char) (text : List Char) :
    glyphsFrom position (c :: text) =
      ⟨c, position⟩ :: glyphsFrom (position.map (· + c.utf8Size)) text := by
  cases position <;> rfl

/-- The segment of a position maps the column it stands at. -/
theorem segmentAt_of_boundary {p : Nat} (column : Nat) (inside : Boundary source p) :
    ∃ s : Segment, segmentAt source column p = .ok (.segment s) ∧ s.column = column ∧
      s.Maps source column p := by
  obtain ⟨before, after, rfl, rfl⟩ := inside
  have place := locate?_append before after
  refine ⟨⟨column, (endPlace before).1, (endPlace before).2⟩, ?_, rfl, Nat.le_refl _, ?_⟩
  · rw [segmentAt, place]
  · rw [place]
    simp

/-- A segment that maps a column maps the next one on the line to the next position. -/
theorem Segment.Maps.step {s : Segment} {column : Nat} {a b : List Char} {c : Char}
    (maps : s.Maps (a ++ c :: b) column (byteLength a)) (noFeed : c ≠ '\n') :
    s.Maps (a ++ c :: b) (column + units16 c) (byteLength a + c.utf8Size) := by
  have begun := maps.begun
  have place := maps.place
  rw [locate?_append, Option.some.injEq] at place
  have next := locate?_append (a ++ [c]) b
  rw [endPlace_concat, if_neg noFeed, place, List.append_assoc] at next
  have length : byteLength (a ++ [c]) = byteLength a + c.utf8Size := by simp [byteLength]
  have column : s.sourceColumn + (column + units16 c - s.column) =
      s.sourceColumn + (column - s.column) + units16 c := by omega
  refine ⟨by omega, ?_⟩
  rw [column, ← length]
  exact next

/-- The marks at the start of a line of a text that goes on. -/
def lineStart (source : List Char) (position : Option Nat) (text : List Char) :
    Except Patch.Problem (List Mark) :=
  match position with
  | some p => if text.isEmpty then .ok [] else (segmentAt source 0 p).map ([·])
  | none => .ok []

/-- The marks at the start of a chunk. -/
def chunkStart (source : List Char) (column : Nat) (origin : Option Nat) :
    Except Patch.Problem (List Mark) :=
  match origin with
  | some p => (segmentAt source column p).map ([·])
  | none => .ok []

theorem textMarks_feed {position : Option Nat} {column : Nat} {c : Char} {text : List Char}
    (isFeed : c = '\n') :
    textMarks source position column (c :: text) = do
      let begun ← lineStart source (position.map (· + c.utf8Size)) text
      let (marks, column) ← textMarks source (position.map (· + c.utf8Size)) 0 text
      return (.lineEnd :: begun ++ marks, column) := by
  rw [textMarks, if_pos isFeed]
  generalize position.map (· + c.utf8Size) = next
  cases next with
  | none => rfl
  | some p =>
    cases text with
    | nil => rfl
    | cons d text => rfl

theorem chunkMarks_cons {column : Nat} {chunk : Chunk} {chunks : List Chunk} :
    chunkMarks source column (chunk :: chunks) = do
      let begun ← chunkStart source column chunk.origin
      let (marks, column) ←
        textMarks source (if chunk.copied then chunk.origin else none) column chunk.text
      return begun ++ marks ++ (← chunkMarks source column chunks) := by
  obtain ⟨text, origin, copied⟩ := chunk
  cases origin <;> rw [chunkMarks] <;> rfl

/-- A new line begins with a segment of its own if the text is copied and goes on. -/
theorem traced_lineStart {position : Option Nat} (text : List Char)
    (inside : ∀ p ∈ position, Boundary source p) :
    ∃ (begun : List Mark) (live : Option Segment), lineStart source position text = .ok begun ∧
      (∀ marks glyphs, Traced source live 0 marks glyphs →
        Traced source none 0 (begun ++ marks) glyphs) ∧
      (∀ s ∈ live, s.column = 0 ∧ text ≠ []) ∧
      (text ≠ [] → ∀ p ∈ position, ∃ s ∈ live, s.Maps source 0 p) := by
  cases position with
  | none => exact ⟨[], none, rfl, fun _ _ traced => traced, by simp, by simp⟩
  | some p =>
    by_cases empty : text = []
    · exact ⟨[], none, by simp [lineStart, empty], fun _ _ traced => traced, by simp,
        fun nonempty => absurd empty nonempty⟩
    · obtain ⟨s, located, here, maps⟩ := segmentAt_of_boundary 0 (inside p rfl)
      refine ⟨[.segment s], some s, ?_, ?_, ?_, ?_⟩
      · simp [lineStart, empty, located, Except.map]
      · intro marks glyphs traced
        exact .segment s here (by simp) traced
      · simp [here, empty]
      · intro _ q mem
        obtain rfl := Option.some.inj mem
        exact ⟨s, rfl, maps⟩

/-- A chunk with an origin begins with a segment, which then maps its first character. -/
theorem traced_chunkStart {chunk : Chunk} {live : Option Segment} {column : Nat}
    (sound : chunk.Sound source) (shown : chunk.Shown) (before : ∀ s ∈ live, s.column < column) :
    ∃ (begun : List Mark) (live' : Option Segment),
      chunkStart source column chunk.origin = .ok begun ∧
      (∀ marks glyphs, Traced source live' column marks glyphs →
        Traced source live column (begun ++ marks) glyphs) ∧
      (∀ p ∈ (if chunk.copied then chunk.origin else none),
        ∃ s ∈ live', s.Maps source column p) ∧
      (∀ s ∈ live', s.column ≤ column) ∧
      (chunk.text = [] → ∀ s ∈ live', s.column < column) := by
  cases origin : chunk.origin with
  | none =>
    exact ⟨[], live, rfl, fun _ _ traced => traced, by simp,
      fun s mem => Nat.le_of_lt (before s mem), fun _ => before⟩
  | some p =>
    have nonempty : chunk.text ≠ [] := shown (by rw [origin]; rfl)
    obtain ⟨s, located, here, maps⟩ := segmentAt_of_boundary column (sound.begins p origin)
    refine ⟨[.segment s], some s, ?_, ?_, ?_, ?_, fun empty => absurd empty nonempty⟩
    · rw [chunkStart, located]
      rfl
    · exact fun _ _ traced => .segment s here before traced
    · intro q mem
      split at mem
      · obtain rfl := Option.some.inj mem
        exact ⟨s, rfl, maps⟩
      · contradiction
    · simp [here]

/-- What the marks of one text leave to those that follow: a live segment before the column reached,
and a text that is traced if what follows is. -/
theorem traced_textMarks {position : Option Nat} {live : Option Segment} {column : Nat}
    {text : List Char}
    (taken : ∀ p ∈ position, ∃ a b, source = a ++ text ++ b ∧ byteLength a = p)
    (mapped : text ≠ [] → ∀ p ∈ position, ∃ s ∈ live, s.Maps source column p)
    (begun : ∀ s ∈ live, s.column ≤ column)
    (before : text = [] → ∀ s ∈ live, s.column < column) :
    ∃ marks column' live', textMarks source position column text = .ok (marks, column') ∧
      (∀ s ∈ live', s.column < column') ∧
      ∀ later glyphs, Traced source live' column' later glyphs →
        Traced source live column (marks ++ later) (glyphsFrom position text ++ glyphs) := by
  induction text generalizing position live column with
  | nil =>
    refine ⟨[], column, live, rfl, before rfl, ?_⟩
    intro later glyphs traced
    cases position <;> exact traced
  | cons c text ih =>
    have mapped := mapped (List.cons_ne_nil c text)
    have taken' : ∀ p ∈ position.map (· + c.utf8Size),
        ∃ a b, source = a ++ text ++ b ∧ byteLength a = p := by
      intro p mem
      obtain ⟨q, among, rfl⟩ := Option.map_eq_some_iff.mp mem
      obtain ⟨a, b, rfl, rfl⟩ := taken q among
      exact ⟨a ++ [c], b, by simp, by simp [byteLength]⟩
    rw [glyphsFrom_cons]
    by_cases isFeed : c = '\n'
    · have inside : ∀ p ∈ position.map (· + c.utf8Size), Boundary source p := by
        intro p mem
        obtain ⟨a, b, rfl, rfl⟩ := taken' p mem
        rw [List.append_assoc]
        exact boundary_append _ _
      obtain ⟨begun, live', starts, opens, column', maps⟩ := traced_lineStart text inside
      obtain ⟨marks, reached, live'', written, behind, traces⟩ := ih taken' maps
        (fun s mem => Nat.le_of_eq (column' s mem).1)
        (fun empty s mem => absurd empty (column' s mem).2)
      refine ⟨.lineEnd :: begun ++ marks, reached, live'', ?_, behind, ?_⟩
      · rw [textMarks_feed isFeed, starts]
        show (textMarks source (position.map (· + c.utf8Size)) 0 text >>= _) = _
        rw [written]
        rfl
      · intro later glyphs traced
        have rest := opens _ _ (traces later glyphs traced)
        simpa using Traced.feed ⟨c, position⟩ isFeed mapped rest
    · have mapped' : text ≠ [] → ∀ p ∈ position.map (· + c.utf8Size),
          ∃ s ∈ live, s.Maps source (column + units16 c) p := by
        intro _ p mem
        obtain ⟨q, here, rfl⟩ := Option.map_eq_some_iff.mp mem
        obtain ⟨s, among, maps⟩ := mapped q here
        obtain ⟨a, b, whole, rfl⟩ := taken q here
        rw [List.append_assoc, List.cons_append] at whole
        subst whole
        exact ⟨s, among, maps.step isFeed⟩
      have positive := units16_pos c
      have behind : ∀ s ∈ live, s.column < column + units16 c := by
        intro s mem
        have := begun s mem
        omega
      obtain ⟨marks, reached, live', written, behind', traces⟩ := ih taken' mapped'
        (fun s mem => Nat.le_of_lt (behind s mem)) fun _ => behind
      refine ⟨marks, reached, live', ?_, behind', ?_⟩
      · rw [textMarks, if_neg isFeed, written]
      · intro later glyphs traced
        exact .glyph ⟨c, position⟩ isFeed mapped (traces later glyphs traced)

/-- **The marks of sound chunks trace their characters.** -/
theorem traced_chunkMarks {chunks : List Chunk} (sound : ∀ chunk ∈ chunks, chunk.Sound source)
    (shown : ∀ chunk ∈ chunks, chunk.Shown) (live : Option Segment) (column : Nat)
    (before : ∀ s ∈ live, s.column < column) :
    ∃ marks, chunkMarks source column chunks = .ok marks ∧
      Traced source live column marks (chunks.flatMap Chunk.glyphs) := by
  induction chunks generalizing live column with
  | nil => exact ⟨[], rfl, .done⟩
  | cons chunk chunks ih =>
    have soundHere := sound chunk List.mem_cons_self
    have shownHere := shown chunk List.mem_cons_self
    have ih := ih (fun c mem => sound c (List.mem_cons_of_mem _ mem))
      fun c mem => shown c (List.mem_cons_of_mem _ mem)
    have taken : ∀ p ∈ (if chunk.copied then chunk.origin else none),
        ∃ a b, source = a ++ chunk.text ++ b ∧ byteLength a = p := by
      intro p mem
      split at mem
      · rename_i isCopied
        obtain ⟨a, b, whole, origin⟩ := soundHere.taken isCopied
        rw [origin, Option.mem_some_iff] at mem
        exact ⟨a, b, whole, mem⟩
      · contradiction
    rw [List.flatMap_cons, Chunk.glyphs_eq_glyphsFrom]
    obtain ⟨begun, live₁, starts, opens, mapped, column₁, before₁⟩ :=
      traced_chunkStart soundHere shownHere before
    obtain ⟨marks, reached, live', written, behind, traces⟩ :=
      traced_textMarks taken (fun _ => mapped) column₁ before₁
    obtain ⟨later, rest, traced⟩ := ih live' reached behind
    refine ⟨begun ++ marks ++ later, ?_, ?_⟩
    · rw [chunkMarks_cons, starts]
      show (textMarks source (if chunk.copied then chunk.origin else none) column chunk.text
        >>= _) = _
      rw [written]
      show (chunkMarks source reached chunks >>= _) = _
      rw [rest]
      rfl
    · rw [List.append_assoc]
      exact opens _ _ (traces _ _ traced)

end Marks

/-! ## What a traced text gives -/

section Traced

variable {source : List Char} {live : Option Segment} {column : Nat} {marks : List Mark}
  {glyphs : List Glyph}

theorem linesOfMarks_ne_nil (marks : List Mark) : linesOfMarks marks ≠ [] := by
  cases marks with
  | nil => simp [linesOfMarks]
  | cons mark marks =>
    cases mark with
    | lineEnd => simp [linesOfMarks]
    | segment s =>
      rw [linesOfMarks]
      split <;> simp

theorem Traced.length_lines (traced : Traced source live column marks glyphs) :
    (linesOfMarks marks).length = (glyphs.map Glyph.char).count '\n' + 1 := by
  induction traced with
  | done => rfl
  | @segment _ _ marks _ s here later rest ih =>
    rw [← ih, linesOfMarks]
    have := linesOfMarks_ne_nil marks
    split
    · contradiction
    · rename_i same
      rw [same]
      rfl
  | feed g isFeed mapped rest ih =>
    rw [linesOfMarks, List.length_cons, ih, List.map_cons, isFeed, List.count_cons_self]
  | glyph g noFeed mapped rest ih =>
    rw [ih, List.map_cons, List.count_cons_of_ne noFeed]

/-- The rest of the current line, and the lines after it. -/
theorem Traced.exists_lines (traced : Traced source live column marks glyphs) :
    ∃ line lines, linesOfMarks marks = line :: lines ∧
      (∀ s ∈ line, column ≤ s.column) ∧
      (live.toList ++ line).Pairwise (·.column < ·.column) ∧
      ∀ line ∈ lines, line.Pairwise (·.column < ·.column) := by
  induction traced with
  | @done live column => exact ⟨[], [], rfl, by simp, by cases live <;> simp, by simp⟩
  | @segment live _ _ _ s here later rest ih =>
    obtain ⟨line, lines, same, begun, ordered, others⟩ := ih
    refine ⟨s :: line, lines, by rw [linesOfMarks, same], ?_, ?_, others⟩
    · intro t mem
      rcases List.mem_cons.mp mem with rfl | mem
      · exact Nat.le_of_eq here.symm
      · exact begun t mem
    · have ordered : (s :: line).Pairwise (·.column < ·.column) := ordered
      have after := (List.pairwise_cons.mp ordered).1
      cases live with
      | none => exact ordered
      | some l =>
        have first := later l rfl
        refine List.pairwise_cons.mpr ⟨?_, ordered⟩
        intro t mem
        rcases List.mem_cons.mp mem with rfl | mem
        · omega
        · have := after t mem
          omega
  | @feed live _ marks _ g isFeed mapped rest ih =>
    obtain ⟨line, lines, same, begun, ordered, others⟩ := ih
    refine ⟨[], line :: lines, by rw [linesOfMarks, same], by simp, by cases live <;> simp, ?_⟩
    intro next mem
    rcases List.mem_cons.mp mem with rfl | mem
    · exact ordered
    · exact others next mem
  | glyph g noFeed mapped rest ih =>
    obtain ⟨line, lines, same, begun, ordered, others⟩ := ih
    refine ⟨line, lines, same, ?_, ordered, others⟩
    intro s mem
    have := begun s mem
    omega

/-- On a line whose segments up to a column are those before it and whose last one maps the column,
the lookup gives the place that it maps to. -/
theorem lookup?_of_maps {before line : List Segment} {lines : List (List Segment)} {p : Nat}
    {s : Segment} (begun : ∀ s ∈ before, s.column ≤ column) (after : ∀ s ∈ line, column < s.column)
    (last : before.getLast? = some s) (maps : s.Maps source column p) :
    lookup? ((before ++ line) :: lines) 0 column = locate? source p := by
  have kept : (before ++ line).filter (·.column ≤ column) = before := by
    rw [List.filter_append]
    have all : before.filter (·.column ≤ column) = before :=
      List.filter_eq_self.mpr fun s mem => by simpa using begun s mem
    have none : line.filter (·.column ≤ column) = [] :=
      List.filter_eq_nil_iff.mpr fun s mem => by simpa using after s mem
    rw [all, none, List.append_nil]
  rw [maps.place]
  unfold lookup?
  simp only [List.getElem?_cons_zero, Option.bind_eq_bind, Option.bind_some, kept, last]
  rfl

/-- **A lookup gives the place that a character was copied from.**  `before` are the segments of the
line that have been read. -/
theorem Traced.lookup (traced : Traced source live column marks glyphs) (before : List Segment)
    (last : before.getLast? = live) (begun : ∀ s ∈ before, s.column ≤ column)
    {line : List Segment} {lines : List (List Segment)} (same : linesOfMarks marks = line :: lines)
    {front back : List Glyph} {glyph : Glyph} {p : Nat} (stands : glyphs = front ++ glyph :: back)
    (origin : glyph.origin = some p) :
    lookup? ((before ++ line) :: lines) (placeAfter column (front.map Glyph.char)).1
      (placeAfter column (front.map Glyph.char)).2 = locate? source p := by
  induction traced generalizing before line lines front with
  | done => simp at stands
  | @segment _ column marks _ s here later rest ih =>
    obtain ⟨line', lines', same', -⟩ := rest.exists_lines
    rw [linesOfMarks, same', List.cons.injEq] at same
    obtain ⟨rfl, rfl⟩ := same
    have begun' : ∀ t ∈ before ++ [s], t.column ≤ column := by
      intro t mem
      rcases List.mem_append.mp mem with mem | mem
      · exact begun t mem
      · rw [List.mem_singleton.mp mem]
        exact Nat.le_of_eq here
    have found := ih (before ++ [s]) (by simp) begun' same' stands
    rwa [List.append_assoc] at found
  | @feed _ column marks _ g isFeed mapped rest ih =>
    rw [linesOfMarks, List.cons.injEq] at same
    obtain ⟨rfl, rfl⟩ := same
    cases front with
    | nil =>
      obtain ⟨rfl, -⟩ := List.cons.inj stands
      obtain ⟨s, isLive, maps⟩ := mapped p origin
      exact lookup?_of_maps begun (by simp) (last.trans isLive) maps
    | cons g' front =>
      obtain ⟨rfl, later⟩ := List.cons.inj stands
      obtain ⟨line', lines', same', -⟩ := rest.exists_lines
      rw [List.map_cons, placeAfter, if_pos isFeed, same']
      exact ih [] rfl (by simp) same' later
  | @glyph _ column marks _ g noFeed mapped rest ih =>
    have positive := units16_pos g.char
    cases front with
    | nil =>
      obtain ⟨rfl, -⟩ := List.cons.inj stands
      obtain ⟨s, isLive, maps⟩ := mapped p origin
      obtain ⟨line', lines', same', after, -⟩ := rest.exists_lines
      rw [same', List.cons.injEq] at same
      obtain ⟨rfl, rfl⟩ := same
      show lookup? _ 0 column = _
      refine lookup?_of_maps begun (fun t mem => ?_) (last.trans isLive) maps
      have := after t mem
      omega
    | cons g' front =>
      obtain ⟨rfl, later⟩ := List.cons.inj stands
      rw [List.map_cons, placeAfter, if_neg noFeed]
      refine ih before last ?_ same later
      intro t mem
      have := begun t mem
      omega

end Traced

/-! ## Maps of edited texts -/

/-- The segments of a sound output: there are as many lines as the text has, on each line the columns
increase, and a lookup gives the place that a character was copied from. -/
theorem segments_of_sound {output : Output} (sound : output.Sound) :
    ∃ lines, segments output = .ok lines ∧ lines ≠ [] ∧
      lines.length = output.code.count '\n' + 1 ∧
      (∀ line ∈ lines, line.Pairwise (·.column < ·.column)) ∧
      ∀ front glyph back p, output.glyphs = front ++ glyph :: back → glyph.origin = some p →
        lookup? lines (endPlace (front.map Glyph.char)).1 (endPlace (front.map Glyph.char)).2 =
          locate? output.source p := by
  obtain ⟨marks, written, traced⟩ :=
    traced_chunkMarks sound.sound sound.shown none 0 (by simp)
  obtain ⟨line, lines, same, -, ordered, others⟩ := traced.exists_lines
  have count := traced.length_lines
  rw [same] at count
  refine ⟨line :: lines, ?_, by simp, ?_, ?_, ?_⟩
  · rw [segments, written, ← same]
    rfl
  · rw [count, Output.code_eq_chars]
    rfl
  · intro next mem
    rcases List.mem_cons.mp mem with rfl | mem
    · exact ordered
    · exact others next mem
  · intro front glyph back p stands origin
    rw [← placeAfter_zero]
    exact traced.lookup [] rfl (by simp) same stands origin

/-- The source map of a sound output exists. -/
theorem exists_map_of_sound {output : Output} (sound : output.Sound) (name : String) :
    ∃ map, SourceMap.ofOutput output name = .ok map := by
  obtain ⟨lines, given, -⟩ := segments_of_sound sound
  refine ⟨⟨name, String.ofList output.source, String.ofList (encode lines)⟩, ?_⟩
  rw [SourceMap.ofOutput, given]
  rfl

variable {source : List Char} {edits : List Edit}

/-- **Source maps are right.**  After edits that fit and are apart, and after any changes, the
mappings read back have as many lines as the text, the columns of a line increase, and for each
character that was copied the lookup gives the line and the column it had in the source. -/
theorem lookup_of_copied (fits : ∀ e ∈ edits, e.Fits source) (apart : edits.Pairwise Edit.Apart)
    (changes : List Change) (name : String) :
    ∃ output map lines,
      apply source edits = .ok output ∧
      SourceMap.ofOutput (changes.foldl Output.change output) name = .ok map ∧
      decode map.mappings.toList = some lines ∧
      (changes.foldl Output.change output).code =
        (changes.foldl changeGlyphs (reading edits 0 source)).map Glyph.char ∧
      lines.length = (changes.foldl Output.change output).code.count '\n' + 1 ∧
      (∀ line ∈ lines, line.Pairwise (·.column < ·.column)) ∧
      ∀ front glyph back p,
        changes.foldl changeGlyphs (reading edits 0 source) = front ++ glyph :: back →
        glyph.origin = some p →
        ∃ a b, source = a ++ glyph.char :: b ∧ byteLength a = p ∧
          lookup? lines (endPlace (front.map Glyph.char)).1 (endPlace (front.map Glyph.char)).2 =
            some (endPlace a) := by
  obtain ⟨output, applied, same, glyphs⟩ := apply_of_apart fits apart
  have sound := (sound_of_apply fits applied).foldl changes
  have source' := (source_foldl output changes).trans same
  have glyphs' := glyphs_foldl output changes
  rw [glyphs] at glyphs'
  obtain ⟨lines, given, nonempty, count, ordered, found⟩ := segments_of_sound sound
  refine ⟨output, ⟨name, String.ofList source, String.ofList (encode lines)⟩, lines, applied, ?_,
    ?_, ?_, count, ordered, ?_⟩
  · rw [SourceMap.ofOutput, given, source']
    rfl
  · rw [String.toList_ofList]
    exact decode_encode nonempty
  · rw [Output.code_eq_chars, glyphs']
  · intro front glyph back p stands origin
    have stands := glyphs'.trans stands
    have mem : glyph ∈ (changes.foldl Output.change output).glyphs := by
      rw [stands]
      simp
    obtain ⟨a, b, whole, length⟩ := sound.origin_mem mem origin
    have whole := source'.symm.trans whole
    refine ⟨a, b, whole, length, ?_⟩
    rw [found front glyph back p stands origin, source', whole, ← length]
    exact locate?_append a _

/-- A character on the second line, after a replacement, an insertion and a line put in front. -/
theorem copied_found :
    (∀ e ∈ ([⟨0, 1, ['x', 'y']⟩, ⟨2, 2, ['+']⟩] : List Edit), e.Fits ['a', '\n', 'b', 'c']) ∧
      ([⟨0, 1, ['x', 'y']⟩, ⟨2, 2, ['+']⟩] : List Edit).Pairwise Edit.Apart ∧
      ∃ output map lines,
        apply ['a', '\n', 'b', 'c'] [⟨0, 1, ['x', 'y']⟩, ⟨2, 2, ['+']⟩] = .ok output ∧
        SourceMap.ofOutput (output.trim.prepend ['p', '\n']) "m.js" = .ok map ∧
        decode map.mappings.toList = some lines ∧ lookup? lines 2 2 = some (1, 1) := by
  have fits : ∀ e ∈ ([⟨0, 1, ['x', 'y']⟩, ⟨2, 2, ['+']⟩] : List Edit),
      e.Fits ['a', '\n', 'b', 'c'] := by decide
  have apart : ([⟨0, 1, ['x', 'y']⟩, ⟨2, 2, ['+']⟩] : List Edit).Pairwise Edit.Apart := by decide
  obtain ⟨output, map, lines, applied, mapped, decoded, -, -, -, found⟩ :=
    lookup_of_copied fits apart [.trim, .prepend ['p', '\n']] "m.js"
  refine ⟨fits, apart, output, map, lines, applied, mapped, decoded, ?_⟩
  obtain ⟨a, b, whole, length, same⟩ :=
    found (newText ['p', '\n', 'x', 'y'] ++ [⟨'\n', some 1⟩, ⟨'+', none⟩, ⟨'b', some 2⟩])
      ⟨'c', some 3⟩ [] 3 (by decide) rfl
  have before : a = ['a', '\n', 'b'] :=
    (append_inj_of_byteLength (whole.symm.trans
      (show ['a', '\n', 'b', 'c'] = ['a', '\n', 'b'] ++ ['c'] from rfl)) length).1
  rw [before] at same
  exact same

end ModuleInterop.SourceMap
