import ModuleInterop.SourceMap.Mapping

/-!
# Reading mappings

The rules of source maps (version 3) read the other way round: a text of mappings is cut at `;` into
lines and at `,` into segments, each of which holds four numbers in base 64.  They are differences: of
the column of the edited text to the segment before it on the line, of the source (there is one, so
the difference is zero), and of the line and column of the source to the segment before, also across
lines.

What is written is read back (`decode_encode`).
-/

set_option autoImplicit false

namespace ModuleInterop.SourceMap

/-! ## Numbers -/

/-- The number below 64 that a digit of base 64 stands for. -/
def base64Value? (c : Char) : Option Nat := base64Alphabet.idxOf? c

/-- The number that a text begins with, five bits a digit, and what follows it. -/
def readDigits : List Char → Option (Nat × List Char)
  | [] => none
  | c :: text =>
    match base64Value? c with
    | none => none
    | some d =>
      if d < 32 then some (d, text)
      else (readDigits text).map fun read => (d - 32 + 32 * read.1, read.2)

/-- The integer that a number with its sign in the lowest bit stands for. -/
def unfoldSign (n : Nat) : Int := if n % 2 = 1 then -(n / 2 : Nat) else (n / 2 : Nat)

/-- The integer that a text begins with, and what follows it. -/
def readVlq (text : List Char) : Option (Int × List Char) :=
  (readDigits text).map fun read => (unfoldSign read.1, read.2)

theorem base64Value?_digit : ∀ n < 64, base64Value? (base64Digit n) = some n := by decide +kernel

theorem base64Digit_ne : ∀ n < 64, base64Digit n ≠ ',' ∧ base64Digit n ≠ ';' := by decide +kernel

theorem vlqDigits_lt (n : Nat) : ∀ d ∈ vlqDigits n, d < 64 := by
  induction n using Nat.strongRecOn with
  | ind n ih =>
    rw [vlqDigits]
    split
    · intro d mem
      rw [List.mem_singleton] at mem
      omega
    · intro d mem
      rcases List.mem_cons.mp mem with rfl | mem
      · omega
      · exact ih (n / 32) (by omega) d mem

theorem readDigits_digits (n : Nat) (rest : List Char) :
    readDigits ((vlqDigits n).map base64Digit ++ rest) = some (n, rest) := by
  induction n using Nat.strongRecOn with
  | ind n ih =>
    rw [vlqDigits]
    split
    · rename_i small
      simp [readDigits, base64Value?_digit n (by omega), small]
    · have later := ih (n / 32) (by omega)
      have value := base64Value?_digit (n % 32 + 32) (by omega)
      simp only [List.map_cons, List.cons_append, readDigits, value, later, Option.map_some]
      rw [if_neg (by omega), Option.some.injEq, Prod.mk.injEq]
      exact ⟨by omega, rfl⟩

theorem unfoldSign_foldSign (value : Int) : unfoldSign (foldSign value) = value := by
  unfold foldSign unfoldSign
  split <;> split <;> omega

/-- The text of an integer is read back. -/
theorem readVlq_vlq (value : Int) (rest : List Char) :
    readVlq (vlq value ++ rest) = some (value, rest) := by
  rw [readVlq, vlq, readDigits_digits, Option.map_some, unfoldSign_foldSign]

theorem not_mem_vlq (value : Int) : ',' ∉ vlq value ∧ ';' ∉ vlq value := by
  have digits := vlqDigits_lt (foldSign value)
  constructor
  · intro mem
    obtain ⟨d, among, same⟩ := List.mem_map.mp mem
    exact (base64Digit_ne d (digits d among)).1 same
  · intro mem
    obtain ⟨d, among, same⟩ := List.mem_map.mp mem
    exact (base64Digit_ne d (digits d among)).2 same

theorem vlq_ne_nil (value : Int) : vlq value ≠ [] := by
  rw [vlq, vlqDigits]
  split <;> simp

/-! ## Segments and lines -/

/-- A number changed by a difference; there are no negative ones. -/
def shift? (n : Nat) (difference : Int) : Option Nat :=
  if 0 ≤ n + difference then some (n + difference).toNat else none

/-- The segment that a text stands for after another one. -/
def readSegment (last : Segment) (text : List Char) : Option Segment := do
  let (column, text) ← readVlq text
  let (source, text) ← readVlq text
  let (line, text) ← readVlq text
  let (sourceColumn, text) ← readVlq text
  if source = 0 ∧ text = [] then
    return ⟨← shift? last.column column, ← shift? last.sourceLine line,
      ← shift? last.sourceColumn sourceColumn⟩
  else none

/-- The segments that texts stand for after some segment, and the segment that the next line goes on
from. -/
def readLine : Segment → List (List Char) → Option (List Segment × Segment)
  | last, [] => some ([], last)
  | last, text :: texts => do
    let next ← readSegment last text
    let (segments, final) ← readLine next texts
    return (next :: segments, final)

/-- The texts of the segments of a line. -/
def segmentTexts (line : List Char) : List (List Char) :=
  if line = [] then [] else line.splitOn ','

/-- The segments of lines after some segment. -/
def readLines : Segment → List (List Char) → Option (List (List Segment))
  | _, [] => some []
  | last, text :: texts => do
    let (line, final) ← readLine { last with column := 0 } (segmentTexts text)
    let lines ← readLines final texts
    return line :: lines

/-- The segments of each line that a text of mappings stands for. -/
def decode (text : List Char) : Option (List (List Segment)) :=
  readLines ⟨0, 0, 0⟩ (text.splitOn ';')

theorem shift?_difference (m n : Nat) : shift? m ((n : Int) - m) = some n := by
  unfold shift?
  rw [if_pos (by omega), Option.some.injEq]
  omega

theorem readSegment_encodeSegment (last next : Segment) :
    readSegment last (encodeSegment last next) = some next := by
  unfold readSegment encodeSegment
  rw [List.append_assoc, List.append_assoc, readVlq_vlq]
  simp only [Option.bind_eq_bind, Option.bind_some]
  rw [readVlq_vlq]
  simp only [Option.bind_some]
  rw [readVlq_vlq]
  simp only [Option.bind_some]
  rw [← List.append_nil (vlq ((next.sourceColumn : Int) - last.sourceColumn)), readVlq_vlq]
  simp [shift?_difference]

theorem not_mem_encodeSegment (last next : Segment) :
    ',' ∉ encodeSegment last next ∧ ';' ∉ encodeSegment last next := by
  simp [encodeSegment, not_mem_vlq]

theorem encodeSegment_ne_nil (last next : Segment) : encodeSegment last next ≠ [] := by
  simp [encodeSegment, vlq_ne_nil]

theorem mem_encodeLine {last : Segment} {line : List Segment} :
    ∀ text ∈ (encodeLine last line).1, ∃ s t, text = encodeSegment s t := by
  induction line generalizing last with
  | nil => simp [encodeLine]
  | cons s line ih =>
    intro text mem
    rcases List.mem_cons.mp mem with rfl | mem
    · exact ⟨last, s, rfl⟩
    · exact ih text mem

theorem readLine_encodeLine (last : Segment) (line : List Segment) :
    readLine last (encodeLine last line).1 = some (line, (encodeLine last line).2) := by
  induction line generalizing last with
  | nil => rfl
  | cons s line ih =>
    simp only [encodeLine, readLine, readSegment_encodeSegment, Option.bind_eq_bind,
      Option.bind_some, ih]
    rfl

/-- A line is cut into the texts that it was put together from. -/
theorem segmentTexts_intercalate {texts : List (List Char)}
    (written : ∀ text ∈ texts, ∃ s t, text = encodeSegment s t) :
    segmentTexts ([','].intercalate texts) = texts := by
  cases texts with
  | nil => rfl
  | cons text texts =>
    have nonempty : [','].intercalate (text :: texts) ≠ [] := by
      obtain ⟨s, t, rfl⟩ := written text List.mem_cons_self
      have := encodeSegment_ne_nil s t
      cases texts <;> simp [List.intercalate_cons_cons, this]
    rw [segmentTexts, if_neg nonempty]
    apply List.splitOn_intercalate ','
    · intro text mem
      obtain ⟨s, t, rfl⟩ := written text mem
      exact (not_mem_encodeSegment s t).1
    · simp

theorem readLines_encodeLines (last : Segment) (lines : List (List Segment)) :
    readLines last (encodeLines last lines) = some lines := by
  induction lines generalizing last with
  | nil => rfl
  | cons line lines ih =>
    simp only [encodeLines, readLines, segmentTexts_intercalate mem_encodeLine,
      readLine_encodeLine, ih, Option.bind_eq_bind, Option.bind_some]
    rfl

/-- A character of texts that are joined is one of theirs or of the separator. -/
theorem not_mem_intercalate {c : Char} {separator : List Char} {texts : List (List Char)}
    (between : c ∉ separator) (none : ∀ text ∈ texts, c ∉ text) :
    c ∉ separator.intercalate texts := by
  induction texts with
  | nil => simp
  | cons text texts ih =>
    have here := none text List.mem_cons_self
    have rest := ih fun text mem => none text (List.mem_cons_of_mem _ mem)
    cases texts with
    | nil => simpa using here
    | cons next texts => simp [List.intercalate_cons_cons, here, between, rest]

theorem not_mem_encodeLines {last : Segment} {lines : List (List Segment)} :
    ∀ text ∈ encodeLines last lines, ';' ∉ text := by
  induction lines generalizing last with
  | nil => simp [encodeLines]
  | cons line lines ih =>
    intro text mem
    rcases List.mem_cons.mp mem with rfl | mem
    · apply not_mem_intercalate (by decide)
      intro piece mem
      obtain ⟨s, t, rfl⟩ := mem_encodeLine piece mem
      exact (not_mem_encodeSegment s t).2
    · exact ih text mem

/-- **What is written is read back.** -/
theorem decode_encode {lines : List (List Segment)} (nonempty : lines ≠ []) :
    decode (encode lines) = some lines := by
  rw [decode, encode, List.splitOn_intercalate ';' not_mem_encodeLines, readLines_encodeLines]
  cases lines with
  | nil => contradiction
  | cons line lines => simp [encodeLines]

end ModuleInterop.SourceMap
