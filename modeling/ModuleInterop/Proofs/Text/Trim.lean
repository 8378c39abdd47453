import Mathlib.Data.List.TakeWhile
import ModuleInterop.Text.Blank

/-!
# Trimming

What trimming leaves of a text (`trims_trim`) and of texts in a row.  A piece that begins and ends with a
character that is not blank stays whole, wherever in the text it stands (`infix_trim`).
-/

set_option autoImplicit false

namespace ModuleInterop.Text

/-- Taking the leading blanks off two texts in a row. -/
theorem trimStart_append (a b : List Char) :
    trimStart (a ++ b) = if (trimStart a).isEmpty then trimStart b else trimStart a ++ b :=
  List.dropWhile_append

/-- Taking the trailing blanks off two texts in a row. -/
theorem trimEnd_append (a b : List Char) :
    trimEnd (a ++ b) = if (trimEnd b).isEmpty then trimEnd a else a ++ trimEnd b := by
  unfold trimEnd
  rw [List.reverse_append, List.dropWhile_append, List.isEmpty_reverse]
  split
  · rfl
  · rw [List.reverse_append, List.reverse_reverse]

/-- A text that begins with a character that is not blank. -/
theorem trimStart_cons {c : Char} (text : List Char) (first : isBlank c = false) :
    trimStart (c :: text) = c :: text := by
  unfold trimStart
  rw [List.dropWhile_cons_of_neg (by simp [first])]

/-- A text that ends with a character that is not blank. -/
theorem trimEnd_concat {c : Char} (text : List Char) (last : isBlank c = false) :
    trimEnd (text ++ [c]) = text ++ [c] := by
  unfold trimEnd
  rw [List.reverse_concat, List.dropWhile_cons_of_neg (by simp [last]), List.reverse_cons,
    List.reverse_reverse]

/-- A trimmed text has no trailing blanks to take off. -/
theorem trimEnd_trim (text : List Char) : trimEnd (trim text) = trim text := by
  have again (l : List Char) : (l.dropWhile isBlank).dropWhile isBlank = l.dropWhile isBlank := by
    induction l with
    | nil => rfl
    | cons c l ih =>
      rw [List.dropWhile_cons]
      split
      · exact ih
      · rename_i notBlank
        rw [List.dropWhile_cons_of_neg notBlank]
  unfold trim trimEnd
  rw [List.reverse_reverse, again]

/-- A trimmed text has no leading blanks to take off. -/
theorem trimStart_trim (text : List Char) : trimStart (trim text) = trim text := by
  cases left : trimStart text with
  | nil =>
    rw [trim, left]
    rfl
  | cons c rest =>
    have notBlank : isBlank c = false := by
      have head := List.head?_dropWhile_not isBlank text
      rw [show text.dropWhile isBlank = c :: rest from left] at head
      exact head
    have begins : ∃ rest', trim text = c :: rest' := by
      rw [trim, left, ← List.singleton_append, trimEnd_append]
      split
      · exact ⟨[], trimEnd_concat [] notBlank⟩
      · exact ⟨_, rfl⟩
    obtain ⟨rest', begins⟩ := begins
    rw [begins]
    exact trimStart_cons _ notBlank

/-- A trimmed text stays whole when what is before it is trimmed, too. -/
theorem trim_append_trim (lead text : List Char) :
    trim (lead ++ trim text) = (if trim text = [] then trim lead else trimStart lead) ++ trim text := by
  split
  · rename_i empty
    rw [empty, List.append_nil, List.append_nil]
  · rename_i some
    have front : trimStart (lead ++ trim text) = trimStart lead ++ trim text := by
      rw [trimStart_append]
      split
      · rename_i blank
        rw [trimStart_trim, List.isEmpty_iff.mp blank, List.nil_append]
      · rfl
    rw [trim, front, trimEnd_append, trimEnd_trim, if_neg (by simpa using some)]

/-- A text that does not begin with a blank stays whole when what is before it is trimmed. -/
theorem infix_trimStart {piece text : List Char} (whole : trimStart piece = piece)
    (inside : piece <:+: text) : piece <:+: trimStart text := by
  obtain ⟨before, after, rfl⟩ := inside
  rw [List.append_assoc, trimStart_append]
  split
  · rw [trimStart_append, whole]
    split
    · rename_i empty
      rw [List.isEmpty_iff.mp empty]
      exact List.nil_infix
    · exact ⟨[], after, rfl⟩
  · exact ⟨trimStart before, after, List.append_assoc _ _ _⟩

/-- A text that does not end with a blank stays whole when what is after it is trimmed. -/
theorem infix_trimEnd {piece text : List Char} (whole : trimEnd piece = piece)
    (inside : piece <:+: text) : piece <:+: trimEnd text := by
  obtain ⟨before, after, rfl⟩ := inside
  rw [trimEnd_append]
  split
  · rw [trimEnd_append, whole]
    split
    · rename_i empty
      rw [List.isEmpty_iff.mp empty]
      exact List.nil_infix
    · exact ⟨before, [], List.append_nil _⟩
  · exact ⟨before, trimEnd after, rfl⟩

/-- A piece that neither begins nor ends with a blank stays whole. -/
theorem infix_trim {piece text : List Char} (start : trimStart piece = piece)
    (stop : trimEnd piece = piece) (inside : piece <:+: text) : piece <:+: trim text :=
  infix_trimEnd stop (infix_trimStart start inside)

/-- The first of the texts that are joined begins the result. -/
theorem prefix_intercalate (separator line : List Char) (lines : List (List Char)) :
    line <+: separator.intercalate (line :: lines) := by
  cases lines with
  | nil => exact ⟨[], by rw [List.append_nil, List.intercalate_singleton]⟩
  | cons next lines =>
    rw [List.intercalate_cons_cons, List.append_assoc]
    exact List.prefix_append _ _

/-- Each of the texts that are joined stands in the result. -/
theorem infix_intercalate {separator line : List Char} {lines : List (List Char)}
    (mem : line ∈ lines) : line <:+: separator.intercalate lines := by
  induction lines with
  | nil => contradiction
  | cons first others ih =>
    cases others with
    | nil =>
      rw [List.mem_singleton] at mem
      exact ⟨[], [], by rw [List.nil_append, List.append_nil, mem, List.intercalate_singleton]⟩
    | cons second others =>
      rw [List.intercalate_cons_cons]
      rcases List.mem_cons.mp mem with rfl | mem
      · exact ⟨[], separator ++ separator.intercalate (second :: others), by simp⟩
      · exact (ih mem).trans (List.suffix_append _ _).isInfix

/-- Each of the lines that are joined after a line feed is a line of the result. -/
theorem exists_line {line : List Char} {lines : List (List Char)} (mem : line ∈ lines) :
    ∃ front back, '\n' :: ['\n'].intercalate lines = front ++ '\n' :: (line ++ back) ∧
      (back = [] ∨ ['\n'] <+: back) := by
  induction lines with
  | nil => contradiction
  | cons first others ih =>
    cases others with
    | nil =>
      rw [List.mem_singleton] at mem
      exact ⟨[], [], by rw [mem, List.intercalate_singleton, List.append_nil, List.nil_append],
        .inl rfl⟩
    | cons second others =>
      rw [List.intercalate_cons_cons, List.append_assoc]
      rcases List.mem_cons.mp mem with rfl | mem
      · exact ⟨[], _, rfl, .inr (List.prefix_append _ _)⟩
      · obtain ⟨front, back, same, ends⟩ := ih mem
        refine ⟨'\n' :: first ++ front, back, ?_, ends⟩
        rw [List.singleton_append, same]
        simp

/-- A text is what is left of another one when the blanks at its two ends are taken off: only blanks are
gone, and it neither begins nor ends with one. -/
structure Trims (text rest : List Char) : Prop where
  cut : ∃ front back, text = front ++ rest ++ back ∧ ∀ c ∈ front ++ back, isBlank c = true
  first : ∀ c ∈ rest.head?, isBlank c = false
  last : ∀ c ∈ rest.getLast?, isBlank c = false

/-- A text without leading blanks begins with a character that is not blank. -/
theorem head?_trimStart {text : List Char} {c : Char} (mem : c ∈ (trimStart text).head?) :
    isBlank c = false := by
  have head := List.head?_dropWhile_not isBlank text
  rw [show (text.dropWhile isBlank).head? = some c from mem] at head
  exact head

/-- A text without trailing blanks ends with a character that is not blank. -/
theorem getLast?_trimEnd {text : List Char} {c : Char} (mem : c ∈ (trimEnd text).getLast?) :
    isBlank c = false := by
  rw [trimEnd, List.getLast?_reverse] at mem
  exact head?_trimStart mem

/-- **Trimming takes off the blanks at the two ends.** -/
theorem trims_trim (text : List Char) : Trims text (trim text) where
  cut := by
    refine ⟨text.takeWhile isBlank, ((trimStart text).reverse.takeWhile isBlank).reverse, ?_, ?_⟩
    · have back : trimStart text =
          trim text ++ ((trimStart text).reverse.takeWhile isBlank).reverse := by
        rw [trim, trimEnd, ← List.reverse_append, List.takeWhile_append_dropWhile,
          List.reverse_reverse]
      rw [List.append_assoc, ← back]
      exact List.takeWhile_append_dropWhile.symm
    · intro c mem
      rcases List.mem_append.mp mem with front | back
      · exact List.mem_takeWhile_imp front
      · exact List.mem_takeWhile_imp (List.mem_reverse.mp back)
  first := by
    intro c mem
    rw [← trimStart_trim] at mem
    exact head?_trimStart mem
  last := fun _ mem => getLast?_trimEnd mem

end ModuleInterop.Text
