import ModuleInterop.Proofs.Patch.Application

/-!
# Going on with an edited text

After edits have been applied a text may be trimmed and have text put before and after it, in any
order (`Change`).  Two things are kept track of.

* Every chunk stays sound (`Chunk.Sound`): a copied one is the piece of the source that begins at its
  origin, every origin is a position of the source, and a chunk that has one has text.
* The characters change as they should (`glyphs_foldl`): what is left of a character, and where in the
  source it comes from, does not depend on how the text is cut into chunks.
-/

set_option autoImplicit false

namespace ModuleInterop.Patch

open ModuleInterop.Text

/-! ## Trimming characters -/

/-- Whether a character of an edited text is blank. -/
def Glyph.isBlank (glyph : Glyph) : Bool := Text.isBlank glyph.char

/-- The characters without the leading blank ones. -/
def trimFront (glyphs : List Glyph) : List Glyph := glyphs.dropWhile Glyph.isBlank

/-- The characters without the trailing blank ones. -/
def trimBack (glyphs : List Glyph) : List Glyph := (glyphs.reverse.dropWhile Glyph.isBlank).reverse

theorem trimFront_append (a b : List Glyph) :
    trimFront (a ++ b) = if (trimFront a).isEmpty then trimFront b else trimFront a ++ b :=
  List.dropWhile_append

theorem trimBack_append (a b : List Glyph) :
    trimBack (a ++ b) = if (trimBack b).isEmpty then trimBack a else a ++ trimBack b := by
  unfold trimBack
  rw [List.reverse_append, List.dropWhile_append, List.isEmpty_reverse]
  split
  · rfl
  · rw [List.reverse_append, List.reverse_reverse]

theorem trimFront_newText (text : List Char) :
    trimFront (newText text) = newText (trimStart text) := by
  rw [trimFront, newText, List.dropWhile_map]
  rfl

theorem trimBack_newText (text : List Char) : trimBack (newText text) = newText (trimEnd text) := by
  rw [trimBack, newText, ← List.map_reverse, List.dropWhile_map, ← List.map_reverse]
  rfl

theorem trimFront_copiedText (p : Nat) (text : List Char) :
    trimFront (copiedText p text) =
      copiedText (p + byteLength (text.takeWhile isBlank)) (trimStart text) := by
  induction text generalizing p with
  | nil => rfl
  | cons c text ih =>
    by_cases blank : isBlank c = true
    · have here : Glyph.isBlank ⟨c, some p⟩ = true := blank
      have rest := ih (p + c.utf8Size)
      unfold trimFront trimStart at rest ⊢
      simp [copiedText, here, blank, rest, byteLength, Nat.add_assoc]
    · have here : ¬ Glyph.isBlank ⟨c, some p⟩ = true := blank
      unfold trimFront trimStart
      simp [copiedText, here, blank, byteLength]

theorem trimBack_copiedText (p : Nat) (text : List Char) :
    trimBack (copiedText p text) = copiedText p (trimEnd text) := by
  induction text generalizing p with
  | nil => rfl
  | cons c text ih =>
    have split (g : Glyph) (gs : List Glyph) : g :: gs = [g] ++ gs := rfl
    have split' : c :: text = [c] ++ text := rfl
    rw [copiedText, split, trimBack_append, ih, split', trimEnd_append]
    have empty : (copiedText (p + c.utf8Size) (trimEnd text)).isEmpty = (trimEnd text).isEmpty := by
      cases trimEnd text <;> rfl
    rw [empty]
    by_cases rest : (trimEnd text).isEmpty = true
    · rw [if_pos rest, if_pos rest]
      by_cases blank : isBlank c = true
      · have here : Glyph.isBlank ⟨c, some p⟩ = true := blank
        simp [trimBack, trimEnd, here, blank, copiedText]
      · have here : ¬ Glyph.isBlank ⟨c, some p⟩ = true := blank
        simp [trimBack, trimEnd, here, blank, copiedText]
    · rw [if_neg rest, if_neg rest]
      rfl

/-! ## Trimming chunks -/

theorem Chunk.glyphs_trimStart (chunk : Chunk) : chunk.trimStart.glyphs = trimFront chunk.glyphs := by
  obtain ⟨text, origin, copied⟩ := chunk
  cases origin with
  | none => cases copied <;> simp [Chunk.trimStart, glyphs, trimFront_newText]
  | some p =>
    cases copied with
    | false => simp [Chunk.trimStart, glyphs, trimFront_newText]
    | true => simp [Chunk.trimStart, glyphs, trimFront_copiedText]

theorem Chunk.glyphs_trimEnd (chunk : Chunk) : chunk.trimEnd.glyphs = trimBack chunk.glyphs := by
  obtain ⟨text, origin, copied⟩ := chunk
  cases origin with
  | none => simp [Chunk.trimEnd, glyphs, trimBack_newText]
  | some p =>
    cases copied with
    | false => simp [Chunk.trimEnd, glyphs, trimBack_newText]
    | true => simp [Chunk.trimEnd, glyphs, trimBack_copiedText]

theorem Chunk.glyphs_eq_nil_iff (chunk : Chunk) : chunk.glyphs = [] ↔ chunk.text = [] := by
  rw [← List.map_eq_nil_iff (f := Glyph.char), chars_glyphs]

theorem Chunk.isEmpty_glyphs (chunk : Chunk) : chunk.glyphs.isEmpty = chunk.text.isEmpty := by
  rw [Bool.eq_iff_iff, List.isEmpty_iff, List.isEmpty_iff]
  exact chunk.glyphs_eq_nil_iff

theorem glyphs_trimWhile_trimStart (chunks : List Chunk) :
    (trimWhile Chunk.trimStart chunks).flatMap Chunk.glyphs =
      trimFront (chunks.flatMap Chunk.glyphs) := by
  induction chunks with
  | nil => rfl
  | cons chunk chunks ih =>
    rw [List.flatMap_cons, trimFront_append, ← Chunk.glyphs_trimStart, Chunk.isEmpty_glyphs]
    unfold trimWhile
    dsimp only
    split
    · exact ih
    · rw [List.flatMap_cons]

/-- The last chunk comes first. -/
theorem glyphs_trimWhile_trimEnd (chunks : List Chunk) :
    (trimWhile Chunk.trimEnd chunks).reverse.flatMap Chunk.glyphs =
      trimBack (chunks.reverse.flatMap Chunk.glyphs) := by
  induction chunks with
  | nil => rfl
  | cons chunk chunks ih =>
    rw [List.reverse_cons, List.flatMap_append, List.flatMap_singleton, trimBack_append,
      ← Chunk.glyphs_trimEnd, Chunk.isEmpty_glyphs]
    unfold trimWhile
    dsimp only
    split
    · exact ih
    · rw [List.reverse_cons, List.flatMap_append, List.flatMap_singleton]

theorem Output.glyphs_trim (output : Output) :
    output.trim.glyphs = trimBack (trimFront output.glyphs) := by
  unfold glyphs trim
  rw [flatMap_filter_nonempty fun chunk => chunk.glyphs_eq_nil_iff.mpr, glyphs_trimWhile_trimEnd,
    List.reverse_reverse, glyphs_trimWhile_trimStart]

/-! ## Sound chunks -/

/-- A chunk tells the truth about the source. -/
structure Chunk.Sound (source : List Char) (chunk : Chunk) : Prop where
  /-- An origin is a position of the source. -/
  begins : ∀ p ∈ chunk.origin, Boundary source p
  /-- A copied chunk is a piece of the source. -/
  taken : chunk.copied = true →
    ∃ a b, source = a ++ chunk.text ++ b ∧ chunk.origin = some (byteLength a)

/-- A chunk with an origin has text. -/
def Chunk.Shown (chunk : Chunk) : Prop := chunk.origin.isSome = true → chunk.text ≠ []

/-- All chunks of an output tell the truth about its source, and those with an origin have text. -/
structure Output.Sound (output : Output) : Prop where
  sound : ∀ chunk ∈ output.chunks, chunk.Sound output.source
  shown : ∀ chunk ∈ output.chunks, chunk.Shown

variable {source : List Char}

theorem Chunk.sound_added (text : List Char) : (Chunk.added text).Sound source :=
  ⟨by simp [added], by simp [added]⟩

theorem Chunk.shown_added (text : List Char) : (Chunk.added text).Shown := by simp [Shown, added]

theorem Chunk.Sound.trimStart {chunk : Chunk} (h : chunk.Sound source) :
    chunk.trimStart.Sound source := by
  obtain ⟨text, origin, copied⟩ := chunk
  cases copied with
  | false => exact ⟨h.begins, by simp [Chunk.trimStart]⟩
  | true =>
    obtain ⟨a, b, whole, origin⟩ := h.taken rfl
    dsimp only at whole origin
    subst origin
    have cut : text = text.takeWhile isBlank ++ Text.trimStart text :=
      List.takeWhile_append_dropWhile.symm
    have whole' : source = (a ++ text.takeWhile isBlank) ++ (Text.trimStart text ++ b) := by
      have moved := congrArg (fun t => a ++ t ++ b) cut
      simpa [List.append_assoc] using whole.trans moved
    have origin : (Chunk.trimStart ⟨text, some (byteLength a), true⟩).origin =
        some (byteLength (a ++ text.takeWhile isBlank)) := by
      simp [Chunk.trimStart]
    constructor
    · intro p mem
      rw [origin, Option.mem_some_iff] at mem
      rw [← mem, whole']
      exact boundary_append _ _
    · intro _
      refine ⟨a ++ text.takeWhile isBlank, b, ?_, origin⟩
      rw [List.append_assoc]
      exact whole'

theorem Chunk.Sound.trimEnd {chunk : Chunk} (h : chunk.Sound source) :
    chunk.trimEnd.Sound source := by
  obtain ⟨text, origin, copied⟩ := chunk
  refine ⟨h.begins, ?_⟩
  intro isCopied
  obtain ⟨a, b, whole, origin⟩ := h.taken isCopied
  have cut : text = Text.trimEnd text ++ (text.reverse.takeWhile isBlank).reverse := by
    rw [Text.trimEnd, ← List.reverse_append, List.takeWhile_append_dropWhile, List.reverse_reverse]
  refine ⟨a, (text.reverse.takeWhile isBlank).reverse ++ b, ?_, origin⟩
  have moved := congrArg (fun t => a ++ t ++ b) cut
  simpa [Chunk.trimEnd, List.append_assoc] using whole.trans moved

theorem sound_trimWhile {trimChunk : Chunk → Chunk} {chunks : List Chunk}
    (keeps : ∀ chunk : Chunk, chunk.Sound source → (trimChunk chunk).Sound source)
    (sound : ∀ chunk ∈ chunks, chunk.Sound source) :
    ∀ chunk ∈ trimWhile trimChunk chunks, chunk.Sound source := by
  induction chunks with
  | nil => simp [trimWhile]
  | cons chunk chunks ih =>
    have rest : ∀ chunk ∈ chunks, chunk.Sound source := fun c mem =>
      sound c (List.mem_cons_of_mem _ mem)
    unfold trimWhile
    dsimp only
    split
    · exact ih rest
    · intro c mem
      rcases List.mem_cons.mp mem with rfl | mem
      · exact keeps chunk (sound chunk List.mem_cons_self)
      · exact rest c mem

theorem Output.Sound.trim {output : Output} (h : output.Sound) : output.trim.Sound := by
  constructor
  · intro chunk mem
    refine sound_trimWhile (fun _ => Chunk.Sound.trimEnd) ?_ chunk
      (List.mem_reverse.mp (List.mem_filter.mp mem).1)
    intro chunk mem
    exact sound_trimWhile (fun _ => Chunk.Sound.trimStart) h.sound chunk (List.mem_reverse.mp mem)
  · intro chunk mem _
    have kept := (List.mem_filter.mp mem).2
    simpa using kept

theorem Output.Sound.prepend {output : Output} (h : output.Sound) (text : List Char) :
    (output.prepend text).Sound := by
  constructor
  · intro chunk mem
    rcases List.mem_cons.mp mem with rfl | mem
    · exact Chunk.sound_added text
    · exact h.sound chunk mem
  · intro chunk mem
    rcases List.mem_cons.mp mem with rfl | mem
    · exact Chunk.shown_added text
    · exact h.shown chunk mem

theorem Output.Sound.append {output : Output} (h : output.Sound) (text : List Char) :
    (output.append text).Sound := by
  constructor
  · intro chunk mem
    rcases List.mem_append.mp mem with mem | mem
    · exact h.sound chunk mem
    · rw [List.mem_singleton.mp mem]
      exact Chunk.sound_added text
  · intro chunk mem
    rcases List.mem_append.mp mem with mem | mem
    · exact h.shown chunk mem
    · rw [List.mem_singleton.mp mem]
      exact Chunk.shown_added text

/-- A copied character stands in the source where it says. -/
theorem Output.Sound.origin_mem {output : Output} (h : output.Sound) {glyph : Glyph} {p : Nat}
    (mem : glyph ∈ output.glyphs) (origin : glyph.origin = some p) :
    ∃ a b, output.source = a ++ glyph.char :: b ∧ byteLength a = p := by
  obtain ⟨chunk, among, mem⟩ := List.mem_flatMap.mp mem
  have fresh (text : List Char) (mem : glyph ∈ newText text) : False := by
    obtain ⟨c, -, rfl⟩ := List.mem_map.mp mem
    contradiction
  have inside (a text b : List Char) (whole : output.source = a ++ text ++ b)
      (mem : glyph ∈ copiedText (byteLength a) text) :
      ∃ a b, output.source = a ++ glyph.char :: b ∧ byteLength a = p := by
    induction text generalizing a with
    | nil => contradiction
    | cons c text ih =>
      rcases List.mem_cons.mp mem with rfl | mem
      · exact ⟨a, text ++ b, by simpa using whole, Option.some.inj origin⟩
      · apply ih (a ++ [c]) (by simpa using whole)
        simpa [byteLength] using mem
  unfold Chunk.glyphs at mem
  split at mem
  · rename_i q begins
    split at mem
    · rename_i isCopied
      obtain ⟨a, b, whole, same⟩ := (h.sound chunk among).taken isCopied
      rw [begins, Option.some.injEq] at same
      rw [same] at mem
      exact inside a chunk.text b whole mem
    · exact (fresh _ mem).elim
  · exact (fresh _ mem).elim

/-! ## Applied edits are sound -/

theorem copyGap_sound {start stop : Nat} {chunks : List Chunk}
    (copies : copyGap source start stop = .ok chunks) :
    ∀ chunk ∈ chunks, chunk.Sound source ∧ chunk.Shown := by
  unfold copyGap at copies
  split at copies
  · rename_i proper
    unfold copy at copies
    split at copies
    · rename_i text cut
      obtain rfl := Except.ok.inj copies
      unfold slice? at cut
      rw [if_pos (Nat.le_of_lt proper)] at cut
      obtain ⟨⟨a, rest⟩, cutA, cut⟩ := Option.bind_eq_some_iff.mp cut
      obtain ⟨⟨piece, b⟩, cutB, cut⟩ := Option.bind_eq_some_iff.mp cut
      obtain rfl := Option.some.inj cut
      obtain ⟨rfl, lenA⟩ := splitAt?_eq_some cutA
      obtain ⟨rfl, lenB⟩ := splitAt?_eq_some cutB
      intro chunk mem
      rw [List.mem_singleton.mp mem]
      refine ⟨⟨?_, ?_⟩, ?_⟩
      · intro p origin
        obtain rfl := Option.some.inj origin
        exact ⟨a, piece ++ b, rfl, lenA⟩
      · intro _
        exact ⟨a, b, by simp, by rw [lenA]⟩
      · rintro - rfl
        simp only [byteLength] at lenB
        omega
    · contradiction
  · obtain rfl := Except.ok.inj copies
    simp

theorem Chunk.ofEdit_sound {edit : Edit} (start : Boundary source edit.start) :
    ∀ chunk ∈ Chunk.ofEdit edit, chunk.Sound source ∧ chunk.Shown := by
  unfold ofEdit
  split
  · simp
  · rename_i nonempty
    intro chunk mem
    rw [List.mem_singleton.mp mem]
    refine ⟨⟨?_, by simp⟩, ?_⟩
    · intro p origin
      simp only [Option.mem_def, Option.ite_none_right_eq_some] at origin
      rw [← Option.some.inj origin.2]
      exact start
    · intro _
      simpa using nonempty

theorem chunksAfter_sound {last : Nat × Nat} {edits : List Edit} {chunks : List Chunk}
    (fits : ∀ e ∈ edits, e.Fits source) (walked : chunksAfter source last edits = .ok chunks) :
    ∀ chunk ∈ chunks, chunk.Sound source ∧ chunk.Shown := by
  induction edits generalizing last chunks with
  | nil => exact copyGap_sound walked
  | cons edit edits ih =>
    rw [chunksAfter] at walked
    split at walked
    · contradiction
    · cases copies : copyGap source last.2 edit.start with
      | error problem =>
        rw [copies] at walked
        contradiction
      | ok gap =>
        rw [copies] at walked
        cases rest : chunksAfter source edit.range edits with
        | error problem =>
          rw [rest] at walked
          contradiction
        | ok later =>
          rw [rest] at walked
          obtain rfl := Except.ok.inj walked
          intro chunk mem
          rcases List.mem_append.mp mem with mem | mem
          · rcases List.mem_append.mp mem with mem | mem
            · exact copyGap_sound copies chunk mem
            · exact Chunk.ofEdit_sound (fits edit List.mem_cons_self).start chunk mem
          · exact ih (fun e mem => fits e (List.mem_cons_of_mem _ mem)) rest chunk mem

/-- An output that edits give is sound. -/
theorem sound_of_apply {edits : List Edit} {output : Output} (fits : ∀ e ∈ edits, e.Fits source)
    (applied : apply source edits = .ok output) : output.Sound := by
  have perm := List.mergeSort_perm edits Edit.precedes
  unfold apply at applied
  cases walked : chunksAfter source (0, 0) (edits.mergeSort Edit.precedes) with
  | error problem =>
    rw [walked] at applied
    contradiction
  | ok chunks =>
    rw [walked] at applied
    obtain rfl := Except.ok.inj applied
    have all := chunksAfter_sound (fun e mem => fits e (perm.mem_iff.mp mem)) walked
    exact ⟨fun chunk mem => (all chunk mem).1, fun chunk mem => (all chunk mem).2⟩

/-! ## Changes -/

/-- A way to go on with an edited text. -/
inductive Change where
  | trim
  | prepend (text : List Char)
  | append (text : List Char)

/-- What a change makes of an output. -/
def Output.change (output : Output) : Change → Output
  | .trim => output.trim
  | .prepend text => output.prepend text
  | .append text => output.append text

/-- What a change makes of characters. -/
def changeGlyphs (glyphs : List Glyph) : Change → List Glyph
  | .trim => trimBack (trimFront glyphs)
  | .prepend text => newText text ++ glyphs
  | .append text => glyphs ++ newText text

theorem Output.glyphs_change (output : Output) (change : Change) :
    (output.change change).glyphs = changeGlyphs output.glyphs change := by
  cases change with
  | trim => exact output.glyphs_trim
  | prepend text => rfl
  | append text =>
    simp only [change, changeGlyphs, append, glyphs, List.flatMap_append, List.flatMap_singleton]
    rfl

/-- **Changes act on characters alone.** -/
theorem glyphs_foldl (output : Output) (changes : List Change) :
    (changes.foldl Output.change output).glyphs = changes.foldl changeGlyphs output.glyphs := by
  induction changes generalizing output with
  | nil => rfl
  | cons change changes ih => rw [List.foldl_cons, List.foldl_cons, ih, Output.glyphs_change]

theorem source_foldl (output : Output) (changes : List Change) :
    (changes.foldl Output.change output).source = output.source := by
  induction changes generalizing output with
  | nil => rfl
  | cons change changes ih =>
    rw [List.foldl_cons, ih]
    cases change <;> rfl

/-- **Changes keep an output sound.** -/
theorem Output.Sound.foldl {output : Output} (h : output.Sound) (changes : List Change) :
    (changes.foldl Output.change output).Sound := by
  induction changes generalizing output with
  | nil => exact h
  | cons change changes ih =>
    apply ih
    cases change with
    | trim => exact h.trim
    | prepend text => exact h.prepend text
    | append text => exact h.append text

end ModuleInterop.Patch
