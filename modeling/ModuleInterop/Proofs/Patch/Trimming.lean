import ModuleInterop.Proofs.Patch.Change
import ModuleInterop.Proofs.Patch.Output

/-!
# Trimming an output

An output is trimmed chunk by chunk, and the blanks at its ends may reach over any number of chunks.  It
does not show: the text of the trimmed output is the trimmed text, and a chunk that lost blanks in front
still says where in the source its text stands (`trim_regardless_of_chunks`).
-/

set_option autoImplicit false

namespace ModuleInterop.Patch

open ModuleInterop.Text

variable {source : List Char} {edits : List Edit}

/-- A trimmed output has no piece without text. -/
theorem Output.text_ne_nil_of_trim {output : Output} {chunk : Chunk}
    (mem : chunk ∈ output.trim.chunks) : chunk.text ≠ [] := by
  have kept := (List.mem_filter.mp mem).2
  simpa using kept

/-- A copied piece of a sound output is what stands in the source from its origin on. -/
theorem Output.Sound.slice?_of_copied {output : Output} (h : output.Sound) {chunk : Chunk}
    (mem : chunk ∈ output.chunks) (copied : chunk.copied = true) :
    ∃ p ∈ chunk.origin, slice? p (p + byteLength chunk.text) output.source = some chunk.text := by
  obtain ⟨a, b, whole, origin⟩ := (h.sound chunk mem).taken copied
  refine ⟨byteLength a, origin, ?_⟩
  rw [whole]
  exact slice?_append a chunk.text b

/-- **Trimming does not depend on how a text is cut into chunks.**  After edits that fit and are apart, and
after any changes, each chunk that counts as copied is what stands in the source from its origin on, and to
trim the output is to trim its text, which leaves no chunk without text. -/
theorem trim_regardless_of_chunks (fits : ∀ e ∈ edits, e.Fits source)
    (apart : edits.Pairwise Edit.Apart) :
    ∃ output, apply source edits = .ok output ∧
      ∀ (changes : List Change) (now : Output), changes.foldl Output.change output = now →
        (∀ chunk ∈ now.chunks, chunk.copied = true →
          ∃ p ∈ chunk.origin, slice? p (p + byteLength chunk.text) source = some chunk.text) ∧
        now.trim.code = trim now.code ∧ Trims now.code now.trim.code ∧
        ∀ chunk ∈ now.trim.chunks, chunk.text ≠ [] := by
  obtain ⟨output, applied, same, -⟩ := apply_of_apart fits apart
  refine ⟨output, applied, ?_⟩
  rintro changes now rfl
  have sound := (sound_of_apply fits applied).foldl changes
  have source' := (source_foldl output changes).trans same
  have code := (changes.foldl Output.change output).code_trim
  refine ⟨?_, code, ?_, fun chunk mem => Output.text_ne_nil_of_trim mem⟩
  · intro chunk mem copied
    rw [← source']
    exact sound.slice?_of_copied mem copied
  · rw [code]
    exact trims_trim _

/-- An insertion of blanks in front, and a word that is taken out behind blanks. -/
def blankEdits : List Edit := [⟨0, 0, ['\n']⟩, ⟨2, 3, []⟩]

/-- Three chunks are blank or begin with blanks, and one character is left of them. -/
theorem spread_blanks_trimmed :
    (∀ e ∈ blankEdits, e.Fits [' ', ' ', 'x', ' ', 'y', ' ']) ∧
      blankEdits.Pairwise Edit.Apart ∧
      ∃ output, apply [' ', ' ', 'x', ' ', 'y', ' '] blankEdits = .ok output ∧
        output.trim.code = ['y'] ∧
        ∀ chunk ∈ output.trim.chunks, chunk.text ≠ [] := by
  have fits : ∀ e ∈ blankEdits, e.Fits [' ', ' ', 'x', ' ', 'y', ' '] := by decide
  have apart : blankEdits.Pairwise Edit.Apart := by decide
  obtain ⟨output, applied, always⟩ := trim_regardless_of_chunks fits apart
  obtain ⟨-, code, -, full⟩ := always [] output rfl
  obtain ⟨succeeds, reads, -⟩ := apply_iff_apart fits
  have text : output.code = ['\n', ' ', ' ', ' ', 'y', ' '] := (reads output applied).trans (by decide)
  rw [text] at code
  exact ⟨fits, apart, output, applied, code.trans (by decide), full⟩

end ModuleInterop.Patch
