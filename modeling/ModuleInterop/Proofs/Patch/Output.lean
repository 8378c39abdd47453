import ModuleInterop.Patch.Output
import ModuleInterop.Proofs.Text.Trim

/-!
# The text of an edited source

What trimming, prepending and appending do to the text of an output, chunk structure left aside: each
is the operation of the same name on the text.
-/

set_option autoImplicit false

namespace ModuleInterop.Patch

open ModuleInterop.Text

/-- The text of chunks without its leading blanks. -/
theorem text_trimWhile_trimStart (chunks : List Chunk) :
    (trimWhile Chunk.trimStart chunks).flatMap Chunk.text =
      Text.trimStart (chunks.flatMap Chunk.text) := by
  induction chunks with
  | nil => rfl
  | cons chunk chunks ih =>
    rw [List.flatMap_cons, trimStart_append]
    unfold trimWhile
    show (if (Text.trimStart chunk.text).isEmpty then _ else _ : List Chunk).flatMap _ = _
    split
    · exact ih
    · rfl

/-- The text of chunks without its trailing blanks; the last chunk comes first. -/
theorem text_trimWhile_trimEnd (chunks : List Chunk) :
    (trimWhile Chunk.trimEnd chunks).reverse.flatMap Chunk.text =
      Text.trimEnd (chunks.reverse.flatMap Chunk.text) := by
  induction chunks with
  | nil => rfl
  | cons chunk chunks ih =>
    rw [List.reverse_cons, List.flatMap_append, List.flatMap_singleton, trimEnd_append]
    unfold trimWhile
    show (if (Text.trimEnd chunk.text).isEmpty then _ else _ : List Chunk).reverse.flatMap _ = _
    split
    · exact ih
    · rw [List.reverse_cons, List.flatMap_append, List.flatMap_singleton]
      rfl

/-- Chunks without text do not count. -/
theorem flatMap_filter_nonempty {α : Type} {f : Chunk → List α}
    (nothing : ∀ chunk, chunk.text = [] → f chunk = []) (chunks : List Chunk) :
    (chunks.filter fun chunk => !chunk.text.isEmpty).flatMap f = chunks.flatMap f := by
  induction chunks with
  | nil => rfl
  | cons chunk chunks ih =>
    rw [List.filter_cons, List.flatMap_cons]
    split
    · rw [List.flatMap_cons, ih]
    · rename_i empty
      rw [ih, nothing chunk (by simpa using empty), List.nil_append]

namespace Output

variable (output : Output)

/-- The text of a trimmed output. -/
theorem code_trim : output.trim.code = Text.trim output.code := by
  unfold code trim Text.trim
  rw [flatMap_filter_nonempty fun _ empty => empty, text_trimWhile_trimEnd, List.reverse_reverse,
    text_trimWhile_trimStart]

/-- The text of an output that text has been put before. -/
theorem code_prepend (text : List Char) : (output.prepend text).code = text ++ output.code := rfl

/-- The text of an output that text has been put after. -/
theorem code_append (text : List Char) : (output.append text).code = output.code ++ text := by
  unfold code append
  rw [List.flatMap_append, List.flatMap_singleton]
  rfl

end Output

end ModuleInterop.Patch
