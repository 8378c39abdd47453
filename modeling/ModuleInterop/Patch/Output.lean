import ModuleInterop.Text.Blank
import ModuleInterop.Patch.Edit

/-!
# Edited text

The result of applying edits: a list of chunks, each either copied from the source or new.  A chunk
knows where in the source it comes from, so a source map can be read off the result, also after it
has been trimmed and has had text put before and after it.

Edits apply when no two of them claim the same text (`apply`); an insertion may touch a replaced
stretch but not lie inside it.
-/

set_option autoImplicit false

namespace ModuleInterop.Patch

open ModuleInterop.Text

/-- A piece of edited text. -/
structure Chunk where
  text : List Char
  /-- The position in the source where what the piece stands for begins. -/
  origin : Option Nat
  /-- Whether the piece is taken from the source unchanged. -/
  copied : Bool
  deriving DecidableEq, Repr

namespace Chunk

/-- A piece that stands for nothing in the source. -/
def added (text : List Char) : Chunk := ⟨text, none, false⟩

/-- The piece that an edit puts in; an insertion stands for nothing in the source, and an empty
content is no piece. -/
def ofEdit (edit : Edit) : List Chunk :=
  if edit.content.isEmpty then []
  else [⟨edit.content, if edit.start < edit.stop then some edit.start else none, false⟩]

/-- A piece without its leading blanks.  A copied piece then begins further on in the source. -/
def trimStart (chunk : Chunk) : Chunk :=
  let removed := byteLength (chunk.text.takeWhile isBlank)
  { chunk with
    text := Text.trimStart chunk.text
    origin := if chunk.copied then chunk.origin.map (· + removed) else chunk.origin }

/-- A piece without its trailing blanks. -/
def trimEnd (chunk : Chunk) : Chunk := { chunk with text := Text.trimEnd chunk.text }

end Chunk

/-- An edited text and the source it comes from. -/
structure Output where
  source : List Char
  chunks : List Chunk
  deriving DecidableEq, Repr

/-- The piece of the source between two positions. -/
def copy (source : List Char) (start stop : Nat) : Except Problem Chunk :=
  match slice? start stop source with
  | some text => .ok ⟨text, some start, true⟩
  | none => .error (.outside start stop)

/-- The piece of the source between two positions, or nothing if the first is not before the
second. -/
def copyGap (source : List Char) (start stop : Nat) : Except Problem (List Chunk) :=
  if start < stop then (copy source start stop).map ([·]) else .ok []

/-- The chunks that ordered edits give from the end of the last edit on. -/
def chunksAfter (source : List Char) : Nat × Nat → List Edit → Except Problem (List Chunk)
  | last, [] => copyGap source last.2 (byteLength source)
  | last, edit :: edits =>
    if edit.start < last.2 then .error (.overlap last edit.range)
    else do
      let gap ← copyGap source last.2 edit.start
      let rest ← chunksAfter source edit.range edits
      return gap ++ Chunk.ofEdit edit ++ rest

/-- Applies edits to a text.  Edits with the same range apply in the order they were recorded in. -/
def apply (source : List Char) (edits : List Edit) : Except Problem Output :=
  (chunksAfter source (0, 0) (edits.mergeSort Edit.precedes)).map (⟨source, ·⟩)

/-- Trims chunks from the first one on until a text is left; chunks that have none go. -/
def trimWhile (trimChunk : Chunk → Chunk) : List Chunk → List Chunk
  | [] => []
  | chunk :: chunks =>
    let trimmed := trimChunk chunk
    if trimmed.text.isEmpty then trimWhile trimChunk chunks else trimmed :: chunks

namespace Output

/-- The text itself. -/
def code (output : Output) : List Char := output.chunks.flatMap Chunk.text

/-- Takes the blanks off both ends of the text. -/
def trim (output : Output) : Output :=
  let front := trimWhile Chunk.trimStart output.chunks
  let back := (trimWhile Chunk.trimEnd front.reverse).reverse
  { output with chunks := back.filter fun chunk => !chunk.text.isEmpty }

/-- Puts new text before the text. -/
def prepend (output : Output) (text : List Char) : Output :=
  { output with chunks := Chunk.added text :: output.chunks }

/-- Puts new text after the text. -/
def append (output : Output) (text : List Char) : Output :=
  { output with chunks := output.chunks ++ [Chunk.added text] }

end Output

end ModuleInterop.Patch
