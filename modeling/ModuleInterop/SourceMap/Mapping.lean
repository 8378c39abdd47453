import ModuleInterop.Text.Quoted
import ModuleInterop.Patch.Output
import ModuleInterop.SourceMap.Vlq

/-!
# Source maps

A source map tells for places of an edited text where in the source they come from.  It holds the
segments of each line: a column of the edited text, and a line and column of the source.  A segment
begins where a chunk of known origin begins, and at each new line inside a copied chunk.

In the written form (version 3) the lines are separated by `;` and the segments of a line by `,`;
each number is the difference to the one before it, the columns of the edited text counted anew on
each line.
-/

set_option autoImplicit false

namespace ModuleInterop.SourceMap

open ModuleInterop.Text ModuleInterop.Patch

/-- A column of the edited text, and the line and column of the source it comes from. -/
structure Segment where
  column : Nat
  sourceLine : Nat
  sourceColumn : Nat
  deriving DecidableEq, Repr

/-- What the segments of a text are read off from: a segment, or the end of a line. -/
inductive Mark where
  | segment (segment : Segment)
  | lineEnd
  deriving DecidableEq, Repr

/-- The segment at a column for a position of the source. -/
def segmentAt (source : List Char) (column position : Nat) : Except Patch.Problem Mark :=
  match locate? source position with
  | some (line, sourceColumn) => .ok (.segment ⟨column, line, sourceColumn⟩)
  | none => .error (.outside position position)

/-- The marks inside a text that begins at a column, and the column after it; `position` is where
the text comes from if it is copied. -/
def textMarks (source : List Char) :
    Option Nat → Nat → List Char → Except Patch.Problem (List Mark × Nat)
  | _, column, [] => .ok ([], column)
  | position, column, c :: text =>
    let next := position.map (· + c.utf8Size)
    if c = '\n' then do
      let begun ← match next with
        | some p => if text.isEmpty then .ok [] else (segmentAt source 0 p).map ([·])
        | none => .ok []
      let (marks, column) ← textMarks source next 0 text
      return (.lineEnd :: begun ++ marks, column)
    else textMarks source next (column + units16 c) text

/-- The marks of chunks that begin at a column. -/
def chunkMarks (source : List Char) : Nat → List Chunk → Except Patch.Problem (List Mark)
  | _, [] => .ok []
  | column, chunk :: chunks => do
    let begun ← match chunk.origin with
      | some p => (segmentAt source column p).map ([·])
      | none => .ok []
    let (marks, column) ←
      textMarks source (if chunk.copied then chunk.origin else none) column chunk.text
    return begun ++ marks ++ (← chunkMarks source column chunks)

/-- The segments of each line. -/
def linesOfMarks : List Mark → List (List Segment)
  | [] => [[]]
  | .lineEnd :: marks => [] :: linesOfMarks marks
  | .segment s :: marks =>
    match linesOfMarks marks with
    | [] => [[s]]
    | line :: lines => (s :: line) :: lines

/-- The segments of each line of an edited text. -/
def segments (output : Output) : Except Patch.Problem (List (List Segment)) :=
  (chunkMarks output.source 0 output.chunks).map linesOfMarks

/-- The text of a segment after another one of the same line. -/
def encodeSegment (last next : Segment) : List Char :=
  vlq ((next.column : Int) - last.column) ++ vlq 0 ++
    vlq ((next.sourceLine : Int) - last.sourceLine) ++
    vlq ((next.sourceColumn : Int) - last.sourceColumn)

/-- The texts of the segments of a line after some segment, and the segment after which the next
line goes on. -/
def encodeLine : Segment → List Segment → List (List Char) × Segment
  | last, [] => ([], last)
  | last, s :: line =>
    let (texts, final) := encodeLine s line
    (encodeSegment last s :: texts, final)

/-- The texts of lines after some segment. -/
def encodeLines : Segment → List (List Segment) → List (List Char)
  | _, [] => []
  | last, line :: lines =>
    let (texts, final) := encodeLine { last with column := 0 } line
    [','].intercalate texts :: encodeLines final lines

/-- The written form of the segments of all lines. -/
def encode (lines : List (List Segment)) : List Char :=
  [';'].intercalate (encodeLines ⟨0, 0, 0⟩ lines)

end SourceMap

open ModuleInterop.Text

/-- A source map of version 3 with one source. -/
structure SourceMap where
  /-- The name of the source. -/
  name : String
  /-- The text of the source. -/
  content : String
  mappings : String
  deriving DecidableEq, Repr

/-- The source map of an edited text whose source has a name. -/
def SourceMap.ofOutput (output : Patch.Output) (name : String) : Except Patch.Problem SourceMap :=
  (segments output).map fun lines =>
    ⟨name, String.ofList output.source, String.ofList (encode lines)⟩

/-- The written form of a source map. -/
def SourceMap.toJson (map : SourceMap) : String :=
  "\x7b\"version\":3,\"sources\":[" ++ quote map.name ++ "],\"sourcesContent\":[" ++
    quote map.content ++ "],\"names\":[],\"mappings\":" ++ quote map.mappings ++ "\x7d"

end ModuleInterop
