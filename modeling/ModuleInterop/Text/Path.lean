/-!
# Names of files

A module id read as a path: its components are separated by `/`, and empty ones and `.` do not
count.  The last component is the name of the file, unless it is `..`; the part of a name after its
last dot is the extension, unless the dot comes first.
-/

set_option autoImplicit false

namespace ModuleInterop.Text

/-- The pieces of a text between separators. -/
def splitOnChar (separator : Char) : List Char → List (List Char)
  | [] => [[]]
  | c :: text =>
    match splitOnChar separator text with
    | [] => [[c]]
    | piece :: pieces => if c = separator then [] :: piece :: pieces else (c :: piece) :: pieces

/-- The components of a path. -/
def pathComponents (path : List Char) : List (List Char) :=
  (splitOnChar '/' path).filter fun piece => !piece.isEmpty && piece != ['.']

/-- The last of some components, unless it leads back to the directory above. -/
def lastName? (components : List (List Char)) : Option (List Char) :=
  components.getLast?.filter (· != ['.', '.'])

/-- The name of the file that a path leads to. -/
def fileName? (path : List Char) : Option (List Char) := lastName? (pathComponents path)

/-- The name of the directory that holds the file that a path leads to. -/
def directoryName? (path : List Char) : Option (List Char) :=
  lastName? (pathComponents path).dropLast

/-- A file's name without its extension, and the extension. -/
def splitExtension (name : List Char) : List Char × Option (List Char) :=
  match name.reverse.dropWhile (· != '.') with
  | [] | [_] => (name, none)
  | _ :: stem => (stem.reverse, some (name.reverse.takeWhile (· != '.')).reverse)

/-- The name, without its extension, of the file that a path leads to. -/
def fileStem? (path : List Char) : Option (List Char) :=
  (fileName? path).map fun name => (splitExtension name).1

/-- The extension, without its dot, of the file that a path leads to. -/
def fileExtension? (path : List Char) : Option (List Char) :=
  (fileName? path).bind fun name => (splitExtension name).2

/-- Stem, dot and extension together are the name. -/
theorem splitExtension_eq_some {name stem extension : List Char}
    (h : splitExtension name = (stem, some extension)) :
    name = stem ++ '.' :: extension := by
  unfold splitExtension at h
  split at h
  · simp at h
  · simp at h
  · rename_i dot before _ hdrop
    simp only [Prod.mk.injEq, Option.some.injEq] at h
    obtain ⟨rfl, rfl⟩ := h
    have hdot : dot = '.' := by
      have := List.head_dropWhile_not (· != '.') (l := name.reverse) (by simp [hdrop])
      simpa [hdrop] using this
    have hjoin := List.takeWhile_append_dropWhile (p := (· != '.')) (l := name.reverse)
    rw [hdrop, hdot] at hjoin
    have := congrArg List.reverse hjoin
    simpa using this.symm

end ModuleInterop.Text
