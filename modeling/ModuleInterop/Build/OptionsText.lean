import ModuleInterop.Build.Options
import ModuleInterop.Json.Reader

/-!
# Options as text

Options are written as a JSON object with a field for each choice; fields that are absent have their
default value, and fields with other names are passed over.  A list of values stands for the fields
in the order of `Field.all`.
-/

set_option autoImplicit false

namespace ModuleInterop.Build

open ModuleInterop.Json

/-- The fields of written options. -/
inductive Field where
  | extensions | «include» | exclude | ignoreGlobal | sourceMap | namedExports | ignore
  | allowDynamicRequire | external
  deriving DecidableEq, Repr

namespace Field

/-- The fields in order. -/
def all : List Field := [
  .extensions, .«include», .exclude, .ignoreGlobal, .sourceMap, .namedExports, .ignore,
  .allowDynamicRequire, .external]

/-- The name of a field. -/
def name : Field → String
  | .extensions => "extensions"
  | .«include» => "include"
  | .exclude => "exclude"
  | .ignoreGlobal => "ignoreGlobal"
  | .sourceMap => "sourceMap"
  | .namedExports => "namedExports"
  | .ignore => "ignore"
  | .allowDynamicRequire => "allowDynamicRequire"
  | .external => "external"

/-- The field with a name. -/
def ofName? (text : String) : Option Field := all.find? fun field => field.name == text

/-- Reads the value of a field. -/
def readValue (field : Field) (options : Options) : Reader Options :=
  let texts := Reader.list Reader.string
  match field with
  | .extensions => return { options with extensions := ← texts }
  | .«include» => return { options with «include» := ← texts }
  | .exclude => return { options with exclude := ← texts }
  | .ignoreGlobal => return { options with ignoreGlobal := ← Reader.boolean }
  | .sourceMap => return { options with sourceMap := ← Reader.boolean }
  | .namedExports => return { options with namedExports := ← Reader.map texts }
  | .ignore => return { options with ignore := ← texts }
  | .allowDynamicRequire => return { options with allowDynamicRequire := ← Reader.boolean }
  | .external => return { options with external := ← texts }

end Field

namespace Options

/-- Reports that a field is given twice, after what can end the object there. -/
def duplicateField {α : Type} (field : Field) : Reader α := do
  match ← Reader.skipSpace with
  | some '\x7d' =>
    Reader.bump
    Reader.failHere (.duplicateField field.name)
  | _ => Reader.failHere (.duplicateField field.name)

/-- Reads a field after its name, with the fields that have been read before. -/
def readEntry (key : String) (state : List Field × Options) : Reader (List Field × Options) := do
  match Field.ofName? key with
  | some field =>
    if state.1.contains field then duplicateField field
    else
      Reader.colon
      return (field :: state.1, ← field.readValue state.2)
  | none =>
    Reader.colon
    Reader.skip
    return state

/-- Reads fields in order as the elements of a list. -/
def readInOrder : List Field → Bool → Options → Reader Options
  | [], _, options => return options
  | field :: fields, first, options => do
    if ← Reader.hasElement first then
      let next ← field.readValue options
      readInOrder fields false next
    else return options

/-- Reads options. -/
def reader : Reader Options := do
  match ← Reader.toValue with
  | some '[' =>
    Reader.bump
    let options ← readInOrder Field.all true Options.default
    Reader.listEnd
    return options
  | some '\x7b' => return (← Reader.objectRest readEntry ([], Options.default)).2
  | _ => Reader.wrongType "struct CommonJsOptions"

/-- The options that a text gives. -/
def ofText (text : String) : Except Json.Problem Options := Reader.run reader text.toList

end Options

end ModuleInterop.Build
