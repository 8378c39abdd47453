import ModuleInterop.Text.Path
import ModuleInterop.Text.Uppercase
import ModuleInterop.Text.Word

/-!
# Names for generated bindings

Any text can be made into a name for a binding (`legalize`): a letter after a hyphen is written in
upper case in place of both, every other character that is no ASCII identifier character becomes
`_`, and a name that begins with a digit or is forbidden gets `_` before it.  A module's own name
comes from the file its id leads to (`nameOf`), or from the directory if the file is an index.
-/

set_option autoImplicit false

namespace ModuleInterop

open ModuleInterop.Text

/-- Reserved words. -/
def reservedWords : List String := [
  "break", "case", "class", "catch", "const", "continue", "debugger", "default", "delete", "do",
  "else", "export", "extends", "finally", "for", "function", "if", "import", "in", "instanceof",
  "let", "new", "return", "super", "switch", "this", "throw", "try", "typeof", "var", "void",
  "while", "with", "yield", "enum", "await", "implements", "package", "protected", "static",
  "interface", "private", "public"]

/-- Global objects and values that a generated binding must not hide. -/
def builtinNames : List String := [
  "Infinity", "NaN", "undefined", "null", "true", "false", "eval", "uneval", "isFinite", "isNaN",
  "parseFloat", "parseInt", "decodeURI", "decodeURIComponent", "encodeURI", "encodeURIComponent",
  "escape", "unescape", "Object", "Function", "Boolean", "Symbol", "Error", "EvalError",
  "InternalError", "RangeError", "ReferenceError", "SyntaxError", "TypeError", "URIError",
  "Number", "Math", "Date", "String", "RegExp", "Array", "Int8Array", "Uint8Array",
  "Uint8ClampedArray", "Int16Array", "Uint16Array", "Int32Array", "Uint32Array", "Float32Array",
  "Float64Array", "Map", "Set", "WeakMap", "WeakSet", "SIMD", "ArrayBuffer", "DataView", "JSON",
  "Promise", "Generator", "GeneratorFunction", "Reflect", "Proxy", "Intl"]

/-- Whether a text must not be the name of a generated binding. -/
def isForbidden (name : List Char) : Bool :=
  name.isEmpty || (reservedWords ++ builtinNames).any fun word => word.toList == name

/-- Whether a character is allowed in a generated name. -/
def isNameChar (c : Char) : Bool := c.isAlphanum || c == '_' || c == '$'

/-- A text with each hyphen and the word character after it replaced by that character in upper
case. -/
def camelCase : List Char → List Char
  | [] => []
  | '-' :: c :: text =>
    if isWordChar c then uppercase c ++ camelCase text else '-' :: camelCase (c :: text)
  | c :: text => c :: camelCase text

/-- A text with every character that is not allowed in a name replaced by `_`. -/
def replaceForeign (text : List Char) : List Char :=
  text.map fun c => if isNameChar c then c else '_'

/-- A text with `_` before it if it begins with a digit or is forbidden. -/
def shield (name : List Char) : List Char :=
  if (name.head?.map Char.isDigit).getD false || isForbidden name then '_' :: name else name

/-- The name for a generated binding that a text gives. -/
def legalize (text : List Char) : List Char := shield (replaceForeign (camelCase text))

/-- Whether a text is itself a name for a generated binding. -/
def isLegal (text : List Char) : Bool := legalize text == text

/-- The name for the value of the module with an id. -/
def nameOf (id : List Char) : List Char :=
  let stem := (fileStem? id).getD []
  if stem = "index".toList then legalize ((directoryName? id).getD []) else legalize stem

end ModuleInterop
