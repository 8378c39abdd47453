/-!
# Runtime helpers

The text of the module with the functions that converted modules call while they run.
-/

set_option autoImplicit false

namespace ModuleInterop.Virtual

/-- The lines of the helper module. -/
def helperLines : List String := [
  "",
  "export var commonjsGlobal = typeof globalThis !== 'undefined' ? globalThis : typeof " ++
    "window !== 'undefined' ? window : typeof global !== 'undefined' ? global : typeof self " ++
    "!== 'undefined' ? self : \x7b\x7d;",
  "",
  "export function commonjsRequire () \x7b",
  "\tthrow new Error('Dynamic requires are not currently supported by rollup-plugin-commonjs');",
  "\x7d",
  "",
  "export function commonjsDynamicRequire (id) \x7b",
  "\tif (typeof require === 'function') return require(id);",
  "\tthrow new Error('Could not dynamically require \"' + id + '\"');",
  "\x7d",
  "",
  "export function unwrapExports (x) \x7b",
  "\treturn x && x.__esModule && Object.prototype.hasOwnProperty.call(x, 'default') ? " ++
    "x['default'] : x;",
  "\x7d",
  "",
  "export function createCommonjsModule(fn, module) \x7b",
  "\treturn module = \x7b exports: \x7b\x7d \x7d, fn(module, module.exports), module.exports;",
  "\x7d",
  "",
  "export function getCjsExportFromNamespace (n) \x7b",
  "\treturn n && n['default'] || n;",
  "\x7d"]

/-- The text of the helper module. -/
def helpers : String := String.intercalate "\n" helperLines

/-- The name under which the helper module exports the global object. -/
def globalHelper : String := "commonjsGlobal"

/-- The name of the helper that stands for a `require` that was not resolved: it throws, or, where
calls at run time are allowed, passes them on. -/
def requireHelper (dynamic : Bool) : String :=
  if dynamic then "commonjsDynamicRequire" else "commonjsRequire"

/-- The name of the helper that runs a module body inside a function. -/
def wrapHelper : String := "createCommonjsModule"

/-- The name of the helper that takes the default export out of a module compiled to this format. -/
def unwrapHelper : String := "unwrapExports"

/-- The name of the helper that takes the default export out of a namespace. -/
def namespaceHelper : String := "getCjsExportFromNamespace"

end ModuleInterop.Virtual
