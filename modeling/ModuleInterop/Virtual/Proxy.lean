import ModuleInterop.Text.Quoted
import ModuleInterop.Naming
import ModuleInterop.Classification
import ModuleInterop.Virtual.Id
import ModuleInterop.Virtual.Helpers

/-!
# Proxies

A module that required another one imports a proxy of it instead, whose default export is what the
call would have given.  The text of a proxy depends on what is known of the module it stands for.
-/

set_option autoImplicit false

namespace ModuleInterop.Virtual

open ModuleInterop.Text

/-- The name for the value of the module with an id. -/
def nameOfId (id : String) : String := String.ofList (nameOf id.toList)

/-- The text of the proxy for a module. -/
def proxyModule (target : String) (classification : Classification) : String :=
  let source := quote target
  let name := nameOfId target
  match classification with
  | .esmWithDefault => "export \x7bdefault\x7d from " ++ source ++ ";"
  | .cjs =>
    "import \x7b __moduleExports \x7d from " ++ source ++ "; export default __moduleExports;"
  | .esmWithoutDefault =>
    "import * as " ++ name ++ " from " ++ source ++ "; export default " ++ name ++ ";"
  | .unknown =>
    "import * as " ++ name ++ " from " ++ source ++ "; import \x7b" ++ namespaceHelper ++
      "\x7d from " ++ quote helpersId ++ "; export default " ++ namespaceHelper ++ "(" ++ name ++
      ")"

/-- The text of the proxy for an external module. -/
def externalProxy (target : String) : String :=
  let name := nameOfId target
  "import " ++ name ++ " from " ++ quote target ++ "; export default " ++ name ++ ";"

end ModuleInterop.Virtual
