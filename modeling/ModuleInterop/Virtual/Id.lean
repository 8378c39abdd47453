import ModuleInterop.Text.Word

/-!
# Ids of virtual modules

Modules that no file holds have ids that begin with the null character: the helpers, a proxy for
each module that is required, and a proxy for each required module outside the build.
-/

set_option autoImplicit false

namespace ModuleInterop.Virtual

/-- What the id of a proxy begins with. -/
def proxyPrefix : String := "\x00commonjs-proxy:"

/-- What the id of a proxy for an external module begins with. -/
def externalPrefix : String := "\x00commonjs-external:"

/-- The id of the helper module. -/
def helpersId : String := "\x00commonjsHelpers"

/-- The id of the proxy for a module. -/
def proxyId (target : String) : String := proxyPrefix ++ target

/-- The id of the proxy for an external module. -/
def externalId (target : String) : String := externalPrefix ++ target

/-- What follows `start` in an id that begins with it. -/
def after? (start id : String) : Option String :=
  (Text.dropLeading? start.toList id.toList).map String.ofList

/-- Whether an id is reserved for virtual modules. -/
def isReserved (id : String) : Bool := id.toList.head? == some '\x00'

/-- The module that an id stands for, with the prefix of a proxy taken off. -/
def withoutProxy (id : String) : String := (after? proxyPrefix id).getD id

/-- An id with something put before it gives it back. -/
theorem after?_append (start id : String) : after? start (start ++ id) = some id := by
  have h : Text.dropLeading? start.toList (start ++ id).toList = some id.toList := by
    rw [Text.dropLeading?_eq_some_iff]; simp
  rw [after?, h]
  simp

end ModuleInterop.Virtual
