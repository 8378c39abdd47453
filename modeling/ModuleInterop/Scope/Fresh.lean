import ModuleInterop.Scope.Bindings

/-!
# Fresh names

Names for generated bindings.  A name is taken where it is declared in the scope or in a scope
around it, by the module or by an earlier choice, where it is free in the module, and where it is on
a list of words that no generated binding takes.  The name chosen for a candidate is the first of
`candidate`, `candidate_1`, `candidate_2`, … that is not taken.
-/

set_option autoImplicit false

namespace ModuleInterop.Scope

/-- Names that a generated binding never takes. -/
def unavailable : List String := [
  "process", "location", "abstract", "arguments", "await", "boolean", "break", "byte", "case",
  "catch", "char", "class", "const", "continue", "debugger", "default", "delete", "do", "double",
  "else", "enum", "eval", "export", "extends", "false", "final", "finally", "float", "for", "from",
  "function", "goto", "if", "implements", "import", "in", "instanceof", "int", "interface", "let",
  "long", "native", "new", "null", "package", "private", "protected", "public", "return", "short",
  "static", "super", "switch", "synchronized", "this", "throw", "throws", "transient", "true",
  "try", "typeof", "var", "void", "volatile", "while", "with", "yield", "__esModule"]

/-- The scopes of a module with the names that have been generated into them. -/
structure ScopeTree where
  scopes : List ScopeEntry
  /-- Generated names with their scopes. -/
  generated : List (Nat × String)
  deriving DecidableEq, Repr

namespace ScopeTree

/-- The scopes of a module, nothing generated into them. -/
def ofBindings (bindings : Bindings) : ScopeTree := ⟨bindings.scopes, []⟩

/-- The top scope. -/
def root : Nat := 0

/-- A scope and the scopes around it, the nearest first. -/
def chain (tree : ScopeTree) (scope : Nat) : List Nat :=
  match tree.scopes[scope]? with
  | some entry => scope :: entry.ancestors
  | none => [scope]

/-- Whether a scope itself declares a name or had it generated. -/
def declares (tree : ScopeTree) (scope : Nat) (name : String) : Bool :=
  (match tree.scopes[scope]? with
    | some entry => entry.names.any fun e => e.1 == name
    | none => false) ||
    tree.generated.any fun e => e.1 == scope && e.2 == name

/-- Whether a name is visible from a scope. -/
def sees (tree : ScopeTree) (scope : Nat) (name : String) : Bool :=
  (tree.chain scope).any fun i => tree.declares i name

/-- Registers a generated name in a scope. -/
def generate (tree : ScopeTree) (scope : Nat) (name : String) : ScopeTree :=
  { tree with generated := tree.generated ++ [(scope, name)] }

/-- All names that are declared or generated somewhere. -/
def allNames (tree : ScopeTree) : List String :=
  tree.scopes.flatMap (fun entry => entry.names.map (·.1)) ++ tree.generated.map (·.2)

end ScopeTree

/-- Whether a generated binding in a scope may not take a name. -/
def isTaken (tree : ScopeTree) (scope : Nat) (globals : List String) (name : String) : Bool :=
  tree.sees scope name || globals.contains name || unavailable.contains name

/-- The first number from `n` on that a test refuses, looking at no more than `limit` of them. -/
def firstFree (taken : Nat → Bool) : Nat → Nat → Nat
  | 0, n => n
  | limit + 1, n => if taken n then firstFree taken limit (n + 1) else n

/-- The candidates for a name: the name itself, and then the name with a number. -/
def candidateName (candidate : String) (n : Nat) : String :=
  if n = 0 then candidate else candidate ++ "_" ++ Nat.repr n

/-- The first candidate for a name that is not taken in a scope.  There is one among as many
candidates as names that may be taken, and one more. -/
def freshName (tree : ScopeTree) (scope : Nat) (globals : List String) (candidate : String) :
    String :=
  let limit := tree.allNames.length + globals.length + unavailable.length
  candidateName candidate
    (firstFree (fun n => isTaken tree scope globals (candidateName candidate n)) limit 0)

/-- Chooses a name for a generated binding and registers it. -/
def claimName (tree : ScopeTree) (scope : Nat) (globals : List String) (candidate : String) :
    String × ScopeTree :=
  let name := freshName tree scope globals candidate
  (name, tree.generate scope name)

end ModuleInterop.Scope
