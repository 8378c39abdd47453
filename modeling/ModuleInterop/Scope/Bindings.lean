import ModuleInterop.Scope.Occurrence

/-!
# Bindings

Which binding each name of a module belongs to.  The occurrences of the module are read in order;
a scope's references are resolved when it ends (for a function, those among its parameters when the
parameters end), and what it does not resolve is left to the scope around it.

A variable belongs to the nearest scope that holds variables.  Where a scope on the way already
declares its name, the two are one binding, and that binding moves out to the scope that holds
variables.
-/

set_option autoImplicit false

namespace ModuleInterop.Scope

open ModuleInterop.Syntax

/-- A scope of a module. -/
structure ScopeEntry where
  /-- The scopes around it, the nearest first. -/
  ancestors : List Nat
  holdsVars : Bool
  /-- The names declared in it with their bindings. -/
  names : List (String × Nat)
  /-- The names of variables that are declared inside it and belong to a scope around it. -/
  passing : List (String × Nat)
  deriving DecidableEq, Repr

/-- A reference to a name, in a scope; `binding` is what it refers to, and absent if the name is
free in the module. -/
structure Reference where
  offset : Nat
  name : String
  scope : Nat
  writes : Bool
  binding : Option Nat
  deriving DecidableEq, Repr

/-- The bindings of a module: its scopes by number, its references, its words that refer without a
name as position and scope, and its declarations as position and binding. -/
structure Bindings where
  scopes : List ScopeEntry
  references : List Reference
  words : List (Nat × Nat)
  declarations : List (Nat × Nat)
  deriving DecidableEq, Repr

/-- A scope that has not ended, with the references in it that are not resolved yet. -/
structure OpenScope where
  scope : Nat
  pending : List Reference

/-- What has been read: the bindings so far, the number of bindings, and the open scopes, the
innermost first. -/
structure Reading where
  found : Bindings
  count : Nat
  opened : List OpenScope

/-- The value that a list of pairs has for a name. -/
def lookup (name : String) (entries : List (String × Nat)) : Option Nat :=
  (entries.find? fun e => e.1 == name).map (·.2)

/-- A list of pairs with the value for a name replaced. -/
def assignName (name : String) (value : Nat) (entries : List (String × Nat)) :
    List (String × Nat) :=
  (entries.filter fun e => e.1 != name) ++ [(name, value)]

namespace Reading

/-- Before the first occurrence: the top scope is open. -/
def start : Reading :=
  { found := { scopes := [⟨[], true, [], []⟩], references := [], words := [], declarations := [] }
    count := 0, opened := [⟨0, []⟩] }

/-- The scope with a number. -/
def scope? (reading : Reading) (i : Nat) : Option ScopeEntry := reading.found.scopes[i]?

/-- Changes the scope with a number. -/
def updateScope (reading : Reading) (i : Nat) (f : ScopeEntry → ScopeEntry) : Reading :=
  { reading with found := { reading.found with scopes := reading.found.scopes.modify i f } }

/-- The innermost open scope. -/
def current (reading : Reading) : Nat :=
  match reading.opened with
  | [] => 0
  | inner :: _ => inner.scope

/-- A scope begins. -/
def enter (reading : Reading) (holdsVars : Bool) : Reading :=
  let entry : ScopeEntry := ⟨reading.opened.map OpenScope.scope, holdsVars, [], []⟩
  { reading with
    found := { reading.found with scopes := reading.found.scopes ++ [entry] }
    opened := ⟨reading.found.scopes.length, []⟩ :: reading.opened }

/-- The binding that a scope declares for a reference. -/
def bindingIn (reading : Reading) (scope : Nat) (reference : Reference) : Option Nat :=
  (reading.scope? scope).bind fun entry => lookup reference.name entry.names

/-- Adds references that have found their binding, or are free. -/
def addReferences (reading : Reading) (references : List Reference) : Reading :=
  { reading with
    found := { reading.found with references := reading.found.references ++ references } }

/-- Resolves the references of the innermost scope and leaves the others to the scope around it. -/
def settle (reading : Reading) : Reading :=
  match reading.opened with
  | [] => reading
  | inner :: outer =>
    let resolved := inner.pending.filterMap fun r =>
      (reading.bindingIn inner.scope r).map fun b => { r with binding := some b }
    let left := inner.pending.filter fun r => (reading.bindingIn inner.scope r).isNone
    match outer with
    | [] => { (reading.addReferences (resolved ++ left)) with opened := [⟨inner.scope, []⟩] }
    | next :: others =>
      { (reading.addReferences resolved) with
        opened := ⟨inner.scope, []⟩ :: { next with pending := next.pending ++ left } :: others }

/-- A scope ends. -/
def leave (reading : Reading) : Reading :=
  let settled := reading.settle
  { settled with opened := settled.opened.drop 1 }

/-- Records a reference in the innermost scope. -/
def refer (reading : Reading) (offset : Nat) (name : String) (writes : Bool) : Reading :=
  match reading.opened with
  | [] => reading
  | inner :: outer =>
    let reference : Reference := ⟨offset, name, inner.scope, writes, none⟩
    { reading with opened := { inner with pending := inner.pending ++ [reference] } :: outer }

/-- Records a word that refers without a name. -/
def recordWord (reading : Reading) (offset : Nat) : Reading :=
  { reading with
    found := { reading.found with words := reading.found.words ++ [(offset, reading.current)] } }

/-- Records a declaration of a binding. -/
def record (reading : Reading) (offset binding : Nat) : Reading :=
  { reading with
    found := { reading.found with
      declarations := reading.found.declarations ++ [(offset, binding)] } }

/-- Declares a new binding in a scope. -/
def declareNew (reading : Reading) (scope : Nat) (name : Name) : Reading :=
  let binding := reading.count
  let reading := reading.updateScope scope fun entry =>
    { entry with names := assignName name.text binding entry.names }
  { (reading.record name.span.start binding) with count := binding + 1 }

/-- The binding that a scope has for a name, its own or one that passes through it. -/
def known? (reading : Reading) (name : String) (scope : Nat) : Option Nat :=
  (reading.scope? scope).bind fun entry => (lookup name entry.names).or (lookup name entry.passing)

/-- Declares a name in a scope; together with an earlier declaration it is one binding. -/
def declareIn (reading : Reading) (scope : Nat) (name : Name) : Reading :=
  match reading.known? name.text scope with
  | some binding => reading.record name.span.start binding
  | none => reading.declareNew scope name

/-- The scopes from the innermost one up to the one that holds variables, which comes second. -/
def variablePath (reading : Reading) : List Nat × Nat :=
  let chain := reading.opened.map OpenScope.scope
  let holds := fun i => ((reading.scope? i).map ScopeEntry.holdsVars).getD true
  (chain.takeWhile fun i => !holds i, (chain.find? holds).getD 0)

/-- Moves the binding of a name, if a scope declares it, to another scope. -/
def moveName (reading : Reading) (name : String) (source target : Nat) : Reading :=
  match (reading.scope? source).bind fun entry => lookup name entry.names with
  | none => reading
  | some binding =>
    (reading.updateScope source fun entry =>
        { entry with names := entry.names.filter fun e => e.1 != name }).updateScope target
      fun entry => { entry with names := assignName name binding entry.names }

/-- Declares a variable in the scope that holds it, where the scopes on the way to it are given; what
one of these declares moves there. -/
def declareThrough (reading : Reading) (name : Name) (way : List Nat) (target : Nat) : Reading :=
  match way.find? fun i => (reading.known? name.text i).isSome with
  | some i =>
    match reading.known? name.text i with
    | some binding => (reading.moveName name.text i target).record name.span.start binding
    | none => reading
  | none => reading.declareIn target name

/-- Records in scopes that the binding of a variable passes through them. -/
def passThrough (reading : Reading) (name : String) (binding : Nat) (way : List Nat) : Reading :=
  way.foldl (fun reading i => reading.updateScope i fun entry =>
    { entry with passing := assignName name binding entry.passing }) reading

/-- Declares a variable. -/
def declareVariable (reading : Reading) (name : Name) : Reading :=
  let (way, target) := reading.variablePath
  let declared := reading.declareThrough name way target
  match declared.found.declarations.getLast? with
  | none => declared
  | some (_, binding) => declared.passThrough name.text binding way

/-- Reads one occurrence. -/
def step (reading : Reading) : Occurrence → Reading
  | .enter holdsVars => reading.enter holdsVars
  | .leave => reading.leave
  | .settle => reading.settle
  | .declare .here name => reading.declareIn reading.current name
  | .declare .hoisted name => reading.declareVariable name
  | .declare .shadowing name => reading.declareNew reading.current name
  | .refer offset name writes => reading.refer offset name writes
  | .word offset => reading.recordWord offset

end Reading

namespace Bindings

/-- The bindings that occurrences make. -/
def ofOccurrences (occurrences : List Occurrence) : Bindings :=
  (occurrences.foldl Reading.step .start).settle.found

/-- The bindings of a module. -/
def ofProgram (program : Program) : Bindings := ofOccurrences (ofStmts program.body)

/-- The reference at a position. -/
def referenceAt? (bindings : Bindings) (offset : Nat) : Option Reference :=
  bindings.references.find? fun r => r.offset == offset

/-- Whether the name at a position is free in the module. -/
def isFreeAt (bindings : Bindings) (offset : Nat) : Bool :=
  match bindings.referenceAt? offset with
  | some r => r.binding.isNone
  | none => true

/-- The scope of the name or word at a position. -/
def scopeAt (bindings : Bindings) (offset : Nat) : Nat :=
  match bindings.referenceAt? offset with
  | some r => r.scope
  | none => ((bindings.words.find? fun w => w.1 == offset).map (·.2)).getD 0

/-- The names that are free in the module. -/
def freeNames (bindings : Bindings) : List String :=
  ((bindings.references.filter fun r => r.binding.isNone).map Reference.name).eraseDups

/-- Whether a binding is assigned to. -/
def isWritten (bindings : Bindings) (binding : Nat) : Bool :=
  bindings.references.any fun r => r.writes && r.binding == some binding

/-- How often a binding is declared. -/
def declarationCount (bindings : Bindings) (binding : Nat) : Nat :=
  (bindings.declarations.filter fun d => d.2 == binding).length

/-- Whether the binding declared at a position is declared once and never assigned to. -/
def isConstantAt (bindings : Bindings) (offset : Nat) : Bool :=
  match bindings.declarations.find? fun d => d.1 == offset with
  | some (_, binding) => !bindings.isWritten binding && bindings.declarationCount binding == 1
  | none => false

end Bindings

end ModuleInterop.Scope
