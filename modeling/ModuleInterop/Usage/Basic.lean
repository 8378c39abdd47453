import ModuleInterop.Syntax.Tree

/-!
# Uses of the CommonJS names

A module of this kind gets `require`, `module`, `exports` and `global` from outside, so in its text
they are free names; `this` outside all functions is one more way to write `global`.  This module
says what counts as a use of them; `ModuleInterop.Usage.Collect` finds the uses in a module.

A call `require('x')` with one fixed argument is a use of its own, since an import can stand for it;
so is an assignment to `module.exports` or `exports.x`, since an export can.
-/

set_option autoImplicit false

namespace ModuleInterop.Usage

open ModuleInterop.Syntax

/-- The two free names that lead to the value of the module. -/
inductive ModuleName where
  | module | exports
  deriving DecidableEq, Repr

/-- The free names that a module may use although nothing in it declares them. -/
inductive FreeName where
  | require
  | value (root : ModuleName)
  | global
  | define
  deriving DecidableEq, Repr

/-- The spelling of a name that leads to the value of the module. -/
def ModuleName.text : ModuleName → String
  | .module => "module"
  | .exports => "exports"

/-- The spelling of a free name. -/
def FreeName.text : FreeName → String
  | .require => "require"
  | .value root => root.text
  | .global => "global"
  | .define => "define"

/-- The free name with a spelling. -/
def FreeName.ofText? (text : String) : Option FreeName :=
  [FreeName.require, .value .module, .value .exports, .global, .define].find? fun name =>
    name.text == text

/-- What a statement stands in. -/
inductive Home where
  /-- The statements of the module itself. -/
  | body
  /-- Another list of statements. -/
  | list
  /-- A place for exactly one statement, as after a condition. -/
  | sole
  /-- The declaration is exported where it stands. -/
  | exported
  deriving DecidableEq, Repr

/-- Whether a statement can be left out where it stands. -/
def Home.allowsNone : Home → Bool
  | .body | .list => true
  | .sole | .exported => false

/-- Where an expression stands, as far as replacing it depends on that. -/
inductive Place where
  | inner
  /-- The expression is all that a statement consists of. -/
  | statement (span : Span) (home : Home)
  /-- The expression is all of a chain that is all of a statement. -/
  | chained (span : Span) (home : Home)
  /-- The name is also the key of the property that it is the value of. -/
  | shorthand
  /-- The default of a target that is written as a name alone. -/
  | shorthandDefault
  deriving DecidableEq, Repr

/-- The statement that an expression is all of, in a chain perhaps. -/
def Place.statement? : Place → Option (Span × Home)
  | .statement span home | .chained span home => some (span, home)
  | _ => none

/-- Whether the expression is a statement of the module itself. -/
def Place.isModuleStatement : Place → Bool
  | .statement _ .body => true
  | _ => false

/-- The place of what a chain at a place consists of. -/
def Place.inChain : Place → Place
  | .statement span home => .chained span home
  | place => place

/-- A call of `require` that an import can stand for. -/
structure RequireCall where
  span : Span
  /-- The id that is required. -/
  target : String
  /-- The scope that the call stands in. -/
  scope : Nat
  deriving DecidableEq, Repr

/-- A path that an assignment exports through: `module.exports` without a name, `exports.x` or
`module.exports.x` with one. -/
structure ExportPath where
  root : ModuleName
  name : Option String
  deriving DecidableEq, Repr

/-- One use of the CommonJS names. -/
inductive Use where
  /-- A free name that is referred to; if it is a shorthand property, its key has to stay. -/
  | name (name : FreeName) (span : Span) (shorthand : Bool)
  /-- The word `this` outside all functions and classes. -/
  | outerThis (span : Span)
  /-- The question for the type of the module's value or of the object that holds it. -/
  | typeofValue (span : Span) (root : ModuleName)
  /-- A return from the module itself. -/
  | outerReturn
  /-- An assignment that exports.  It is direct if it is a plain assignment and a statement of the
  module; `properties` are the names that an object which is assigned as a whole shows. -/
  | exporting (path : ExportPath) (direct : Bool) (properties : List String)
  /-- A call that an import can stand for, with the statement it is all of. -/
  | requiring (call : RequireCall) (statement : Option (Span × Home))
  /-- A variable of the module that is declared once, never assigned to, and has the value of such a
  call. -/
  | requiredVariable (span : Span) (name : String) (call : RequireCall)
  /-- The end of a declaration of variables, given by their spans. -/
  | declared (span : Span) (home : Home) (declarators : List Span)
  deriving DecidableEq, Repr

end ModuleInterop.Usage
