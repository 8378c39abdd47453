import ModuleInterop.Analysis.Truth
import ModuleInterop.Naming
import ModuleInterop.Scope.Fresh
import ModuleInterop.Usage.Path

/-!
# The uses in a module

The uses of the CommonJS names in a module, in the order of the text.  Branches of a conditional
that are known not to be taken have none; nor has the left side of an assignment that exports, nor
what is recognised as a whole (a call of `require`, a question for a type).
-/

set_option autoImplicit false

namespace ModuleInterop.Usage

open ModuleInterop.Syntax ModuleInterop.Scope

/-- What the uses depend on beside the text at hand. -/
structure Context where
  bindings : Bindings
  /-- The targets of `require` that are left alone. -/
  ignored : List String
  /-- Whether the text stands in a function or a class. -/
  inFunction : Bool

/-- The context inside a function. -/
def Context.within (context : Context) : Context := { context with inFunction := true }

/-- The use that a reference to a name is. -/
def usesOfName (context : Context) (span : Span) (text : String) (shorthand : Bool) : List Use :=
  match FreeName.ofText? text with
  | some name => if context.bindings.isFreeAt span.start then [.name name span shorthand] else []
  | none => []

/-- The uses in an export list that names the module's own bindings. -/
def usesOfSpecifiers (context : Context) (specifiers : List ExportSpecifier) : List Use :=
  specifiers.flatMap fun s =>
    if s.inner.isString then [] else usesOfName context s.inner.span s.inner.text false

/-- The names under which the properties of an object can be exported. -/
def propertyNames : Expr → List String
  | .object _ properties _ =>
    properties.filterMap fun
      | .keyed _ (some name) none _ => if isLegal name.toList then some name else none
      | .shorthand _ name _ => if isLegal name.text.toList then some name.text else none
      | _ => none
  | _ => []

/-- The use that an assignment which exports is. -/
def exportingUse (place : Place) (plain : Bool) (path : ExportPath) (value : Expr) : Use :=
  .exporting path (plain && place.isModuleStatement)
    (match path.name with | some name => [name] | none => propertyNames value)

/-- The use that a variable with the value of a call of `require` is: it is a variable of the
module itself, not exported, declared once and never assigned to. -/
def requiredVariable? (context : Context) (home : Home) : Declarator → Option Use
  | .mk span (.binding name) (some init) =>
    match requireCall? context.bindings context.ignored init with
    | some call =>
      if home ≠ .exported ∧ call.scope = ScopeTree.root ∧
          context.bindings.isConstantAt name.span.start = true then
        some (.requiredVariable span name.text call)
      else none
    | none => none
  | _ => none

/-- The span of a declarator. -/
def declaratorSpan : Declarator → Span
  | .mk span _ _ => span

mutual

/-- The uses in an expression at a place. -/
def usesOfExpr (context : Context) (place : Place) : Expr → List Use
  | .name span text =>
    if place = .shorthandDefault then [] else usesOfName context span text (place = .shorthand)
  | .literal _ _ | .atom _ | .hole _ => []
  | .this span => if context.inFunction then [] else [.outerThis span]
  | .paren _ inner => usesOfExpr context .inner inner
  | .unary span op operand =>
    match op, objectRoot? context.bindings operand with
    | .typeof, some root => [.typeofValue span root]
    | _, _ => usesOfExpr context .inner operand
  | .update _ target => usesOfExpr context .inner target
  | .binary _ _ left right | .logical _ _ left right =>
    usesOfExpr context .inner left ++ usesOfExpr context .inner right
  | .conditional _ test yes no =>
    usesOfExpr context .inner test ++
      (if test.truth? = some false then [] else usesOfExpr context .inner yes) ++
      (if test.truth? = some true then [] else usesOfExpr context .inner no)
  | .assign _ plain target value =>
    match exportPath? context.bindings target with
    | some path => exportingUse place plain path value :: usesOfExpr context .inner value
    | none => usesOfPattern context target ++ usesOfExpr context .inner value
  | .member _ object _ | .privateMember _ object => usesOfExpr context .inner object
  | .index _ object key => usesOfExpr context .inner object ++ usesOfExpr context .inner key
  | .call span callee arguments =>
    match requireCall? context.bindings context.ignored (.call span callee arguments) with
    | some call => [.requiring call place.statement?]
    | none => usesOfExpr context .inner callee ++ usesOfExprs context arguments
  | .chain _ inner => usesOfExpr context place.inChain inner
  | .template _ _ values => usesOfExprs context values
  | .group _ _ parts => usesOfExprs context parts
  | .spread _ inner => usesOfExpr context .inner inner
  | .array _ elements _ => usesOfExprs context elements
  | .object _ properties _ => usesOfProperties context properties
  | .function _ _ _ parameters body =>
    usesOfPatterns context.within parameters ++ usesOfStmts context.within .list body
  | .class _ _ decorators _ heritage members =>
    usesOfExprs context.within decorators ++ usesOfOptional context.within heritage ++
      usesOfMembers context.within members

/-- The uses in expressions that are parts of another one. -/
def usesOfExprs (context : Context) : List Expr → List Use
  | [] => []
  | e :: es => usesOfExpr context .inner e ++ usesOfExprs context es

/-- The uses in an expression that may be absent. -/
def usesOfOptional (context : Context) : Option Expr → List Use
  | none => []
  | some e => usesOfExpr context .inner e

/-- The uses in the properties of an object. -/
def usesOfProperties (context : Context) : List Property → List Use
  | [] => []
  | .keyed _ _ computed value :: ps =>
    usesOfOptional context computed ++ usesOfExpr context .inner value ++
      usesOfProperties context ps
  | .shorthand _ name _ :: ps =>
    usesOfName context name.span name.text true ++ usesOfProperties context ps
  | .spread _ inner :: ps => usesOfExpr context .inner inner ++ usesOfProperties context ps

/-- The uses in a pattern. -/
def usesOfPattern (context : Context) : Pattern → List Use
  | .binding _ => []
  | .target place => usesOfExpr context .inner place
  | .withDefault _ inner default =>
    usesOfPattern context inner ++ usesOfExpr context .inner default
  | .array _ elements => usesOfPatterns context elements
  | .object _ properties => usesOfPatterns context properties
  | .property _ computed value => usesOfOptional context computed ++ usesOfPattern context value
  | .shorthand _ name default =>
    usesOfName context name.span name.text true ++
      (match default with
        | some e => usesOfExpr context .shorthandDefault e
        | none => [])
  | .rest _ inner => usesOfPattern context inner

/-- The uses in patterns. -/
def usesOfPatterns (context : Context) : List Pattern → List Use
  | [] => []
  | p :: ps => usesOfPattern context p ++ usesOfPatterns context ps

/-- The uses in the members of a class. -/
def usesOfMembers (context : Context) : List Member → List Use
  | [] => []
  | .method _ decorators computed value :: ms =>
    usesOfExprs context decorators ++ usesOfOptional context computed ++
      usesOfExpr context .inner value ++ usesOfMembers context ms
  | .field _ decorators computed value :: ms =>
    usesOfExprs context decorators ++ usesOfOptional context computed ++
      usesOfOptional context value ++ usesOfMembers context ms
  | .initializer _ body :: ms => usesOfStmts context .list body ++ usesOfMembers context ms

/-- The uses in a statement. -/
def usesOfStmt (context : Context) (home : Home) : Stmt → List Use
  | .expression span value => usesOfExpr context (.statement span home) value
  | .directive _ | .simple _ | .importing _ _ | .exportAll _ _ => []
  | .variables span _ list =>
    usesOfDeclarators context home list ++ [.declared span home (list.map declaratorSpan)]
  | .declaration value => usesOfExpr context .inner value
  | .block _ body => usesOfStmts context .list body
  | .ifElse _ test yes no =>
    usesOfExpr context .inner test ++
      (if test.truth? = some false then [] else usesOfStmt context .sole yes) ++
      (if test.truth? = some true then [] else usesOfOptionalStmt context no)
  | .loop _ first test update body =>
    usesOfFirst context first ++ usesOfOptional context test ++ usesOfOptional context update ++
      usesOfStmt context .sole body
  | .each _ declared stored subject body =>
    usesOfFirst context declared ++
      (match stored with
        | some p => usesOfPattern context p
        | none => []) ++
      usesOfExpr context .inner subject ++ usesOfStmt context .sole body
  | .whileLoop _ test body => usesOfExpr context .inner test ++ usesOfStmt context .sole body
  | .doWhile _ body test => usesOfStmt context .sole body ++ usesOfExpr context .inner test
  | .returning _ value =>
    (if context.inFunction then [] else [.outerReturn]) ++ usesOfOptional context value
  | .throwing _ value => usesOfExpr context .inner value
  | .withObject _ object body => usesOfExpr context .inner object ++ usesOfStmt context .sole body
  | .switch _ subject cases => usesOfExpr context .inner subject ++ usesOfCases context cases
  | .guarded _ body parameter handler finalizer =>
    usesOfStmts context .list body ++
      (match parameter with
        | some p => usesOfPattern context p
        | none => []) ++
      usesOfStmts context .list handler ++ usesOfStmts context .list finalizer
  | .labeled _ body => usesOfStmt context .sole body
  | .exportDefault _ value | .exportDefaultDeclaration _ value => usesOfExpr context .inner value
  | .exportDeclaration _ declaration => usesOfStmt context .exported declaration
  | .exportNames _ specifiers source =>
    if source.isNone then usesOfSpecifiers context specifiers else []

/-- The uses in a list of statements. -/
def usesOfStmts (context : Context) (home : Home) : List Stmt → List Use
  | [] => []
  | s :: ss => usesOfStmt context home s ++ usesOfStmts context home ss

/-- The uses in the alternative of a condition. -/
def usesOfOptionalStmt (context : Context) : Option Stmt → List Use
  | none => []
  | some s => usesOfStmt context .sole s

/-- The uses in the first part of a loop's head, which is no statement of its own. -/
def usesOfFirst (context : Context) : Option Stmt → List Use
  | none => []
  | some (.expression _ value) => usesOfExpr context .inner value
  | some s => usesOfStmt context .sole s

/-- The uses in declared variables. -/
def usesOfDeclarators (context : Context) (home : Home) : List Declarator → List Use
  | [] => []
  | .mk span target init :: ds =>
    (match requiredVariable? context home (.mk span target init) with
      | some use => [use]
      | none => usesOfPattern context target ++ usesOfOptional context init) ++
      usesOfDeclarators context home ds

/-- The uses in the cases of a switch. -/
def usesOfCases (context : Context) : List SwitchCase → List Use
  | [] => []
  | .mk test body :: cs =>
    usesOfOptional context test ++ usesOfStmts context .list body ++ usesOfCases context cs

end

/-- The uses in a module. -/
def usesOf (bindings : Bindings) (ignored : List String) (program : Program) : List Use :=
  usesOfStmts ⟨bindings, ignored, false⟩ .body program.body

end ModuleInterop.Usage
