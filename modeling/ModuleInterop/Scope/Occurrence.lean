import ModuleInterop.Syntax.Tree

/-!
# Occurrences of names

A module flattened to what matters for scoping, in the order of the text: where scopes begin and
end, which names are declared in them and how, and which names are referred to.

The parameters and the body of a function share one scope, but a reference among the parameters does
not see the names that the body declares: the scope is *settled* after the parameters.
-/

set_option autoImplicit false

namespace ModuleInterop.Scope

open ModuleInterop.Syntax

/-- How a name is declared. -/
inductive DeclarationRule where
  /-- In the scope at hand; together with an earlier declaration of the name it is one binding. -/
  | here
  /-- In the nearest scope that holds variables. -/
  | hoisted
  /-- In the scope at hand, as a binding of its own. -/
  | shadowing
  deriving DecidableEq, Repr

/-- One step through a module. -/
inductive Occurrence where
  /-- A scope begins; `holdsVars` if variables declared further inside belong to it. -/
  | enter (holdsVars : Bool)
  | leave
  /-- References up to here see only what the scope has declared so far. -/
  | settle
  | declare (rule : DeclarationRule) (name : Name)
  | refer (offset : Nat) (name : String) (writes : Bool)
  /-- A word that refers to something without a name of its own: `this`. -/
  | word (offset : Nat)
  deriving DecidableEq, Repr

/-- The declarations of names. -/
def declareAll (rule : DeclarationRule) (names : List Name) : List Occurrence :=
  names.map (.declare rule)

/-- How the names of variables are declared. -/
def ruleOf : VariableKind → DeclarationRule
  | .var => .hoisted
  | .lexical _ => .here

/-- The occurrences inside a scope of their own. -/
def enclosed (holdsVars : Bool) (inside : List Occurrence) : List Occurrence :=
  .enter holdsVars :: (inside ++ [.leave])

/-- The references of an export list that names the module's own bindings. -/
def exportReferences : List ExportSpecifier → List Occurrence
  | [] => []
  | entry :: entries =>
    if entry.inner.isString then exportReferences entries
    else .refer entry.inner.span.start entry.inner.text false :: exportReferences entries

mutual

/-- The occurrences in an expression. -/
def ofExpr : Expr → List Occurrence
  | .name span text => [.refer span.start text false]
  | .this span => [.word span.start]
  | .literal _ _ | .atom _ | .hole _ => []
  | .paren _ inner => ofExpr inner
  | .unary _ _ operand => ofExpr operand
  | .update _ target => ofPlace target
  | .binary _ _ left right => ofExpr left ++ ofExpr right
  | .logical _ _ left right => ofExpr left ++ ofExpr right
  | .conditional _ test yes no => ofExpr test ++ ofExpr yes ++ ofExpr no
  | .assign _ _ target value => ofPattern .here target ++ ofExpr value
  | .member _ object _ => ofExpr object
  | .privateMember _ object => ofExpr object
  | .index _ object key => ofExpr object ++ ofExpr key
  | .call _ callee arguments => ofExpr callee ++ ofExprs arguments
  | .chain _ inner => ofExpr inner
  | .template _ _ values => ofExprs values
  | .group _ _ parts => ofExprs parts
  | .spread _ inner => ofExpr inner
  | .array _ elements _ => ofExprs elements
  | .object _ properties _ => ofProperties properties
  | .function _ form name parameters body =>
    (if form = .declaration then declareAll .here name.toList else []) ++
      enclosed true
        ((if form = .declaration then [] else declareAll .here name.toList) ++
          ofPatterns .here parameters ++ [.settle] ++ ofStmts body)
  | .class _ isDeclaration decorators name heritage members =>
    ofExprs decorators ++ (if isDeclaration then declareAll .here name.toList else []) ++
      enclosed false
        ((if isDeclaration then [] else declareAll .here name.toList) ++
          ofOptional heritage ++ ofMembers members)

/-- The occurrences in an expression that is stored to. -/
def ofPlace : Expr → List Occurrence
  | .name span text => [.refer span.start text true]
  | .member _ object _ => ofExpr object
  | .privateMember _ object => ofExpr object
  | .index _ object key => ofExpr object ++ ofExpr key
  | _ => []

/-- The occurrences in expressions. -/
def ofExprs : List Expr → List Occurrence
  | [] => []
  | e :: es => ofExpr e ++ ofExprs es

/-- The occurrences in an expression that may be absent. -/
def ofOptional : Option Expr → List Occurrence
  | none => []
  | some e => ofExpr e

/-- The occurrences in the properties of an object. -/
def ofProperties : List Property → List Occurrence
  | [] => []
  | .keyed _ _ computed value :: ps => ofOptional computed ++ ofExpr value ++ ofProperties ps
  | .shorthand _ name _ :: ps => .refer name.span.start name.text false :: ofProperties ps
  | .spread _ inner :: ps => ofExpr inner ++ ofProperties ps

/-- The occurrences in a pattern; its bindings are declared by a rule. -/
def ofPattern (rule : DeclarationRule) : Pattern → List Occurrence
  | .binding name => [.declare rule name]
  | .target place => ofPlace place
  | .withDefault _ inner default => ofPattern rule inner ++ ofExpr default
  | .array _ elements => ofPatterns rule elements
  | .object _ properties => ofPatterns rule properties
  | .property _ computed value => ofOptional computed ++ ofPattern rule value
  | .shorthand _ name default =>
    .refer name.span.start name.text true :: ofOptional default
  | .rest _ inner => ofPattern rule inner

/-- The occurrences in patterns. -/
def ofPatterns (rule : DeclarationRule) : List Pattern → List Occurrence
  | [] => []
  | p :: ps => ofPattern rule p ++ ofPatterns rule ps

/-- The occurrences in the members of a class. -/
def ofMembers : List Member → List Occurrence
  | [] => []
  | .method _ decorators computed value :: ms =>
    ofExprs decorators ++ ofOptional computed ++ ofExpr value ++ ofMembers ms
  | .field _ decorators computed value :: ms =>
    ofExprs decorators ++ ofOptional computed ++ ofOptional value ++ ofMembers ms
  | .initializer _ body :: ms => enclosed true (ofStmts body) ++ ofMembers ms

/-- The occurrences in a statement. -/
def ofStmt : Stmt → List Occurrence
  | .expression _ value => ofExpr value
  | .directive _ | .simple _ => []
  | .variables _ kind list => ofDeclarators (ruleOf kind) list
  | .declaration value => ofExpr value
  | .block _ body => enclosed false (ofStmts body)
  | .ifElse _ test yes no => ofExpr test ++ ofStmt yes ++ ofOptionalStmt no
  | .loop _ first test update body =>
    enclosed false
      (ofOptionalStmt first ++ ofOptional test ++ ofOptional update ++ ofStmt body)
  | .each _ declared stored subject body =>
    enclosed false
      (ofOptionalStmt declared ++
        (match stored with
          | some p => ofPattern .here p
          | none => []) ++
        ofExpr subject ++ ofStmt body)
  | .whileLoop _ test body => ofExpr test ++ ofStmt body
  | .doWhile _ body test => ofStmt body ++ ofExpr test
  | .returning _ value => ofOptional value
  | .throwing _ value => ofExpr value
  | .withObject _ object body => ofExpr object ++ enclosed false (ofStmt body)
  | .switch _ subject cases => ofExpr subject ++ enclosed false (ofCases cases)
  | .guarded _ body parameter handler finalizer =>
    enclosed false (ofStmts body) ++
      enclosed false
        ((match parameter with
            | some p => ofCaught p
            | none => []) ++
          enclosed false (ofStmts handler)) ++
      enclosed false (ofStmts finalizer)
  | .labeled _ body => ofStmt body
  | .importing _ bindings => declareAll .here bindings
  | .exportDefault _ value => ofExpr value
  | .exportDefaultDeclaration _ declaration => ofExpr declaration
  | .exportDeclaration _ declaration => ofStmt declaration
  | .exportNames _ entries source => if source.isNone then exportReferences entries else []
  | .exportAll _ _ => []

/-- The occurrences in statements. -/
def ofStmts : List Stmt → List Occurrence
  | [] => []
  | s :: ss => ofStmt s ++ ofStmts ss

/-- The occurrences in a statement that may be absent. -/
def ofOptionalStmt : Option Stmt → List Occurrence
  | none => []
  | some s => ofStmt s

/-- The occurrences in the parameter of a handler. -/
def ofCaught : Pattern → List Occurrence
  | .binding name => [.declare .shadowing name]
  | .array _ elements => ofPatterns .here elements
  | .object _ properties => ofPatterns .here properties
  | _ => []

/-- The occurrences in declared variables. -/
def ofDeclarators (rule : DeclarationRule) : List Declarator → List Occurrence
  | [] => []
  | .mk _ target init :: ds =>
    ofPattern rule target ++ ofOptional init ++ ofDeclarators rule ds

/-- The occurrences in the cases of a switch. -/
def ofCases : List SwitchCase → List Occurrence
  | [] => []
  | .mk test body :: cs => ofOptional test ++ ofStmts body ++ ofCases cs

end

end ModuleInterop.Scope
