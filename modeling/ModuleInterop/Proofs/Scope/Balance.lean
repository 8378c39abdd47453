import ModuleInterop.Scope.Occurrence

/-!
# Scopes end where they should

In the occurrences of a module each scope that begins also ends, and scopes do not cross
(`balanced_ofStmts`).  Reading them therefore leaves the open scopes as they were.
-/

set_option autoImplicit false

namespace ModuleInterop.Scope

open ModuleInterop.Syntax

/-- Whether an occurrence neither begins nor ends a scope. -/
def Occurrence.isInner : Occurrence → Bool
  | .enter _ | .leave => false
  | _ => true

/-- Occurrences in which each scope that begins ends. -/
inductive Balanced : List Occurrence → Prop
  | nil : Balanced []
  | cons {occurrence : Occurrence} {others : List Occurrence} : occurrence.isInner = true →
      Balanced others → Balanced (occurrence :: others)
  | enclosed {holdsVars : Bool} {inside others : List Occurrence} : Balanced inside →
      Balanced others → Balanced (enclosed holdsVars inside ++ others)

namespace Balanced

/-- One balanced part after the other. -/
theorem append {first second : List Occurrence} (h : Balanced first) (h' : Balanced second) :
    Balanced (first ++ second) := by
  induction h with
  | nil => exact h'
  | cons inner _ ih => exact .cons inner ih
  | enclosed inside _ _ ih =>
    rw [List.append_assoc]
    exact .enclosed inside ih

/-- A scope of its own. -/
theorem scope {inside : List Occurrence} (holdsVars : Bool) (h : Balanced inside) :
    Balanced (Scope.enclosed holdsVars inside) := by
  rw [← List.append_nil (Scope.enclosed holdsVars inside)]
  exact .enclosed h .nil

/-- An occurrence that neither begins nor ends a scope. -/
theorem single {occurrence : Occurrence} (inner : occurrence.isInner = true) :
    Balanced [occurrence] := .cons inner .nil

/-- Declarations begin no scope. -/
theorem declareAll (rule : DeclarationRule) (names : List Name) :
    Balanced (declareAll rule names) := by
  unfold Scope.declareAll
  induction names with
  | nil => exact .nil
  | cons name names ih => exact .cons rfl ih

/-- The entries of an export list begin no scope. -/
theorem exportReferences (entries : List ExportSpecifier) :
    Balanced (exportReferences entries) := by
  induction entries with
  | nil => exact .nil
  | cons entry entries ih =>
    unfold Scope.exportReferences
    split
    · exact ih
    · exact .cons rfl ih

/-- Declarations that are there under a condition. -/
theorem declareIf {condition : Prop} [Decidable condition] (rule : DeclarationRule)
    (names : List Name) : Balanced (if condition then Scope.declareAll rule names else []) := by
  split
  · exact declareAll rule names
  · exact .nil

/-- Declarations that are there unless a condition holds. -/
theorem declareUnless {condition : Prop} [Decidable condition] (rule : DeclarationRule)
    (names : List Name) : Balanced (if condition then [] else Scope.declareAll rule names) := by
  split
  · exact .nil
  · exact declareAll rule names

end Balanced

mutual

/-- Scopes are balanced in expressions. -/
theorem balanced_ofExpr : (e : Expr) → Balanced (ofExpr e)
  | .name _ _ => .single rfl
  | .this _ => .single rfl
  | .literal _ _ | .atom _ | .hole _ => .nil
  | .paren _ inner => balanced_ofExpr inner
  | .unary _ _ operand => balanced_ofExpr operand
  | .update _ target => balanced_ofPlace target
  | .binary _ _ left right => (balanced_ofExpr left).append (balanced_ofExpr right)
  | .logical _ _ left right => (balanced_ofExpr left).append (balanced_ofExpr right)
  | .conditional _ test yes no =>
    ((balanced_ofExpr test).append (balanced_ofExpr yes)).append (balanced_ofExpr no)
  | .assign _ _ target value => (balanced_ofPattern .here target).append (balanced_ofExpr value)
  | .member _ object _ => balanced_ofExpr object
  | .privateMember _ object => balanced_ofExpr object
  | .index _ object key => (balanced_ofExpr object).append (balanced_ofExpr key)
  | .call _ callee arguments => (balanced_ofExpr callee).append (balanced_ofExprs arguments)
  | .chain _ inner => balanced_ofExpr inner
  | .template _ _ values => balanced_ofExprs values
  | .group _ _ parts => balanced_ofExprs parts
  | .spread _ inner => balanced_ofExpr inner
  | .array _ elements _ => balanced_ofExprs elements
  | .object _ properties _ => balanced_ofProperties properties
  | .function _ _ _ parameters body =>
    (Balanced.declareIf _ _).append (.scope _ ((((Balanced.declareUnless _ _).append
      (balanced_ofPatterns .here parameters)).append (.single rfl)).append (balanced_ofStmts body)))
  | .class _ _ decorators _ heritage members =>
    ((balanced_ofExprs decorators).append (Balanced.declareIf _ _)).append
      (.scope _ (((Balanced.declareUnless _ _).append (balanced_ofOptional heritage)).append
        (balanced_ofMembers members)))

/-- Scopes are balanced in expressions that are stored to. -/
theorem balanced_ofPlace : (e : Expr) → Balanced (ofPlace e)
  | .name _ _ => .single rfl
  | .member _ object _ => balanced_ofExpr object
  | .privateMember _ object => balanced_ofExpr object
  | .index _ object key => (balanced_ofExpr object).append (balanced_ofExpr key)
  | .this _ | .literal _ _ | .atom _ | .hole _ | .paren _ _ | .unary _ _ _ | .update _ _
  | .binary _ _ _ _ | .logical _ _ _ _ | .conditional _ _ _ _ | .assign _ _ _ _ | .call _ _ _
  | .chain _ _ | .template _ _ _ | .group _ _ _ | .spread _ _ | .array _ _ _ | .object _ _ _
  | .function _ _ _ _ _ | .class _ _ _ _ _ _ => .nil

/-- Scopes are balanced in lists of expressions. -/
theorem balanced_ofExprs : (es : List Expr) → Balanced (ofExprs es)
  | [] => .nil
  | e :: es => (balanced_ofExpr e).append (balanced_ofExprs es)

/-- Scopes are balanced in expressions that may be absent. -/
theorem balanced_ofOptional : (e : Option Expr) → Balanced (ofOptional e)
  | none => .nil
  | some e => balanced_ofExpr e

/-- Scopes are balanced in properties. -/
theorem balanced_ofProperties : (ps : List Property) → Balanced (ofProperties ps)
  | [] => .nil
  | .keyed _ _ computed value :: ps =>
    ((balanced_ofOptional computed).append (balanced_ofExpr value)).append
      (balanced_ofProperties ps)
  | .shorthand _ _ _ :: ps => .cons rfl (balanced_ofProperties ps)
  | .spread _ inner :: ps => (balanced_ofExpr inner).append (balanced_ofProperties ps)

/-- Scopes are balanced in patterns. -/
theorem balanced_ofPattern (rule : DeclarationRule) : (p : Pattern) → Balanced (ofPattern rule p)
  | .binding _ => .single rfl
  | .target place => balanced_ofPlace place
  | .withDefault _ inner default =>
    (balanced_ofPattern rule inner).append (balanced_ofExpr default)
  | .array _ elements => balanced_ofPatterns rule elements
  | .object _ properties => balanced_ofPatterns rule properties
  | .property _ computed value =>
    (balanced_ofOptional computed).append (balanced_ofPattern rule value)
  | .shorthand _ _ default => .cons rfl (balanced_ofOptional default)
  | .rest _ inner => balanced_ofPattern rule inner

/-- Scopes are balanced in lists of patterns. -/
theorem balanced_ofPatterns (rule : DeclarationRule) :
    (ps : List Pattern) → Balanced (ofPatterns rule ps)
  | [] => .nil
  | p :: ps => (balanced_ofPattern rule p).append (balanced_ofPatterns rule ps)

/-- Scopes are balanced in the members of a class. -/
theorem balanced_ofMembers : (ms : List Member) → Balanced (ofMembers ms)
  | [] => .nil
  | .method _ decorators computed value :: ms =>
    (((balanced_ofExprs decorators).append (balanced_ofOptional computed)).append
      (balanced_ofExpr value)).append (balanced_ofMembers ms)
  | .field _ decorators computed value :: ms =>
    (((balanced_ofExprs decorators).append (balanced_ofOptional computed)).append
      (balanced_ofOptional value)).append (balanced_ofMembers ms)
  | .initializer _ body :: ms => .enclosed (balanced_ofStmts body) (balanced_ofMembers ms)

/-- Scopes are balanced in statements. -/
theorem balanced_ofStmt : (s : Stmt) → Balanced (ofStmt s)
  | .expression _ value => balanced_ofExpr value
  | .directive _ | .simple _ => .nil
  | .variables _ kind list => balanced_ofDeclarators (ruleOf kind) list
  | .declaration value => balanced_ofExpr value
  | .block _ body => .scope _ (balanced_ofStmts body)
  | .ifElse _ test yes no =>
    ((balanced_ofExpr test).append (balanced_ofStmt yes)).append (balanced_ofOptionalStmt no)
  | .loop _ first test update body =>
    .scope _ ((((balanced_ofOptionalStmt first).append (balanced_ofOptional test)).append
      (balanced_ofOptional update)).append (balanced_ofStmt body))
  | .each _ declared none subject body =>
    .scope _ ((((balanced_ofOptionalStmt declared).append .nil).append
      (balanced_ofExpr subject)).append (balanced_ofStmt body))
  | .each _ declared (some stored) subject body =>
    .scope _ ((((balanced_ofOptionalStmt declared).append (balanced_ofPattern .here stored)).append
      (balanced_ofExpr subject)).append (balanced_ofStmt body))
  | .whileLoop _ test body => (balanced_ofExpr test).append (balanced_ofStmt body)
  | .doWhile _ body test => (balanced_ofStmt body).append (balanced_ofExpr test)
  | .returning _ value => balanced_ofOptional value
  | .throwing _ value => balanced_ofExpr value
  | .withObject _ object body =>
    (balanced_ofExpr object).append (.scope _ (balanced_ofStmt body))
  | .switch _ subject cases => (balanced_ofExpr subject).append (.scope _ (balanced_ofCases cases))
  | .guarded _ body none handler finalizer =>
    ((Balanced.scope _ (balanced_ofStmts body)).append
      (.scope _ (Balanced.nil.append (.scope _ (balanced_ofStmts handler))))).append
      (.scope _ (balanced_ofStmts finalizer))
  | .guarded _ body (some parameter) handler finalizer =>
    ((Balanced.scope _ (balanced_ofStmts body)).append
      (.scope _ ((balanced_ofCaught parameter).append (.scope _ (balanced_ofStmts handler))))).append
      (.scope _ (balanced_ofStmts finalizer))
  | .labeled _ body => balanced_ofStmt body
  | .importing _ bindings => .declareAll _ bindings
  | .exportDefault _ value => balanced_ofExpr value
  | .exportDefaultDeclaration _ declaration => balanced_ofExpr declaration
  | .exportDeclaration _ declaration => balanced_ofStmt declaration
  | .exportNames _ entries none => .exportReferences entries
  | .exportNames _ _ (some _) => .nil
  | .exportAll _ _ => .nil

/-- Scopes are balanced in lists of statements. -/
theorem balanced_ofStmts : (ss : List Stmt) → Balanced (ofStmts ss)
  | [] => .nil
  | s :: ss => (balanced_ofStmt s).append (balanced_ofStmts ss)

/-- Scopes are balanced in statements that may be absent. -/
theorem balanced_ofOptionalStmt : (s : Option Stmt) → Balanced (ofOptionalStmt s)
  | none => .nil
  | some s => balanced_ofStmt s

/-- Scopes are balanced in the parameter of a handler. -/
theorem balanced_ofCaught : (p : Pattern) → Balanced (ofCaught p)
  | .binding _ => .single rfl
  | .array _ elements => balanced_ofPatterns .here elements
  | .object _ properties => balanced_ofPatterns .here properties
  | .target _ | .withDefault _ _ _ | .property _ _ _ | .shorthand _ _ _ | .rest _ _ => .nil

/-- Scopes are balanced in declared variables. -/
theorem balanced_ofDeclarators (rule : DeclarationRule) :
    (ds : List Declarator) → Balanced (ofDeclarators rule ds)
  | [] => .nil
  | .mk _ target init :: ds =>
    ((balanced_ofPattern rule target).append (balanced_ofOptional init)).append
      (balanced_ofDeclarators rule ds)

/-- Scopes are balanced in the cases of a switch. -/
theorem balanced_ofCases : (cs : List SwitchCase) → Balanced (ofCases cs)
  | [] => .nil
  | .mk test body :: cs =>
    ((balanced_ofOptional test).append (balanced_ofStmts body)).append (balanced_ofCases cs)

end

end ModuleInterop.Scope
