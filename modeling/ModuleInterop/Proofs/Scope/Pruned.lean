import ModuleInterop.Analysis.Truth
import ModuleInterop.Proofs.Scope.Alike

/-!
# A module without the branches that are never taken

The branches of conditions that are known not to be taken are taken out of a module, and all positions
are moved (`Program.pruned`).  Two modules that differ in the contents of such branches, and in where
things stand, are the same when they are pruned.  A branch stays if it declares a name that the module
around it can see, as a variable of the function that the branch stands in.

What stays of the occurrences of a module are those of the pruned one (`thinned_ofStmts`), so a name is
free in one if and only if it is free in the other.
-/

set_option autoImplicit false

namespace ModuleInterop.Syntax

open ModuleInterop.Scope

/-- An entry of an export list at a moved place. -/
def ExternalName.moved (move : Nat → Nat) (name : ExternalName) : ExternalName :=
  { name with span := name.span.moved move }

/-- An entry of an export list at a moved place. -/
def ExportSpecifier.moved (move : Nat → Nat) (s : ExportSpecifier) : ExportSpecifier :=
  ⟨s.inner.moved move, s.exported.moved move⟩

/-- Whether a branch can go: the condition is known to have a value with which the branch is not taken,
and the names that the branch declares are seen in it alone. -/
def branchGoes (known : Option Bool) (dead : Bool) (branch : List Occurrence) : Bool :=
  known == some dead && declaresLocally branch

mutual

/-- An expression without branches that are never taken, its positions moved. -/
def Expr.pruned (move : Nat → Nat) : Expr → Expr
  | .name span text => .name (span.moved move) text
  | .literal span value => .literal (span.moved move) value
  | .this span => .this (span.moved move)
  | .atom span => .atom (span.moved move)
  | .paren span inner => .paren (span.moved move) (inner.pruned move)
  | .unary span op operand => .unary (span.moved move) op (operand.pruned move)
  | .update span target => .update (span.moved move) (target.pruned move)
  | .binary span op left right =>
    .binary (span.moved move) op (left.pruned move) (right.pruned move)
  | .logical span op left right =>
    .logical (span.moved move) op (left.pruned move) (right.pruned move)
  | .conditional span test yes no =>
    .conditional (span.moved move) (test.pruned move)
      (if branchGoes test.truth? false (ofExpr yes) then .atom (yes.span.moved move)
        else yes.pruned move)
      (if branchGoes test.truth? true (ofExpr no) then .atom (no.span.moved move)
        else no.pruned move)
  | .assign span plain target value =>
    .assign (span.moved move) plain (target.pruned move) (value.pruned move)
  | .member span object property => .member (span.moved move) (object.pruned move) property
  | .privateMember span object => .privateMember (span.moved move) (object.pruned move)
  | .index span object key => .index (span.moved move) (object.pruned move) (key.pruned move)
  | .call span callee arguments =>
    .call (span.moved move) (callee.pruned move) (prunedExprs move arguments)
  | .chain span inner => .chain (span.moved move) (inner.pruned move)
  | .template span texts values => .template (span.moved move) texts (prunedExprs move values)
  | .group span kind parts => .group (span.moved move) kind (prunedExprs move parts)
  | .spread span inner => .spread (span.moved move) (inner.pruned move)
  | .hole span => .hole (span.moved move)
  | .array span elements comma =>
    .array (span.moved move) (prunedExprs move elements) (comma.map move)
  | .object span properties comma =>
    .object (span.moved move) (prunedProperties move properties) (comma.map move)
  | .function span form name parameters body =>
    .function (span.moved move) form (name.map (Name.moved move)) (prunedPatterns move parameters)
      (prunedStmts move body)
  | .class span isDeclaration decorators name heritage members =>
    .class (span.moved move) isDeclaration (prunedExprs move decorators)
      (name.map (Name.moved move)) (prunedOptional move heritage) (prunedMembers move members)

/-- Pruned expressions. -/
def prunedExprs (move : Nat → Nat) : List Expr → List Expr
  | [] => []
  | e :: es => e.pruned move :: prunedExprs move es

/-- A pruned expression that may be absent. -/
def prunedOptional (move : Nat → Nat) : Option Expr → Option Expr
  | none => none
  | some e => some (e.pruned move)

/-- A pruned property. -/
def Property.pruned (move : Nat → Nat) : Property → Property
  | .keyed span name computed value =>
    .keyed (span.moved move) name (prunedOptional move computed) (value.pruned move)
  | .shorthand span name default =>
    .shorthand (span.moved move) (name.moved move) (prunedOptional move default)
  | .spread span inner => .spread (span.moved move) (inner.pruned move)

/-- Pruned properties. -/
def prunedProperties (move : Nat → Nat) : List Property → List Property
  | [] => []
  | p :: ps => p.pruned move :: prunedProperties move ps

/-- A pruned pattern. -/
def Pattern.pruned (move : Nat → Nat) : Pattern → Pattern
  | .binding name => .binding (name.moved move)
  | .target place => .target (place.pruned move)
  | .withDefault span inner default =>
    .withDefault (span.moved move) (inner.pruned move) (default.pruned move)
  | .array span elements => .array (span.moved move) (prunedPatterns move elements)
  | .object span properties => .object (span.moved move) (prunedPatterns move properties)
  | .property span computed value =>
    .property (span.moved move) (prunedOptional move computed) (value.pruned move)
  | .shorthand span name default =>
    .shorthand (span.moved move) (name.moved move) (prunedOptional move default)
  | .rest span inner => .rest (span.moved move) (inner.pruned move)

/-- Pruned patterns. -/
def prunedPatterns (move : Nat → Nat) : List Pattern → List Pattern
  | [] => []
  | p :: ps => p.pruned move :: prunedPatterns move ps

/-- A pruned pattern that may be absent. -/
def prunedOptionalPattern (move : Nat → Nat) : Option Pattern → Option Pattern
  | none => none
  | some p => some (p.pruned move)

/-- A pruned member of a class. -/
def Member.pruned (move : Nat → Nat) : Member → Member
  | .method span decorators computed value =>
    .method (span.moved move) (prunedExprs move decorators) (prunedOptional move computed)
      (value.pruned move)
  | .field span decorators computed value =>
    .field (span.moved move) (prunedExprs move decorators) (prunedOptional move computed)
      (prunedOptional move value)
  | .initializer span body => .initializer (span.moved move) (prunedStmts move body)

/-- Pruned members. -/
def prunedMembers (move : Nat → Nat) : List Member → List Member
  | [] => []
  | m :: ms => m.pruned move :: prunedMembers move ms

/-- A statement without branches that are never taken, its positions moved. -/
def Stmt.pruned (move : Nat → Nat) : Stmt → Stmt
  | .expression span value => .expression (span.moved move) (value.pruned move)
  | .directive span => .directive (span.moved move)
  | .variables span kind list => .variables (span.moved move) kind (prunedDeclarators move list)
  | .declaration value => .declaration (value.pruned move)
  | .block span body => .block (span.moved move) (prunedStmts move body)
  | .ifElse span test yes no =>
    .ifElse (span.moved move) (test.pruned move)
      (if branchGoes test.truth? false (ofStmt yes) then .simple (yes.span.moved move)
        else yes.pruned move)
      (if branchGoes test.truth? true (ofOptionalStmt no) then none
        else prunedOptionalStmt move no)
  | .loop span first test update body =>
    .loop (span.moved move) (prunedOptionalStmt move first) (prunedOptional move test)
      (prunedOptional move update) (body.pruned move)
  | .each span declared stored subject body =>
    .each (span.moved move) (prunedOptionalStmt move declared) (prunedOptionalPattern move stored)
      (subject.pruned move) (body.pruned move)
  | .whileLoop span test body => .whileLoop (span.moved move) (test.pruned move) (body.pruned move)
  | .doWhile span body test => .doWhile (span.moved move) (body.pruned move) (test.pruned move)
  | .returning span value => .returning (span.moved move) (prunedOptional move value)
  | .throwing span value => .throwing (span.moved move) (value.pruned move)
  | .simple span => .simple (span.moved move)
  | .withObject span object body =>
    .withObject (span.moved move) (object.pruned move) (body.pruned move)
  | .switch span subject cases =>
    .switch (span.moved move) (subject.pruned move) (prunedCases move cases)
  | .guarded span body parameter handler finalizer =>
    .guarded (span.moved move) (prunedStmts move body) (prunedOptionalPattern move parameter)
      (prunedStmts move handler) (prunedStmts move finalizer)
  | .labeled span body => .labeled (span.moved move) (body.pruned move)
  | .importing span bindings => .importing (span.moved move) (bindings.map (Name.moved move))
  | .exportDefault span value => .exportDefault (span.moved move) (value.pruned move)
  | .exportDefaultDeclaration span declaration =>
    .exportDefaultDeclaration (span.moved move) (declaration.pruned move)
  | .exportDeclaration span declaration =>
    .exportDeclaration (span.moved move) (declaration.pruned move)
  | .exportNames span specifiers source =>
    .exportNames (span.moved move) (specifiers.map (ExportSpecifier.moved move)) source
  | .exportAll span exported =>
    .exportAll (span.moved move) (exported.map (ExternalName.moved move))

/-- Pruned statements. -/
def prunedStmts (move : Nat → Nat) : List Stmt → List Stmt
  | [] => []
  | s :: ss => s.pruned move :: prunedStmts move ss

/-- A pruned statement that may be absent. -/
def prunedOptionalStmt (move : Nat → Nat) : Option Stmt → Option Stmt
  | none => none
  | some s => some (s.pruned move)

/-- A pruned declarator. -/
def Declarator.pruned (move : Nat → Nat) : Declarator → Declarator
  | .mk span target init => .mk (span.moved move) (target.pruned move) (prunedOptional move init)

/-- Pruned declarators. -/
def prunedDeclarators (move : Nat → Nat) : List Declarator → List Declarator
  | [] => []
  | d :: ds => d.pruned move :: prunedDeclarators move ds

/-- A pruned case of a switch. -/
def SwitchCase.pruned (move : Nat → Nat) : SwitchCase → SwitchCase
  | .mk test body => .mk (prunedOptional move test) (prunedStmts move body)

/-- Pruned cases of a switch. -/
def prunedCases (move : Nat → Nat) : List SwitchCase → List SwitchCase
  | [] => []
  | c :: cs => c.pruned move :: prunedCases move cs

end

/-- A module without branches that are never taken, its positions moved. -/
def Program.pruned (move : Nat → Nat) (program : Program) : Program :=
  ⟨prunedStmts move program.body⟩

variable {move : Nat → Nat}

/-! ## Pieces of a pruned module -/

@[simp] theorem Span.moved_id (span : Span) : span.moved id = span := rfl

@[simp] theorem prunedExprs_eq_map (es : List Expr) :
    prunedExprs move es = es.map (Expr.pruned move) := by
  induction es with
  | nil => rfl
  | cons e es ih => rw [prunedExprs, ih, List.map_cons]

@[simp] theorem prunedOptional_eq_map (e : Option Expr) :
    prunedOptional move e = e.map (Expr.pruned move) := by
  cases e <;> rfl

@[simp] theorem prunedProperties_eq_map (ps : List Property) :
    prunedProperties move ps = ps.map (Property.pruned move) := by
  induction ps with
  | nil => rfl
  | cons p ps ih => rw [prunedProperties, ih, List.map_cons]

@[simp] theorem prunedPatterns_eq_map (ps : List Pattern) :
    prunedPatterns move ps = ps.map (Pattern.pruned move) := by
  induction ps with
  | nil => rfl
  | cons p ps ih => rw [prunedPatterns, ih, List.map_cons]

@[simp] theorem prunedOptionalPattern_eq_map (p : Option Pattern) :
    prunedOptionalPattern move p = p.map (Pattern.pruned move) := by
  cases p <;> rfl

@[simp] theorem prunedMembers_eq_map (ms : List Member) :
    prunedMembers move ms = ms.map (Member.pruned move) := by
  induction ms with
  | nil => rfl
  | cons m ms ih => rw [prunedMembers, ih, List.map_cons]

@[simp] theorem prunedStmts_eq_map (ss : List Stmt) :
    prunedStmts move ss = ss.map (Stmt.pruned move) := by
  induction ss with
  | nil => rfl
  | cons s ss ih => rw [prunedStmts, ih, List.map_cons]

@[simp] theorem prunedOptionalStmt_eq_map (s : Option Stmt) :
    prunedOptionalStmt move s = s.map (Stmt.pruned move) := by
  cases s <;> rfl

@[simp] theorem prunedDeclarators_eq_map (ds : List Declarator) :
    prunedDeclarators move ds = ds.map (Declarator.pruned move) := by
  induction ds with
  | nil => rfl
  | cons d ds ih => rw [prunedDeclarators, ih, List.map_cons]

@[simp] theorem prunedCases_eq_map (cs : List SwitchCase) :
    prunedCases move cs = cs.map (SwitchCase.pruned move) := by
  induction cs with
  | nil => rfl
  | cons c cs ih => rw [prunedCases, ih, List.map_cons]

@[simp] theorem Expr.span_pruned (e : Expr) : (e.pruned move).span = e.span.moved move := by
  cases e <;> rfl

/-- A pruned condition is known to have the same value. -/
theorem Expr.literal?_pruned : (e : Expr) → (e.pruned move).literal? = e.literal?
  | .paren _ inner => inner.literal?_pruned
  | .literal _ _ | .name _ _ | .this _ | .atom _ | .hole _ | .unary _ _ _ | .update _ _
  | .binary _ _ _ _ | .logical _ _ _ _ | .conditional _ _ _ _ | .assign _ _ _ _ | .member _ _ _
  | .privateMember _ _ | .index _ _ _ | .call _ _ _ | .chain _ _ | .template _ _ _ | .group _ _ _
  | .spread _ _ | .array _ _ _ | .object _ _ _ | .function _ _ _ _ _ | .class _ _ _ _ _ _ => rfl

@[simp] theorem Expr.truth?_pruned : (e : Expr) → (e.pruned move).truth? = e.truth?
  | .paren _ inner => inner.truth?_pruned
  | .unary _ op operand => by
    cases op with
    | not =>
      rw [Expr.pruned, Expr.truth?, Expr.truth?, operand.truth?_pruned]
    | _ => rfl
  | .binary _ op left right => by
    cases op <;>
      simp [Expr.pruned, Expr.truth?, Expr.equal?, left.literal?_pruned, right.literal?_pruned]
  | .logical _ op left right => by
    cases op <;> simp [Expr.pruned, Expr.truth?, left.truth?_pruned, right.truth?_pruned]
  | .literal _ _ | .name _ _ | .this _ | .atom _ | .hole _ | .update _ _ | .conditional _ _ _ _
  | .assign _ _ _ _ | .member _ _ _ | .privateMember _ _ | .index _ _ _ | .call _ _ _ | .chain _ _
  | .template _ _ _ | .group _ _ _ | .spread _ _ | .array _ _ _ | .object _ _ _
  | .function _ _ _ _ _ | .class _ _ _ _ _ _ => rfl

end ModuleInterop.Syntax

namespace ModuleInterop.Scope

open ModuleInterop.Syntax

variable {move : Nat → Nat}

/-! ## Occurrences in a pruned module -/

namespace Thinned

theorem declareAll (rule : DeclarationRule) (names : List Name) :
    Thinned move (declareAll rule (names.map (Name.moved id))) (declareAll rule names)
      (declareAll rule (names.map (Name.moved move))) := by
  induction names with
  | nil => exact .nil
  | cons name names ih => exact .keep (.declare rule name) ih

theorem declareName (rule : DeclarationRule) (name : Option Name) :
    Thinned move (Scope.declareAll rule (name.map (Name.moved id)).toList)
      (Scope.declareAll rule name.toList)
      (Scope.declareAll rule (name.map (Name.moved move)).toList) := by
  cases name with
  | none => exact .nil
  | some name => exact .single (.declare rule name)

/-- A name that is declared under a condition. -/
theorem declareIf {condition : Prop} [Decidable condition] (rule : DeclarationRule)
    (name : Option Name) :
    Thinned move (if condition then Scope.declareAll rule (name.map (Name.moved id)).toList else [])
      (if condition then Scope.declareAll rule name.toList else [])
      (if condition then Scope.declareAll rule (name.map (Name.moved move)).toList else []) := by
  split
  · exact declareName rule name
  · exact .nil

/-- A name that is declared unless a condition holds. -/
theorem declareUnless {condition : Prop} [Decidable condition] (rule : DeclarationRule)
    (name : Option Name) :
    Thinned move (if condition then [] else Scope.declareAll rule (name.map (Name.moved id)).toList)
      (if condition then [] else Scope.declareAll rule name.toList)
      (if condition then [] else Scope.declareAll rule (name.map (Name.moved move)).toList) := by
  split
  · exact .nil
  · exact declareName rule name

theorem exportReferences (entries : List ExportSpecifier) :
    Thinned move (exportReferences (entries.map (ExportSpecifier.moved id)))
      (exportReferences entries) (exportReferences (entries.map (ExportSpecifier.moved move))) := by
  induction entries with
  | nil => exact .nil
  | cons entry entries ih =>
    simp only [List.map_cons, Scope.exportReferences]
    cases named : entry.inner.isString with
    | true => simpa [ExportSpecifier.moved, ExternalName.moved, named] using ih
    | false =>
      simpa [ExportSpecifier.moved, ExternalName.moved, named, Span.moved, Occurrence.moved] using
        ih.keep (.refer entry.inner.span.start entry.inner.text false)

/-- A branch stays, or something without occurrences stands in its place. -/
theorem branch {α : Type} {of : α → List Occurrence} {known : Option Bool} {dead : Bool}
    {kept thin empty empty' : α} {whole : List Occurrence} (h : Thinned move (of kept) whole (of thin))
    (nothing : of empty = []) (nothing' : of empty' = []) :
    Thinned move (of (if branchGoes known dead whole then empty else kept)) whole
      (of (if branchGoes known dead whole then empty' else thin)) := by
  split
  · rename_i goes
    rw [nothing, nothing']
    exact .left ((Bool.and_eq_true _ _).mp goes).2
  · exact h

end Thinned

mutual

/-- What stays of the occurrences in an expression. -/
theorem thinned_ofExpr :
    (e : Expr) → Thinned move (ofExpr (e.pruned id)) (ofExpr e) (ofExpr (e.pruned move))
  | .name _ _ => .single _
  | .this _ => .single _
  | .literal _ _ | .atom _ | .hole _ => .nil
  | .paren _ inner => thinned_ofExpr inner
  | .unary _ _ operand => thinned_ofExpr operand
  | .update _ target => thinned_ofPlace target
  | .binary _ _ left right => (thinned_ofExpr left).append (thinned_ofExpr right)
  | .logical _ _ left right => (thinned_ofExpr left).append (thinned_ofExpr right)
  | .conditional _ test yes no =>
    ((thinned_ofExpr test).append ((thinned_ofExpr yes).branch rfl rfl)).append
      ((thinned_ofExpr no).branch rfl rfl)
  | .assign _ _ target value => (thinned_ofPattern .here target).append (thinned_ofExpr value)
  | .member _ object _ => thinned_ofExpr object
  | .privateMember _ object => thinned_ofExpr object
  | .index _ object key => (thinned_ofExpr object).append (thinned_ofExpr key)
  | .call _ callee arguments => (thinned_ofExpr callee).append (thinned_ofExprs arguments)
  | .chain _ inner => thinned_ofExpr inner
  | .template _ _ values => thinned_ofExprs values
  | .group _ _ parts => thinned_ofExprs parts
  | .spread _ inner => thinned_ofExpr inner
  | .array _ elements _ => thinned_ofExprs elements
  | .object _ properties _ => thinned_ofProperties properties
  | .function _ _ name parameters body =>
    (Thinned.declareIf _ name).append (.scope _ ((((Thinned.declareUnless _ name).append
      (thinned_ofPatterns .here parameters)).append (.single .settle)).append
        (thinned_ofStmts body)))
  | .class _ _ decorators name heritage members =>
    ((thinned_ofExprs decorators).append (Thinned.declareIf _ name)).append
      (.scope _ (((Thinned.declareUnless _ name).append (thinned_ofOptional heritage)).append
        (thinned_ofMembers members)))

/-- What stays of the occurrences in an expression that is stored to. -/
theorem thinned_ofPlace :
    (e : Expr) → Thinned move (ofPlace (e.pruned id)) (ofPlace e) (ofPlace (e.pruned move))
  | .name _ _ => .single _
  | .member _ object _ => thinned_ofExpr object
  | .privateMember _ object => thinned_ofExpr object
  | .index _ object key => (thinned_ofExpr object).append (thinned_ofExpr key)
  | .this _ | .literal _ _ | .atom _ | .hole _ | .paren _ _ | .unary _ _ _ | .update _ _
  | .binary _ _ _ _ | .logical _ _ _ _ | .conditional _ _ _ _ | .assign _ _ _ _ | .call _ _ _
  | .chain _ _ | .template _ _ _ | .group _ _ _ | .spread _ _ | .array _ _ _ | .object _ _ _
  | .function _ _ _ _ _ | .class _ _ _ _ _ _ => .nil

/-- What stays of the occurrences in expressions. -/
theorem thinned_ofExprs : (es : List Expr) →
    Thinned move (ofExprs (prunedExprs id es)) (ofExprs es) (ofExprs (prunedExprs move es))
  | [] => .nil
  | e :: es => (thinned_ofExpr e).append (thinned_ofExprs es)

/-- What stays of the occurrences in an expression that may be absent. -/
theorem thinned_ofOptional : (e : Option Expr) →
    Thinned move (ofOptional (prunedOptional id e)) (ofOptional e)
      (ofOptional (prunedOptional move e))
  | none => .nil
  | some e => thinned_ofExpr e

/-- What stays of the occurrences in properties. -/
theorem thinned_ofProperties : (ps : List Property) →
    Thinned move (ofProperties (prunedProperties id ps)) (ofProperties ps)
      (ofProperties (prunedProperties move ps))
  | [] => .nil
  | .keyed _ _ computed value :: ps =>
    ((thinned_ofOptional computed).append (thinned_ofExpr value)).append (thinned_ofProperties ps)
  | .shorthand _ _ _ :: ps => .keep _ (thinned_ofProperties ps)
  | .spread _ inner :: ps => (thinned_ofExpr inner).append (thinned_ofProperties ps)

/-- What stays of the occurrences in a pattern. -/
theorem thinned_ofPattern (rule : DeclarationRule) : (p : Pattern) →
    Thinned move (ofPattern rule (p.pruned id)) (ofPattern rule p) (ofPattern rule (p.pruned move))
  | .binding _ => .single _
  | .target place => thinned_ofPlace place
  | .withDefault _ inner default =>
    (thinned_ofPattern rule inner).append (thinned_ofExpr default)
  | .array _ elements => thinned_ofPatterns rule elements
  | .object _ properties => thinned_ofPatterns rule properties
  | .property _ computed value =>
    (thinned_ofOptional computed).append (thinned_ofPattern rule value)
  | .shorthand _ _ default => .keep _ (thinned_ofOptional default)
  | .rest _ inner => thinned_ofPattern rule inner

/-- What stays of the occurrences in patterns. -/
theorem thinned_ofPatterns (rule : DeclarationRule) : (ps : List Pattern) →
    Thinned move (ofPatterns rule (prunedPatterns id ps)) (ofPatterns rule ps)
      (ofPatterns rule (prunedPatterns move ps))
  | [] => .nil
  | p :: ps => (thinned_ofPattern rule p).append (thinned_ofPatterns rule ps)

/-- What stays of the occurrences in the members of a class. -/
theorem thinned_ofMembers : (ms : List Member) →
    Thinned move (ofMembers (prunedMembers id ms)) (ofMembers ms) (ofMembers (prunedMembers move ms))
  | [] => .nil
  | .method _ decorators computed value :: ms =>
    (((thinned_ofExprs decorators).append (thinned_ofOptional computed)).append
      (thinned_ofExpr value)).append (thinned_ofMembers ms)
  | .field _ decorators computed value :: ms =>
    (((thinned_ofExprs decorators).append (thinned_ofOptional computed)).append
      (thinned_ofOptional value)).append (thinned_ofMembers ms)
  | .initializer _ body :: ms => (Thinned.scope _ (thinned_ofStmts body)).append (thinned_ofMembers ms)

/-- What stays of the occurrences in a statement. -/
theorem thinned_ofStmt :
    (s : Stmt) → Thinned move (ofStmt (s.pruned id)) (ofStmt s) (ofStmt (s.pruned move))
  | .expression _ value => thinned_ofExpr value
  | .directive _ | .simple _ => .nil
  | .variables _ kind list => thinned_ofDeclarators (ruleOf kind) list
  | .declaration value => thinned_ofExpr value
  | .block _ body => .scope _ (thinned_ofStmts body)
  | .ifElse _ test yes no =>
    ((thinned_ofExpr test).append ((thinned_ofStmt yes).branch rfl rfl)).append
      ((thinned_ofOptionalStmt no).branch rfl rfl)
  | .loop _ first test update body =>
    .scope _ ((((thinned_ofOptionalStmt first).append (thinned_ofOptional test)).append
      (thinned_ofOptional update)).append (thinned_ofStmt body))
  | .each _ declared none subject body =>
    .scope _ ((((thinned_ofOptionalStmt declared).append .nil).append
      (thinned_ofExpr subject)).append (thinned_ofStmt body))
  | .each _ declared (some stored) subject body =>
    .scope _ ((((thinned_ofOptionalStmt declared).append (thinned_ofPattern .here stored)).append
      (thinned_ofExpr subject)).append (thinned_ofStmt body))
  | .whileLoop _ test body => (thinned_ofExpr test).append (thinned_ofStmt body)
  | .doWhile _ body test => (thinned_ofStmt body).append (thinned_ofExpr test)
  | .returning _ value => thinned_ofOptional value
  | .throwing _ value => thinned_ofExpr value
  | .withObject _ object body => (thinned_ofExpr object).append (.scope _ (thinned_ofStmt body))
  | .switch _ subject cases => (thinned_ofExpr subject).append (.scope _ (thinned_ofCases cases))
  | .guarded _ body none handler finalizer =>
    ((Thinned.scope _ (thinned_ofStmts body)).append
      (.scope _ (Thinned.nil.append (.scope _ (thinned_ofStmts handler))))).append
      (.scope _ (thinned_ofStmts finalizer))
  | .guarded _ body (some parameter) handler finalizer =>
    ((Thinned.scope _ (thinned_ofStmts body)).append
      (.scope _ ((thinned_ofCaught parameter).append (.scope _ (thinned_ofStmts handler))))).append
      (.scope _ (thinned_ofStmts finalizer))
  | .labeled _ body => thinned_ofStmt body
  | .importing _ bindings => .declareAll _ bindings
  | .exportDefault _ value => thinned_ofExpr value
  | .exportDefaultDeclaration _ declaration => thinned_ofExpr declaration
  | .exportDeclaration _ declaration => thinned_ofStmt declaration
  | .exportNames _ entries none => .exportReferences entries
  | .exportNames _ _ (some _) => .nil
  | .exportAll _ _ => .nil

/-- What stays of the occurrences in statements. -/
theorem thinned_ofStmts : (ss : List Stmt) →
    Thinned move (ofStmts (prunedStmts id ss)) (ofStmts ss) (ofStmts (prunedStmts move ss))
  | [] => .nil
  | s :: ss => (thinned_ofStmt s).append (thinned_ofStmts ss)

/-- What stays of the occurrences in a statement that may be absent. -/
theorem thinned_ofOptionalStmt : (s : Option Stmt) →
    Thinned move (ofOptionalStmt (prunedOptionalStmt id s)) (ofOptionalStmt s)
      (ofOptionalStmt (prunedOptionalStmt move s))
  | none => .nil
  | some s => thinned_ofStmt s

/-- What stays of the occurrences in the parameter of a handler. -/
theorem thinned_ofCaught :
    (p : Pattern) → Thinned move (ofCaught (p.pruned id)) (ofCaught p) (ofCaught (p.pruned move))
  | .binding _ => .single _
  | .array _ elements => thinned_ofPatterns .here elements
  | .object _ properties => thinned_ofPatterns .here properties
  | .target _ | .withDefault _ _ _ | .property _ _ _ | .shorthand _ _ _ | .rest _ _ => .nil

/-- What stays of the occurrences in declared variables. -/
theorem thinned_ofDeclarators (rule : DeclarationRule) : (ds : List Declarator) →
    Thinned move (ofDeclarators rule (prunedDeclarators id ds)) (ofDeclarators rule ds)
      (ofDeclarators rule (prunedDeclarators move ds))
  | [] => .nil
  | .mk _ target init :: ds =>
    ((thinned_ofPattern rule target).append (thinned_ofOptional init)).append
      (thinned_ofDeclarators rule ds)

/-- What stays of the occurrences in the cases of a switch. -/
theorem thinned_ofCases : (cs : List SwitchCase) →
    Thinned move (ofCases (prunedCases id cs)) (ofCases cs) (ofCases (prunedCases move cs))
  | [] => .nil
  | .mk test body :: cs =>
    ((thinned_ofOptional test).append (thinned_ofStmts body)).append (thinned_ofCases cs)

end

end ModuleInterop.Scope
