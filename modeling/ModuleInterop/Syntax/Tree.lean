import ModuleInterop.Syntax.Token

/-!
# Syntax trees

The tree of a module: expressions, patterns and statements with their spans.  Forms that no pass
treats specially share one constructor (`Expr.group`); forms without parts that refer to nothing
share another (`Expr.atom`).  A pattern stands wherever a value is taken apart: its leaves are new
bindings in a declaration (`Pattern.binding`) and places to store to in an assignment
(`Pattern.target`).
-/

set_option autoImplicit false

namespace ModuleInterop.Syntax

/-- A name that a declaration binds, with its place. -/
structure Name where
  span : Span
  text : String
  deriving DecidableEq, Repr

/-- Operators before an operand. -/
inductive UnaryOp where
  | plus | minus | complement | not | typeof | void | delete
  deriving DecidableEq, Repr

/-- Operators between two operands that evaluate both; `other` stands for those that neither compare
for equality nor join conditions. -/
inductive BinaryOp where
  | equal | notEqual | equalStrict | notEqualStrict | other
  deriving DecidableEq, Repr

/-- Operators that evaluate their second operand only if the first one does not decide. -/
inductive LogicalOp where
  | and | or | coalesce
  deriving DecidableEq, Repr

/-- Expressions whose parts are evaluated in order and that have no further meaning here. -/
inductive GroupKind where
  | sequence | taggedTemplate | new | importCall | await | yield
  deriving DecidableEq, Repr

/-- How a function is written. -/
inductive FunctionForm where
  | declaration | expression | method
  /-- An arrow function; `short` if its body is an expression. -/
  | arrow (short : Bool)
  deriving DecidableEq, Repr

/-- How variables are declared. -/
inductive VariableKind where
  | var | lexical (constant : Bool)
  deriving DecidableEq, Repr

/-- A name in an import or export list: an identifier or a string. -/
structure ExternalName where
  span : Span
  text : String
  isString : Bool
  deriving DecidableEq, Repr

/-- One entry of an export list. -/
structure ExportSpecifier where
  inner : ExternalName
  exported : ExternalName
  deriving DecidableEq, Repr

mutual

/-- Expressions. -/
inductive Expr where
  /-- A reference to a binding. -/
  | name (span : Span) (text : String)
  | literal (span : Span) (value : Literal)
  | this (span : Span)
  /-- The words `super`, `new.target` and `import.meta`. -/
  | atom (span : Span)
  | paren (span : Span) (inner : Expr)
  | unary (span : Span) (op : UnaryOp) (operand : Expr)
  /-- An increment or decrement of a name or a member. -/
  | update (span : Span) (target : Expr)
  | binary (span : Span) (op : BinaryOp) (left right : Expr)
  | logical (span : Span) (op : LogicalOp) (left right : Expr)
  | conditional (span : Span) (test yes no : Expr)
  /-- An assignment; `plain` unless its operator also reads the target. -/
  | assign (span : Span) (plain : Bool) (target : Pattern) (value : Expr)
  | member (span : Span) (object : Expr) (property : String)
  | privateMember (span : Span) (object : Expr)
  | index (span : Span) (object key : Expr)
  | call (span : Span) (callee : Expr) (arguments : List Expr)
  /-- A chain of accesses and calls of which one is optional. -/
  | chain (span : Span) (inner : Expr)
  | template (span : Span) (texts : List (Option String)) (values : List Expr)
  | group (span : Span) (kind : GroupKind) (parts : List Expr)
  /-- An element of an array or of an argument list that stands for several. -/
  | spread (span : Span) (inner : Expr)
  /-- An element that an array leaves out. -/
  | hole (span : Span)
  | array (span : Span) (elements : List Expr) (trailingComma : Option Nat)
  | object (span : Span) (properties : List Property) (trailingComma : Option Nat)
  | function (span : Span) (form : FunctionForm) (name : Option Name) (parameters : List Pattern)
      (body : List Stmt)
  | «class» (span : Span) (isDeclaration : Bool) (decorators : List Expr) (name : Option Name)
      (heritage : Option Expr) (members : List Member)

/-- Properties of an object.  A key is an identifier, whose text is kept, or an expression in
brackets; of a string or number key nothing is kept. -/
inductive Property where
  | keyed (span : Span) (name : Option String) (computed : Option Expr) (value : Expr)
  /-- A name that is key and value at once, with the default it has where it is a target. -/
  | shorthand (span : Span) (name : Name) (default : Option Expr)
  | spread (span : Span) (inner : Expr)

/-- Patterns. -/
inductive Pattern where
  | binding (name : Name)
  /-- A name or a member that is stored to. -/
  | target (place : Expr)
  | withDefault (span : Span) (inner : Pattern) (default : Expr)
  | array (span : Span) (elements : List Pattern)
  | object (span : Span) (properties : List Pattern)
  /-- A property of an object pattern. -/
  | property (span : Span) (computed : Option Expr) (value : Pattern)
  /-- A property of an object pattern whose name is stored to. -/
  | shorthand (span : Span) (name : Name) (default : Option Expr)
  | rest (span : Span) (inner : Pattern)

/-- Members of a class. -/
inductive Member where
  | method (span : Span) (decorators : List Expr) (computed : Option Expr) (value : Expr)
  | field (span : Span) (decorators : List Expr) (computed : Option Expr) (value : Option Expr)
  | initializer (span : Span) (body : List Stmt)

/-- Statements. -/
inductive Stmt where
  | expression (span : Span) (value : Expr)
  /-- A string that stands as a statement at the beginning of a body. -/
  | directive (span : Span)
  | variables (span : Span) (kind : VariableKind) (declarators : List Declarator)
  /-- The declaration of a function or a class. -/
  | declaration (value : Expr)
  | block (span : Span) (body : List Stmt)
  | ifElse (span : Span) (test : Expr) (yes : Stmt) (no : Option Stmt)
  /-- A loop with a head of three parts; the first one is given as a statement. -/
  | loop (span : Span) (first : Option Stmt) (test update : Option Expr) (body : Stmt)
  /-- A loop over properties or elements that declares its variable, or stores to a pattern. -/
  | each (span : Span) (declared : Option Stmt) (stored : Option Pattern) (subject : Expr)
      (body : Stmt)
  | whileLoop (span : Span) (test : Expr) (body : Stmt)
  | doWhile (span : Span) (body : Stmt) (test : Expr)
  | returning (span : Span) (value : Option Expr)
  | throwing (span : Span) (value : Expr)
  /-- A statement without parts: empty, a jump, or a breakpoint. -/
  | simple (span : Span)
  | withObject (span : Span) (object : Expr) (body : Stmt)
  | switch (span : Span) (subject : Expr) (cases : List SwitchCase)
  /-- A guarded block; a clause that is absent has no parameter and no statements. -/
  | guarded (span : Span) (body : List Stmt) (parameter : Option Pattern) (handler : List Stmt)
      (finalizer : List Stmt)
  | labeled (span : Span) (body : Stmt)
  | importing (span : Span) (bindings : List Name)
  | exportDefault (span : Span) (value : Expr)
  | exportDefaultDeclaration (span : Span) (declaration : Expr)
  | exportDeclaration (span : Span) (declaration : Stmt)
  /-- An export list; `source` is the module it takes the names from. -/
  | exportNames (span : Span) (specifiers : List ExportSpecifier) (source : Option String)
  | exportAll (span : Span) (exported : Option ExternalName)

/-- Variables with their initial value. -/
inductive Declarator where
  | mk (span : Span) (target : Pattern) (init : Option Expr)

/-- Cases of a switch. -/
inductive SwitchCase where
  | mk (test : Option Expr) (body : List Stmt)

end

/-- The span of an expression. -/
def Expr.span : Expr → Span
  | .name s _ | .literal s _ | .this s | .atom s | .paren s _ | .unary s _ _ | .update s _
  | .binary s _ _ _ | .logical s _ _ _ | .conditional s _ _ _ | .assign s _ _ _ | .member s _ _
  | .privateMember s _ | .index s _ _ | .call s _ _ | .chain s _ | .template s _ _ | .group s _ _
  | .spread s _ | .hole s | .array s _ _ | .object s _ _ | .function s _ _ _ _
  | .class s _ _ _ _ _ => s

/-- The span of a pattern. -/
def Pattern.span : Pattern → Span
  | .binding n => n.span
  | .target e => e.span
  | .withDefault s _ _ | .array s _ | .object s _ | .property s _ _ | .shorthand s _ _
  | .rest s _ => s

/-- The span of a statement. -/
def Stmt.span : Stmt → Span
  | .expression s _ | .directive s | .variables s _ _ | .block s _ | .ifElse s _ _ _
  | .loop s _ _ _ _ | .each s _ _ _ _ | .whileLoop s _ _ | .doWhile s _ _ | .returning s _
  | .throwing s _ | .simple s | .withObject s _ _ | .switch s _ _ | .guarded s _ _ _ _
  | .labeled s _ | .importing s _ | .exportDefault s _ | .exportDefaultDeclaration s _
  | .exportDeclaration s _ | .exportNames s _ _ | .exportAll s _ => s
  | .declaration e => e.span

mutual

/-- The names that a pattern binds, in order. -/
def Pattern.names : Pattern → List Name
  | .binding name => [name]
  | .withDefault _ inner _ => inner.names
  | .array _ elements => Pattern.allNames elements
  | .object _ properties => Pattern.allNames properties
  | .property _ _ value => value.names
  | .rest _ inner => inner.names
  | .target _ | .shorthand _ _ _ => []

/-- The names that patterns bind, in order. -/
def Pattern.allNames : List Pattern → List Name
  | [] => []
  | pattern :: others => pattern.names ++ Pattern.allNames others

end

/-- A module: its statements in order. -/
structure Program where
  body : List Stmt

end ModuleInterop.Syntax
