import ModuleInterop.Usage.Basic
import ModuleInterop.Analysis.Truth

/-!
# Nodes of a syntax tree

Statements, expressions, patterns and the other pieces of a module as nodes of one tree: a node has
parts (`Node.parts`), and the nodes of a module are what its statements lead to from part to part
(`Program.Reaches`).  The relation takes two parameters: what is known beforehand about conditions,
so that branches which cannot be taken are left out, and which nodes are entered at all.

* `Program.Live` : the node does not stand in a branch that is known not to be taken;
* `Program.Outer` : the node stands outside all functions and classes.

An expression is a node together with its place, and it is recorded whether the statement that it is
all of is the body of an arrow function without braces.
-/

set_option autoImplicit false

namespace ModuleInterop.Syntax

open ModuleInterop.Usage

/-- A piece of a module, with what its surroundings say about it. -/
inductive Node where
  /-- An expression at a place; `concise` if it is the body of an arrow function. -/
  | expr (place : Place) (concise : Bool) (e : Expr)
  | property (p : Property)
  | pattern (p : Pattern)
  | member (m : Member)
  /-- A statement at home somewhere; `concise` if it is the body of an arrow function. -/
  | stmt (home : Home) (concise : Bool) (s : Stmt)
  | declarator (home : Home) (d : Declarator)
  | switchCase (c : SwitchCase)
  | specifier (s : ExportSpecifier)

namespace Node

/-- An expression that is a part like any other. -/
def part (e : Expr) : Node := .expr .inner false e

/-- A statement in a list that is not the module itself. -/
def listed (s : Stmt) : Node := .stmt .list false s

/-- A statement where exactly one has to stand. -/
def sole (s : Stmt) : Node := .stmt .sole false s

/-- The first part of a loop's head: an expression there is no statement. -/
def ofFirst : Stmt → Node
  | .expression _ value => part value
  | s => sole s

/-- A node unless it is known not to be taken. -/
def unlessKnown (known : Option Bool) (dead : Bool) (node : Node) : List Node :=
  if known = some dead then [] else [node]

/-- The parts of a node, without the branches of conditions that are known not to be taken. -/
def parts (known : Expr → Option Bool) : Node → List Node
  | .expr place concise e =>
    match e with
    | .name _ _ | .literal _ _ | .this _ | .atom _ | .hole _ => []
    | .paren _ inner | .spread _ inner => [part inner]
    | .chain _ inner => [.expr place.inChain concise inner]
    | .unary _ _ operand => [part operand]
    | .update _ target => [part target]
    | .binary _ _ left right | .logical _ _ left right => [part left, part right]
    | .conditional _ test yes no =>
      part test :: (unlessKnown (known test) false (part yes) ++
        unlessKnown (known test) true (part no))
    | .assign _ _ target value => [.pattern target, part value]
    | .member _ object _ | .privateMember _ object => [part object]
    | .index _ object key => [part object, part key]
    | .call _ callee arguments => part callee :: arguments.map part
    | .template _ _ values => values.map part
    | .group _ _ parts => parts.map part
    | .array _ elements _ => elements.map part
    | .object _ properties _ => properties.map .property
    | .function _ form _ parameters body =>
      parameters.map .pattern ++ body.map (.stmt .list (form = .arrow true))
    | .class _ _ decorators _ heritage members =>
      decorators.map part ++ heritage.toList.map part ++ members.map .member
  | .property p =>
    match p with
    | .keyed _ _ computed value => computed.toList.map part ++ [part value]
    | .shorthand _ _ _ => []
    | .spread _ inner => [part inner]
  | .pattern p =>
    match p with
    | .binding _ => []
    | .target place => [part place]
    | .withDefault _ inner default => [.pattern inner, part default]
    | .array _ elements => elements.map .pattern
    | .object _ properties => properties.map .pattern
    | .property _ computed value => computed.toList.map part ++ [.pattern value]
    | .shorthand _ _ default => default.toList.map (.expr .shorthandDefault false)
    | .rest _ inner => [.pattern inner]
  | .member m =>
    match m with
    | .method _ decorators computed value =>
      decorators.map part ++ computed.toList.map part ++ [part value]
    | .field _ decorators computed value =>
      decorators.map part ++ computed.toList.map part ++ value.toList.map part
    | .initializer _ body => body.map listed
  | .stmt home concise s =>
    match s with
    | .expression span value => [.expr (.statement span home) concise value]
    | .directive _ | .simple _ | .importing _ _ | .exportAll _ _ => []
    | .variables _ _ list => list.map (.declarator home)
    | .declaration value | .throwing _ value | .exportDefault _ value
    | .exportDefaultDeclaration _ value => [part value]
    | .block _ body => body.map listed
    | .ifElse _ test yes no =>
      part test :: (unlessKnown (known test) false (sole yes) ++
        no.toList.flatMap fun s => unlessKnown (known test) true (sole s))
    | .loop _ first test update body =>
      first.toList.map ofFirst ++ test.toList.map part ++ update.toList.map part ++ [sole body]
    | .each _ declared stored subject body =>
      declared.toList.map ofFirst ++ stored.toList.map .pattern ++ [part subject, sole body]
    | .whileLoop _ test body => [part test, sole body]
    | .doWhile _ body test => [sole body, part test]
    | .returning _ value => value.toList.map part
    | .withObject _ object body => [part object, sole body]
    | .switch _ subject cases => part subject :: cases.map .switchCase
    | .guarded _ body parameter handler finalizer =>
      body.map listed ++ parameter.toList.map .pattern ++ handler.map listed ++
        finalizer.map listed
    | .labeled _ body => [sole body]
    | .exportDeclaration _ declaration => [.stmt .exported false declaration]
    | .exportNames _ specifiers source =>
      if source.isNone then (specifiers.filter fun s => !s.inner.isString).map .specifier else []
  | .declarator _ (.mk _ target init) => .pattern target :: init.toList.map part
  | .switchCase (.mk test body) => test.toList.map part ++ body.map listed
  | .specifier _ => []

/-- The name that a node refers to, if it is a reference: a name as an expression, a property or a
target that is written as a name alone, or an entry of an export list. -/
def reference? : Node → Option (Span × String)
  | .expr _ _ (.name span text) => some (span, text)
  | .property (.shorthand _ name _) => some (name.span, name.text)
  | .pattern (.shorthand _ name _) => some (name.span, name.text)
  | .specifier s => some (s.inner.span, s.inner.text)
  | _ => none

/-- Whether a node is a function or a class. -/
def isBody : Node → Bool
  | .expr _ _ (.function _ _ _ _ _) | .expr _ _ (.class _ _ _ _ _ _) => true
  | _ => false

/-- Whether a node is a return. -/
def isReturn : Node → Bool
  | .stmt _ _ (.returning _ _) => true
  | _ => false

/-- The node that numbers lead to from a node, each of them the number of a part. -/
def follow (node : Node) : List Nat → Option Node
  | [] => some node
  | i :: path => (node.parts Expr.truth?)[i]?.bind fun inner => inner.follow path

/-! ## Parts are smaller -/

/-- The size of the piece of syntax that a node is. -/
noncomputable def size : Node → Nat
  | .expr _ _ e => sizeOf e
  | .property p => sizeOf p
  | .pattern p => sizeOf p
  | .member m => sizeOf m
  | .stmt _ _ s => sizeOf s
  | .declarator _ d => sizeOf d
  | .switchCase c => sizeOf c
  | .specifier s => sizeOf s

/-- The first part of a loop's head is no larger as a node than as a statement. -/
theorem size_ofFirst_le (s : Stmt) : (ofFirst s).size ≤ sizeOf s := by
  cases s <;> simp [ofFirst, part, sole, size]

/-- What an optional piece consists of is smaller than the option. -/
theorem sizeOf_lt_of_mem_toList {α : Type} [SizeOf α] {a : α} {o : Option α}
    (h : a ∈ o.toList) : sizeOf a < sizeOf o := by
  rw [Option.mem_toList] at h
  subst h
  simp

/-- Every part of a node is smaller than the node. -/
theorem size_lt_of_mem_parts {known : Expr → Option Bool} {node inner : Node}
    (h : inner ∈ node.parts known) : inner.size < node.size := by
  cases node with
  | expr place concise e =>
    cases e <;> grind [parts, size, part, unlessKnown, → List.sizeOf_lt_of_mem,
      → sizeOf_lt_of_mem_toList]
  | property p =>
    cases p <;> grind [parts, size, part, → sizeOf_lt_of_mem_toList]
  | pattern p =>
    cases p <;> grind [parts, size, part, → List.sizeOf_lt_of_mem, → sizeOf_lt_of_mem_toList]
  | member m =>
    cases m <;> grind [parts, size, part, listed, → List.sizeOf_lt_of_mem,
      → sizeOf_lt_of_mem_toList]
  | stmt home concise s =>
    cases s <;> grind [parts, size, part, listed, sole, size_ofFirst_le, unlessKnown,
      → List.sizeOf_lt_of_mem, → sizeOf_lt_of_mem_toList]
  | declarator home d =>
    cases d
    grind [parts, size, part, → sizeOf_lt_of_mem_toList]
  | switchCase c =>
    cases c
    grind [parts, size, part, listed, → List.sizeOf_lt_of_mem, → sizeOf_lt_of_mem_toList]
  | specifier s => simp [parts] at h

/-! ## What a part can be -/

/-- What the part of a node can be.  Only an expression in a statement, or in a chain that is one,
knows of the statement that it is all of, and only declarations have variables. -/
inductive Shape : Node → Node → Prop
  | part {node : Node} {e : Expr} : Shape node (part e)
  | default {node : Node} {e : Expr} : Shape node (.expr .shorthandDefault false e)
  | chain {place : Place} {concise : Bool} {span : Span} {e : Expr} :
    Shape (.expr place concise (.chain span e)) (.expr place.inChain concise e)
  | expression {home : Home} {concise : Bool} {span : Span} {e : Expr} :
    Shape (.stmt home concise (.expression span e)) (.expr (.statement span home) concise e)
  | listed {node : Node} {concise : Bool} {s : Stmt} : Shape node (.stmt .list concise s)
  | sole {node : Node} {s : Stmt} : Shape node (sole s)
  | exported {node : Node} {s : Stmt} : Shape node (.stmt .exported false s)
  | property {node : Node} {p : Property} : Shape node (.property p)
  | pattern {node : Node} {p : Pattern} : Shape node (.pattern p)
  | member {node : Node} {m : Member} : Shape node (.member m)
  | declarator {home : Home} {concise : Bool} {span : Span} {kind : VariableKind}
    {list : List Declarator} {d : Declarator} :
    Shape (.stmt home concise (.variables span kind list)) (.declarator home d)
  | switchCase {node : Node} {c : SwitchCase} : Shape node (.switchCase c)
  | specifier {node : Node} {s : ExportSpecifier} : Shape node (.specifier s)

attribute [grind intro] Shape

/-- The first part of a loop's head is an expression or a statement where one has to stand. -/
theorem shape_ofFirst (node : Node) (s : Stmt) : Shape node (ofFirst s) := by
  cases s <;> constructor
/-- The parts of a node have one of these shapes. -/
theorem shape_of_mem_parts {known : Expr → Option Bool} {node inner : Node}
    (mem : inner ∈ node.parts known) : Shape node inner := by
  cases node with
  | expr place concise e => cases e <;> grind [parts, unlessKnown]
  | property p => cases p <;> grind [parts]
  | pattern p => cases p <;> grind [parts]
  | member m => cases m <;> grind [parts, listed]
  | stmt home concise s => cases s <;> grind [parts, listed, unlessKnown, shape_ofFirst]
  | declarator home d =>
    cases d
    grind [parts]
  | switchCase c =>
    cases c
    grind [parts, listed]
  | specifier s => simp [parts] at mem

end Node

namespace Program

/-- A node that the statements of a module lead to from part to part.  Branches of conditions that
are known not to be taken are left out, and only some nodes are entered. -/
inductive Reaches (program : Program) (known : Expr → Option Bool) (enters : Node → Bool) :
    Node → Prop
  | statement {s : Stmt} : s ∈ program.body → Reaches program known enters (.stmt .body false s)
  | part {node inner : Node} : Reaches program known enters node → enters node = true →
      inner ∈ node.parts known → Reaches program known enters inner

/-- A node that does not stand in a branch which is known not to be taken. -/
def Live (program : Program) : Node → Prop := program.Reaches Expr.truth? fun _ => true

/-- A node outside all functions and classes, in any branch. -/
def Outer (program : Program) : Node → Prop :=
  program.Reaches (fun _ => none) fun node => !node.isBody

/-- A node outside all functions and classes that does not stand in a branch which is known not to
be taken. -/
def LiveOuter (program : Program) : Node → Prop :=
  program.Reaches Expr.truth? fun node => !node.isBody

/-- A list that has the statements of a module, and the parts of all its members, has every node of
the module. -/
theorem Reaches.mem_of_closed {program : Program} {known : Expr → Option Bool} {enters : Node → Bool}
    {nodes : List Node} {node : Node} (h : program.Reaches known enters node)
    (begins : ∀ s ∈ program.body, .stmt .body false s ∈ nodes)
    (closed : ∀ outer ∈ nodes, ∀ inner ∈ outer.parts known, inner ∈ nodes) : node ∈ nodes := by
  induction h with
  | statement mem => exact begins _ mem
  | part _ _ piece ih => exact closed _ ih _ piece

/-- A node that numbers lead to from a live node is live. -/
theorem Live.follow {program : Program} {node inner : Node} (live : program.Live node)
    (path : List Nat) (h : node.follow path = some inner) : program.Live inner := by
  induction path generalizing node with
  | nil =>
    obtain rfl := Option.some.inj h
    exact live
  | cons i path ih =>
    obtain ⟨next, part, h⟩ := Option.bind_eq_some_iff.mp h
    exact ih (live.part rfl (List.mem_of_getElem? part)) h

end Program

end ModuleInterop.Syntax
