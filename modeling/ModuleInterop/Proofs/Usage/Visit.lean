import ModuleInterop.Proofs.Syntax.Node
import ModuleInterop.Usage.Collect

/-!
# The nodes that are looked at for uses

`usesOf` walks the syntax tree by mutual recursion and hands back a list.  Here the same walk is a
relation: `Program.Visited` holds of the nodes that it looks at, and each of them has its own uses
(`Node.own`).  The uses of a module are exactly the own uses of its visited nodes (`mem_usesOf`), so
whatever is said of all uses can be proved for one node at a time.

A node that is recognised as a whole (an exporting assignment, a question for a type, a call of
`require`, a variable with the value of one) hides parts from the walk: `Node.visited` are the parts
that are looked at and `Node.hidden` the others.
-/

set_option autoImplicit false

namespace ModuleInterop.Usage

open ModuleInterop.Syntax ModuleInterop.Scope

variable {context : Context} {use : Use}

/-! ## Lists of pieces -/

/-- The uses in expressions are those in each of them. -/
theorem usesOfExprs_eq_flatMap (es : List Expr) :
    usesOfExprs context es = es.flatMap (usesOfExpr context .inner) := by
  induction es with
  | nil => simp [usesOfExprs]
  | cons e es ih => simp [usesOfExprs, ih]

/-- The uses in an expression that may be absent. -/
theorem usesOfOptional_eq_flatMap (e : Option Expr) :
    usesOfOptional context e = e.toList.flatMap (usesOfExpr context .inner) := by
  cases e <;> simp [usesOfOptional]

/-- The uses in properties are those in each of them. -/
theorem usesOfProperties_eq_flatMap (ps : List Property) :
    usesOfProperties context ps = ps.flatMap fun p => usesOfProperties context [p] := by
  induction ps with
  | nil => simp [usesOfProperties]
  | cons p ps ih => cases p <;> simp [usesOfProperties, ih]

/-- The uses in patterns are those in each of them. -/
theorem usesOfPatterns_eq_flatMap (ps : List Pattern) :
    usesOfPatterns context ps = ps.flatMap (usesOfPattern context) := by
  induction ps with
  | nil => simp [usesOfPatterns]
  | cons p ps ih => simp [usesOfPatterns, ih]

/-- The uses in members are those in each of them. -/
theorem usesOfMembers_eq_flatMap (ms : List Member) :
    usesOfMembers context ms = ms.flatMap fun m => usesOfMembers context [m] := by
  induction ms with
  | nil => simp [usesOfMembers]
  | cons m ms ih => cases m <;> simp [usesOfMembers, ih]

/-- The uses in statements are those in each of them. -/
theorem usesOfStmts_eq_flatMap (home : Home) (ss : List Stmt) :
    usesOfStmts context home ss = ss.flatMap (usesOfStmt context home) := by
  induction ss with
  | nil => simp [usesOfStmts]
  | cons s ss ih => simp [usesOfStmts, ih]

/-- The uses in an alternative that may be absent. -/
theorem usesOfOptionalStmt_eq_flatMap (s : Option Stmt) :
    usesOfOptionalStmt context s = s.toList.flatMap (usesOfStmt context .sole) := by
  cases s <;> simp [usesOfOptionalStmt]

/-- The uses in declared variables are those in each of them. -/
theorem usesOfDeclarators_eq_flatMap (home : Home) (ds : List Declarator) :
    usesOfDeclarators context home ds = ds.flatMap fun d => usesOfDeclarators context home [d] := by
  induction ds with
  | nil => simp [usesOfDeclarators]
  | cons d ds ih => cases d; simp [usesOfDeclarators, ih]

/-- The uses in cases are those in each of them. -/
theorem usesOfCases_eq_flatMap (cs : List SwitchCase) :
    usesOfCases context cs = cs.flatMap fun c => usesOfCases context [c] := by
  induction cs with
  | nil => simp [usesOfCases]
  | cons c cs ih => cases c; simp [usesOfCases, ih]

/-! ## One node -/

/-- The uses in a node. -/
def usesOfNode (context : Context) : Node → List Use
  | .expr place _ e => usesOfExpr context place e
  | .property p => usesOfProperties context [p]
  | .pattern p => usesOfPattern context p
  | .member m => usesOfMembers context [m]
  | .stmt home _ s => usesOfStmt context home s
  | .declarator home d => usesOfDeclarators context home [d]
  | .switchCase c => usesOfCases context [c]
  | .specifier s => usesOfName context s.inner.span s.inner.text false

@[simp] theorem usesOfNode_expr (place : Place) (concise : Bool) (e : Expr) :
    usesOfNode context (.expr place concise e) = usesOfExpr context place e := rfl

@[simp] theorem usesOfNode_part (e : Expr) :
    usesOfNode context (.part e) = usesOfExpr context .inner e := rfl

@[simp] theorem usesOfNode_property (p : Property) :
    usesOfNode context (.property p) = usesOfProperties context [p] := rfl

@[simp] theorem usesOfNode_pattern (p : Pattern) :
    usesOfNode context (.pattern p) = usesOfPattern context p := rfl

@[simp] theorem usesOfNode_member (m : Member) :
    usesOfNode context (.member m) = usesOfMembers context [m] := rfl

@[simp] theorem usesOfNode_stmt (home : Home) (concise : Bool) (s : Stmt) :
    usesOfNode context (.stmt home concise s) = usesOfStmt context home s := rfl

@[simp] theorem usesOfNode_listed (s : Stmt) :
    usesOfNode context (.listed s) = usesOfStmt context .list s := rfl

@[simp] theorem usesOfNode_sole (s : Stmt) :
    usesOfNode context (.sole s) = usesOfStmt context .sole s := rfl

@[simp] theorem usesOfNode_declarator (home : Home) (d : Declarator) :
    usesOfNode context (.declarator home d) = usesOfDeclarators context home [d] := rfl

@[simp] theorem usesOfNode_switchCase (c : SwitchCase) :
    usesOfNode context (.switchCase c) = usesOfCases context [c] := rfl

@[simp] theorem usesOfNode_specifier (s : ExportSpecifier) :
    usesOfNode context (.specifier s) = usesOfName context s.inner.span s.inner.text false := rfl

/-- The uses in the first part of a loop's head. -/
theorem usesOfFirst_eq_flatMap (first : Option Stmt) :
    usesOfFirst context first = first.toList.flatMap fun s => usesOfNode context (.ofFirst s) := by
  cases first with
  | none => simp [usesOfFirst]
  | some s => cases s <;> simp [usesOfFirst, Node.ofFirst]

/-- The uses in the entries of an export list; strings are no references. -/
theorem usesOfSpecifiers_eq_flatMap (specifiers : List ExportSpecifier) :
    usesOfSpecifiers context specifiers =
      (specifiers.filter fun s => !s.inner.isString).flatMap fun s =>
        usesOfNode context (.specifier s) := by
  induction specifiers with
  | nil => rfl
  | cons s ss ih =>
    unfold usesOfSpecifiers at ih ⊢
    rw [List.flatMap_cons, ih]
    cases h : s.inner.isString <;> simp [h]

/-- The uses in a part that is left out if a condition is known. -/
theorem flatMap_unlessKnown {known : Option Bool} {dead : Bool} {node : Node} :
    (Node.unlessKnown known dead node).flatMap (usesOfNode context) =
      if known = some dead then [] else usesOfNode context node := by
  unfold Node.unlessKnown
  split <;> simp

/-- The context of the parts of a node. -/
def Context.inside (context : Context) (node : Node) : Context :=
  { context with inFunction := context.inFunction || node.isBody }

/-- Only functions and classes change the context. -/
theorem Context.inside_of_not_isBody {node : Node} (h : node.isBody = false) :
    context.inside node = context := by
  simp [Context.inside, h]

end ModuleInterop.Usage

namespace ModuleInterop.Syntax.Node

open ModuleInterop.Usage

/-- The uses that a node itself is, those of its parts left out. -/
def own (context : Usage.Context) : Node → List Use
  | .expr place _ e =>
    match e with
    | .name span text =>
      if place = .shorthandDefault then [] else usesOfName context span text (place = .shorthand)
    | .this span => if context.inFunction then [] else [.outerThis span]
    | .unary span .typeof operand =>
      ((objectRoot? context.bindings operand).map (Use.typeofValue span)).toList
    | .assign _ plain target value =>
      ((exportPath? context.bindings target).map fun path =>
        exportingUse place plain path value).toList
    | .call span callee arguments =>
      ((requireCall? context.bindings context.ignored (.call span callee arguments)).map fun call =>
        Use.requiring call place.statement?).toList
    | _ => []
  | .property (.shorthand _ name _) => usesOfName context name.span name.text true
  | .pattern (.shorthand _ name _) => usesOfName context name.span name.text true
  | .stmt home _ (.variables span _ list) => [.declared span home (list.map declaratorSpan)]
  | .stmt _ _ (.returning _ _) => if context.inFunction then [] else [.outerReturn]
  | .declarator home d => (requiredVariable? context home d).toList
  | .specifier s => usesOfName context s.inner.span s.inner.text false
  | _ => []

/-- The parts of a node that are looked at for uses. -/
def visited (context : Usage.Context) : Node → List Node
  | .expr place concise (.unary span .typeof operand) =>
    if (objectRoot? context.bindings operand).isSome then []
    else (Node.expr place concise (.unary span .typeof operand)).parts Expr.truth?
  | .expr _ _ (.assign _ _ target value) =>
    if (exportPath? context.bindings target).isSome then [part value]
    else [.pattern target, part value]
  | .expr _ _ (.call span callee arguments) =>
    if (requireCall? context.bindings context.ignored (.call span callee arguments)).isSome then []
    else part callee :: arguments.map part
  | .declarator home (.mk span target init) =>
    if (requiredVariable? context home (.mk span target init)).isSome then []
    else .pattern target :: init.toList.map part
  | node => node.parts Expr.truth?

/-- The parts of a node that are hidden because the node is recognised as a whole. -/
def hidden (context : Usage.Context) : Node → List Node
  | .expr _ _ (.unary _ .typeof operand) =>
    if (objectRoot? context.bindings operand).isSome then [part operand] else []
  | .expr _ _ (.assign _ _ target _) =>
    if (exportPath? context.bindings target).isSome then [.pattern target] else []
  | .expr _ _ (.call span callee arguments) =>
    if (requireCall? context.bindings context.ignored (.call span callee arguments)).isSome then
      part callee :: arguments.map part
    else []
  | .declarator home (.mk span target init) =>
    if (requiredVariable? context home (.mk span target init)).isSome then
      .pattern target :: init.toList.map part
    else []
  | _ => []

/-- The parts that are looked at and those that are hidden are all the parts. -/
theorem mem_parts_iff {context : Usage.Context} {node inner : Node} :
    inner ∈ node.parts Expr.truth? ↔
      inner ∈ node.visited context ∨ inner ∈ node.hidden context := by
  cases node with
  | expr place concise e =>
    cases e with
    | unary span op operand => cases op <;> grind [visited, hidden, parts]
    | assign span plain target value => grind [visited, hidden, parts]
    | call span callee arguments => grind [visited, hidden, parts]
    | _ => simp [visited, hidden]
  | declarator home d =>
    cases d
    grind [visited, hidden, parts]
  | _ => simp [visited, hidden]

/-- Whether a node declares variables. -/
def isVariables : Node → Bool
  | .stmt _ _ (.variables _ _ _) => true
  | _ => false

theorem eq_variables_of_isVariables {node : Node} (h : node.isVariables = true) :
    ∃ home concise span kind list, node = .stmt home concise (.variables span kind list) := by
  unfold isVariables at h
  split at h
  · exact ⟨_, _, _, _, _, rfl⟩
  · contradiction

end ModuleInterop.Syntax.Node

namespace ModuleInterop.Usage

open ModuleInterop.Syntax ModuleInterop.Scope

variable {context : Context} {use : Use}

/-- The uses in an expression are its own and those in the parts that are looked at. -/
theorem usesOfExpr_eq (place : Place) (concise : Bool) (e : Expr) :
    usesOfExpr context place e =
      (Node.expr place concise e).own context ++
        ((Node.expr place concise e).visited context).flatMap
          (usesOfNode (context.inside (.expr place concise e))) := by
  cases e with
  | unary span op operand =>
    rw [Context.inside_of_not_isBody rfl]
    cases op with
    | typeof =>
      simp only [usesOfExpr, Node.own, Node.visited]
      cases objectRoot? context.bindings operand <;> simp [Node.parts]
    | _ => simp [usesOfExpr, Node.own, Node.visited, Node.parts]
  | conditional span test yes no =>
    rw [Context.inside_of_not_isBody rfl]
    simp [usesOfExpr, Node.own, Node.visited, Node.parts, flatMap_unlessKnown]
  | assign span plain target value =>
    rw [Context.inside_of_not_isBody rfl]
    simp only [usesOfExpr, Node.own, Node.visited]
    cases exportPath? context.bindings target <;> simp
  | call span callee arguments =>
    rw [Context.inside_of_not_isBody rfl]
    simp only [usesOfExpr, Node.own, Node.visited]
    cases requireCall? context.bindings context.ignored (.call span callee arguments) <;>
      simp [usesOfExprs_eq_flatMap, List.flatMap_map]
  | object span properties comma =>
    rw [Context.inside_of_not_isBody rfl, usesOfExpr, usesOfProperties_eq_flatMap]
    simp [Node.own, Node.visited, Node.parts, List.flatMap_map]
  | function span form name parameters body =>
    simp [usesOfExpr, Node.own, Node.visited, Node.parts, Context.inside, Context.within,
      Node.isBody, usesOfPatterns_eq_flatMap, usesOfStmts_eq_flatMap, List.flatMap_map]
  | «class» span isDeclaration decorators name heritage members =>
    rw [usesOfExpr, usesOfMembers_eq_flatMap]
    simp [Node.own, Node.visited, Node.parts, Context.inside, Context.within, Node.isBody,
      usesOfExprs_eq_flatMap, usesOfOptional_eq_flatMap, List.flatMap_map]
  | _ =>
    rw [Context.inside_of_not_isBody rfl]
    simp [usesOfExpr, Node.own, Node.visited, Node.parts, usesOfExprs_eq_flatMap, List.flatMap_map]

/-- The uses in a pattern are its own and those in its parts. -/
theorem usesOfPattern_eq (p : Pattern) :
    usesOfPattern context p =
      (Node.pattern p).own context ++
        ((Node.pattern p).visited context).flatMap (usesOfNode context) := by
  cases p with
  | shorthand span name default =>
    cases default <;> simp [usesOfPattern, Node.own, Node.visited, Node.parts]
  | _ =>
    simp [usesOfPattern, Node.own, Node.visited, Node.parts, usesOfOptional_eq_flatMap,
      usesOfPatterns_eq_flatMap, List.flatMap_map]

/-- That a declaration of variables ends is noted after its parts. -/
theorem usesOfVariables_eq (home : Home) (concise : Bool) (span : Span) (kind : VariableKind)
    (list : List Declarator) :
    usesOfStmt context home (.variables span kind list) =
      ((Node.stmt home concise (.variables span kind list)).visited context).flatMap
          (usesOfNode context) ++
        (Node.stmt home concise (.variables span kind list)).own context := by
  rw [usesOfStmt, usesOfDeclarators_eq_flatMap]
  simp [Node.own, Node.visited, Node.parts, List.flatMap_map]

/-- The uses in any other statement are its own and those in its parts. -/
theorem usesOfStmt_eq {home : Home} {concise : Bool} {s : Stmt}
    (other : (Node.stmt home concise s).isVariables = false) :
    usesOfStmt context home s =
      (Node.stmt home concise s).own context ++
        ((Node.stmt home concise s).visited context).flatMap (usesOfNode context) := by
  cases s with
  | «variables» span kind list => contradiction
  | ifElse span test yes no =>
    cases no <;>
      simp [usesOfStmt, Node.own, Node.visited, Node.parts, usesOfOptionalStmt_eq_flatMap,
        flatMap_unlessKnown]
  | loop span first test update body =>
    simp [usesOfStmt, Node.own, Node.visited, Node.parts, usesOfFirst_eq_flatMap,
      usesOfOptional_eq_flatMap, List.flatMap_map]
  | each span declared stored subject body =>
    cases stored <;>
      simp [usesOfStmt, Node.own, Node.visited, Node.parts, usesOfFirst_eq_flatMap,
        List.flatMap_map]
  | switch span subject cases =>
    rw [usesOfStmt, usesOfCases_eq_flatMap]
    simp [Node.own, Node.visited, Node.parts, List.flatMap_map]
  | guarded span body parameter handler finalizer =>
    cases parameter <;>
      simp [usesOfStmt, Node.own, Node.visited, Node.parts, usesOfStmts_eq_flatMap,
        List.flatMap_map]
  | exportNames span specifiers source =>
    rw [usesOfStmt, usesOfSpecifiers_eq_flatMap]
    cases h : source.isNone <;> simp [Node.own, Node.visited, Node.parts, h, List.flatMap_map]
  | _ =>
    simp [usesOfStmt, Node.own, Node.visited, Node.parts, usesOfOptional_eq_flatMap,
      usesOfStmts_eq_flatMap, List.flatMap_map]

/-- The uses in a node other than a declaration of variables are its own and those in the parts that
are looked at. -/
theorem usesOfNode_eq {node : Node} (other : node.isVariables = false) :
    usesOfNode context node =
      node.own context ++ (node.visited context).flatMap (usesOfNode (context.inside node)) := by
  cases node with
  | expr place concise e => rw [usesOfNode_expr, usesOfExpr_eq place concise]
  | property p =>
    rw [Context.inside_of_not_isBody rfl]
    cases p <;>
      simp [usesOfProperties, Node.own, Node.visited, Node.parts, usesOfOptional_eq_flatMap,
        List.flatMap_map]
  | pattern p => rw [Context.inside_of_not_isBody rfl, usesOfNode_pattern, usesOfPattern_eq]
  | member m =>
    rw [Context.inside_of_not_isBody rfl]
    cases m <;>
      simp [usesOfMembers, Node.own, Node.visited, Node.parts, usesOfOptional_eq_flatMap,
        usesOfExprs_eq_flatMap, usesOfStmts_eq_flatMap, List.flatMap_map]
  | stmt home concise s =>
    rw [Context.inside_of_not_isBody rfl, usesOfNode_stmt, usesOfStmt_eq other]
  | declarator home d =>
    cases d with
    | mk span target init =>
      rw [Context.inside_of_not_isBody rfl]
      simp only [usesOfNode_declarator, usesOfDeclarators, Node.own, Node.visited]
      cases requiredVariable? context home (.mk span target init) <;>
        simp [usesOfOptional_eq_flatMap, List.flatMap_map]
  | switchCase c =>
    cases c
    rw [Context.inside_of_not_isBody rfl]
    simp [usesOfCases, Node.own, Node.visited, Node.parts, usesOfOptional_eq_flatMap,
      usesOfStmts_eq_flatMap, List.flatMap_map]
  | specifier s => simp [Node.own, Node.visited, Node.parts]

/-- The uses in a node are its own and those in the parts that are looked at. -/
theorem mem_usesOfNode (node : Node) :
    use ∈ usesOfNode context node ↔
      use ∈ node.own context ∨
        ∃ inner ∈ node.visited context, use ∈ usesOfNode (context.inside node) inner := by
  rw [← List.mem_flatMap, ← List.mem_append]
  cases kind : node.isVariables with
  | false => rw [usesOfNode_eq kind]
  | true =>
    obtain ⟨home, concise, span, kind, list, rfl⟩ := Node.eq_variables_of_isVariables kind
    rw [Context.inside_of_not_isBody rfl, usesOfNode_stmt, usesOfVariables_eq home concise,
      List.mem_append, List.mem_append, or_comm]

/-! ## The walk through a module -/

/-- A node that the walk for uses looks at; the flag tells whether it stands in a function or a
class. -/
inductive Visited (bindings : Bindings) (ignored : List String) (program : Program) :
    Bool → Node → Prop
  | statement {s : Stmt} : s ∈ program.body →
      Visited bindings ignored program false (.stmt .body false s)
  | part {inFunction : Bool} {node inner : Node} :
      Visited bindings ignored program inFunction node →
      inner ∈ node.visited ⟨bindings, ignored, inFunction⟩ →
      Visited bindings ignored program (inFunction || node.isBody) inner

variable {bindings : Bindings} {ignored : List String} {program : Program} {inFunction : Bool}
  {node : Node}

/-- The uses in a visited node are uses of the module. -/
theorem Visited.mem_usesOf (visited : Visited bindings ignored program inFunction node) :
    use ∈ usesOfNode ⟨bindings, ignored, inFunction⟩ node →
      use ∈ usesOf bindings ignored program := by
  induction visited with
  | statement mem =>
    intro h
    rw [usesOf, usesOfStmts_eq_flatMap]
    exact List.mem_flatMap.mpr ⟨_, mem, h⟩
  | part _ mem ih =>
    intro h
    exact ih ((mem_usesOfNode _).mpr (.inr ⟨_, mem, h⟩))

/-- Every use in a visited node is a visited node's own. -/
theorem Visited.exists_own (visited : Visited bindings ignored program inFunction node)
    (h : use ∈ usesOfNode ⟨bindings, ignored, inFunction⟩ node) :
    ∃ flag inner, Visited bindings ignored program flag inner ∧
      use ∈ inner.own ⟨bindings, ignored, flag⟩ := by
  -- Parts are smaller than the node, so the recursion ends at a node whose own use it is.
  induction hn : node.size using Nat.strongRecOn generalizing inFunction node with
  | ind n ih =>
    subst hn
    rcases (mem_usesOfNode node).mp h with own | ⟨inner, mem, h⟩
    · exact ⟨inFunction, node, visited, own⟩
    · have smaller : inner.size < node.size :=
        Node.size_lt_of_mem_parts (Node.mem_parts_iff.mpr (.inl mem))
      exact ih inner.size smaller (visited.part mem) h rfl

/-- The uses of a module are the own uses of the nodes that the walk looks at. -/
theorem mem_usesOf_iff :
    use ∈ usesOf bindings ignored program ↔
      ∃ flag node, Visited bindings ignored program flag node ∧
        use ∈ node.own ⟨bindings, ignored, flag⟩ := by
  constructor
  · intro h
    rw [usesOf, usesOfStmts_eq_flatMap] at h
    obtain ⟨s, mem, h⟩ := List.mem_flatMap.mp h
    exact (Visited.statement mem).exists_own (by simpa using h)
  · rintro ⟨flag, node, visited, own⟩
    exact visited.mem_usesOf ((mem_usesOfNode node).mpr (.inl own))

/-- What the walk looks at does not stand in a branch that is known not to be taken. -/
theorem Visited.live (visited : Visited bindings ignored program inFunction node) :
    program.Live node := by
  induction visited with
  | statement mem => exact .statement mem
  | part _ mem ih => exact ih.part rfl (Node.mem_parts_iff.mpr (.inl mem))

/-- What the walk looks at outside all functions and classes stands there. -/
theorem Visited.liveOuter (visited : Visited bindings ignored program inFunction node)
    (outer : inFunction = false) : program.LiveOuter node := by
  induction visited with
  | statement mem => exact .statement mem
  | part _ mem ih =>
    rw [Bool.or_eq_false_iff] at outer
    exact (ih outer.1).part (by simp [outer.2]) (Node.mem_parts_iff.mpr (.inl mem))

end ModuleInterop.Usage
