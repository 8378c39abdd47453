import ModuleInterop.Proofs.Scope.Pruned
import ModuleInterop.Proofs.Usage.Own
import ModuleInterop.Proofs.Usage.Standing

/-!
# Nodes of a pruned module

The live nodes of a module are nodes of the pruned one (`Node.parts_pruned`), so the references among them
stay (`Program.Live.referred_pruned`), and a live name is free in one if and only if it is free in the
other.  What is recognised as a whole is recognised in both.
-/

set_option autoImplicit false

namespace ModuleInterop.Usage

open ModuleInterop.Syntax

/-- A place with its positions moved. -/
def Place.moved (move : Nat → Nat) : Place → Place
  | .statement span home => .statement (span.moved move) home
  | .chained span home => .chained (span.moved move) home
  | place => place

theorem Place.moved_inChain (move : Nat → Nat) (place : Place) :
    place.inChain.moved move = (place.moved move).inChain := by
  cases place <;> rfl

theorem Place.moved_eq_iff {move : Nat → Nat} {place other : Place} (bare : other.statement? = none) :
    place.moved move = other ↔ place = other := by
  cases place <;> cases other <;> simp_all [Place.moved, Place.statement?]

end ModuleInterop.Usage

namespace ModuleInterop.Syntax

open ModuleInterop.Usage ModuleInterop.Scope

variable {move : Nat → Nat}

namespace Node

/-- A pruned node. -/
def pruned (move : Nat → Nat) : Node → Node
  | .expr place concise e => .expr (place.moved move) concise (e.pruned move)
  | .property p => .property (p.pruned move)
  | .pattern p => .pattern (p.pruned move)
  | .member m => .member (m.pruned move)
  | .stmt home concise s => .stmt home concise (s.pruned move)
  | .declarator home d => .declarator home (d.pruned move)
  | .switchCase c => .switchCase (c.pruned move)
  | .specifier s => .specifier (s.moved move)

@[simp] theorem pruned_expr (place : Place) (concise : Bool) (e : Expr) :
    (Node.expr place concise e).pruned move = .expr (place.moved move) concise (e.pruned move) := rfl

@[simp] theorem pruned_part (e : Expr) : (part e).pruned move = part (e.pruned move) := rfl

@[simp] theorem pruned_property (p : Property) :
    (Node.property p).pruned move = .property (p.pruned move) := rfl

@[simp] theorem pruned_pattern (p : Pattern) :
    (Node.pattern p).pruned move = .pattern (p.pruned move) := rfl

@[simp] theorem pruned_member (m : Member) :
    (Node.member m).pruned move = .member (m.pruned move) := rfl

@[simp] theorem pruned_stmt (home : Home) (concise : Bool) (s : Stmt) :
    (Node.stmt home concise s).pruned move = .stmt home concise (s.pruned move) := rfl

@[simp] theorem pruned_listed (s : Stmt) : (listed s).pruned move = listed (s.pruned move) := rfl

@[simp] theorem pruned_sole (s : Stmt) : (sole s).pruned move = sole (s.pruned move) := rfl

@[simp] theorem pruned_declarator (home : Home) (d : Declarator) :
    (Node.declarator home d).pruned move = .declarator home (d.pruned move) := rfl

@[simp] theorem pruned_switchCase (c : SwitchCase) :
    (Node.switchCase c).pruned move = .switchCase (c.pruned move) := rfl

@[simp] theorem pruned_specifier (s : ExportSpecifier) :
    (Node.specifier s).pruned move = .specifier (s.moved move) := rfl

theorem pruned_ofFirst (s : Stmt) : (ofFirst s).pruned move = ofFirst (s.pruned move) := by
  cases s <;> rfl

/-- A branch that is left out among the parts is so when it is pruned, and any other one stays. -/
theorem unlessKnown_branch {known : Option Bool} {dead : Bool} {branch : List Occurrence}
    (empty kept : Node) :
    unlessKnown known dead (if branchGoes known dead branch then empty else kept) =
      unlessKnown known dead kept := by
  unfold unlessKnown
  split
  · rfl
  · rename_i other
    have stays : branchGoes known dead branch = false := by simp [branchGoes, other]
    rw [stays, if_neg Bool.false_ne_true]

/-- An alternative that goes is left out among the parts. -/
theorem unlessKnown_alternative {known : Option Bool} {branch : List Occurrence}
    (no : Option Stmt) :
    (if branchGoes known true branch then none else no).toList.flatMap
        (fun s => unlessKnown known true (sole s)) =
      no.toList.flatMap fun s => unlessKnown known true (sole s) := by
  split
  · rename_i goes
    have same : known = some true := eq_of_beq ((Bool.and_eq_true _ _).mp goes).1
    cases no <;> simp [unlessKnown, same]
  · rfl

theorem map_unlessKnown (known : Option Bool) (dead : Bool) (node : Node) :
    (unlessKnown known dead node).map (pruned move) =
      unlessKnown known dead (node.pruned move) := by
  unfold unlessKnown
  split <;> rfl

/-- **The live parts of a pruned node** are the live parts of the node, pruned. -/
theorem parts_pruned (node : Node) :
    (node.pruned move).parts Expr.truth? = (node.parts Expr.truth?).map (pruned move) := by
  cases node with
  | expr place concise e =>
    cases e with
    | conditional span test yes no =>
      simp only [pruned_expr, Expr.pruned, parts, List.map_cons, List.map_append, Expr.truth?_pruned,
        map_unlessKnown, pruned_part, apply_ite part, unlessKnown_branch]
    | chain span inner => simp [Expr.pruned, parts, Place.moved_inChain]
    | _ => simp [Expr.pruned, parts, Function.comp_def, Option.toList_map]
  | property p => cases p <;> simp [Property.pruned, parts, Function.comp_def, Option.toList_map]
  | pattern p =>
    cases p <;> simp [Pattern.pruned, parts, Function.comp_def, Option.toList_map, Place.moved]
  | member m => cases m <;> simp [Member.pruned, parts, Function.comp_def, Option.toList_map]
  | stmt home concise s =>
    cases s with
    | ifElse span test yes no =>
      simp only [pruned_stmt, Stmt.pruned, parts, List.map_cons, List.map_append, List.map_flatMap,
        Expr.truth?_pruned, map_unlessKnown, pruned_part, pruned_sole, apply_ite sole,
        unlessKnown_branch, unlessKnown_alternative, prunedOptionalStmt_eq_map, Option.toList_map,
        List.flatMap_map]
    | loop span first test update body =>
      simp [Stmt.pruned, parts, Function.comp_def, Option.toList_map, pruned_ofFirst]
    | each span declared stored subject body =>
      simp [Stmt.pruned, parts, Function.comp_def, Option.toList_map, pruned_ofFirst]
    | exportNames span specifiers source =>
      cases source <;> simp [Stmt.pruned, parts, List.filter_map, Function.comp_def,
        ExportSpecifier.moved, ExternalName.moved]
    | _ => simp [Stmt.pruned, parts, Function.comp_def, Option.toList_map, Place.moved]
  | declarator home d =>
    cases d
    simp [Declarator.pruned, parts, Function.comp_def, Option.toList_map]
  | switchCase c =>
    cases c
    simp [SwitchCase.pruned, parts, Function.comp_def, Option.toList_map]
  | specifier s => rfl

/-- A node is where it was when it is pruned and not moved. -/
theorem Fits.pruned {source : List Char} {lo hi : Nat} {node : Node} (h : node.Fits source 0 lo hi) :
    (node.pruned id).Fits source 0 lo hi := by
  cases node with
  | expr place concise e =>
    cases e with
    | update span target =>
      refine ⟨h.1, ?_⟩
      cases target <;> exact h.2
    | _ => exact h
  | property p => cases p <;> exact h
  | pattern p =>
    cases p with
    | target place =>
      refine ⟨by simpa using h.1, ?_⟩
      cases place <;> exact h.2
    | _ => exact h
  | member m => exact h
  | stmt home concise s =>
    cases s with
    | expression span value =>
      refine ⟨h.1, ?_⟩
      rw [Expr.span_pruned]
      exact h.2
    | declaration value =>
      show ((value.pruned id).span).Within source lo hi
      rw [Expr.span_pruned]
      exact h
    | guarded span body parameter handler finalizer =>
      refine ⟨h.1, ?_⟩
      rw [prunedOptionalPattern_eq_map]
      intro p mem
      obtain ⟨p, among, rfl⟩ := Option.map_eq_some_iff.mp mem
      have isCaught := h.2 p among
      cases p <;> exact isCaught
    | exportDeclaration span declaration =>
      refine ⟨h.1, ?_, h.2.2⟩
      cases declaration <;> exact h.2.1
    | _ => exact h
  | declarator home d =>
    cases d
    exact h
  | switchCase c => exact h
  | specifier s => exact h

/-- The name that a node refers to is referred to among its occurrences. -/
theorem Occurs.referred {node : Node} {occurrences : List Occurrence}
    (occurs : node.Occurs occurrences) {span : Span} {text : String}
    (refers : node.reference? = some (span, text)) : span.start ∈ referredOffsets occurrences := by
  unfold reference? at refers
  split at refers
  · obtain ⟨rfl, rfl⟩ := Prod.mk.inj (Option.some.inj refers)
    rcases occurs with rfl | ⟨-, rfl⟩ <;> exact List.mem_cons_self
  · obtain ⟨rfl, rfl⟩ := Prod.mk.inj (Option.some.inj refers)
    obtain rfl := occurs
    exact List.mem_cons_self
  · obtain ⟨rfl, rfl⟩ := Prod.mk.inj (Option.some.inj refers)
    obtain ⟨rule, rfl⟩ := occurs
    exact List.mem_cons_self
  · obtain ⟨rfl, rfl⟩ := Prod.mk.inj (Option.some.inj refers)
    obtain rfl := occurs
    exact List.mem_cons_self
  · contradiction

theorem reference?_pruned (node : Node) : (node.pruned move).reference? =
    node.reference?.map fun reference => (reference.1.moved move, reference.2) := by
  cases node with
  | expr place concise e => cases e <;> rfl
  | property p => cases p <;> rfl
  | pattern p => cases p <;> rfl
  | _ => rfl

end Node

namespace Program.Live

variable {program : Program} {source : List Char} {node : Node}

/-- **A live node stays in the pruned module.** -/
theorem exists_contained (parsed : parseModule source = .ok program) (live : program.Live node) :
    ∃ deep, (node.pruned id).Contained deep (ofStmts (program.pruned id).body) := by
  induction live with
  | @statement s mem =>
    have among : Node.stmt .body false (s.pruned id) ∈
        (prunedStmts id program.body).map (Node.stmt .body false) := by
      rw [prunedStmts_eq_map]
      exact List.mem_map_of_mem (List.mem_map_of_mem mem)
    exact ⟨false, .stmts among⟩
  | @part node inner reached _ mem ih =>
    obtain ⟨deep, part, holds, occurs⟩ := ih
    obtain ⟨lo, hi, laid⟩ := reached.exists_laid parsed
    have among : inner.pruned id ∈ (node.pruned id).parts fun _ => none := by
      refine ((node.pruned id).parts_sublist Expr.truth?).subset ?_
      rw [Node.parts_pruned]
      exact List.mem_map_of_mem mem
    obtain ⟨deep', ⟨piece, within, occurs'⟩, -⟩ :=
      Node.leads_of_mem_parts laid.fits.pruned occurs among
    exact ⟨deep' || deep, piece, within.trans holds, occurs'⟩

/-- The name that a live node refers to is referred to in the pruned module. -/
theorem referred_pruned (parsed : parseModule source = .ok program) (live : program.Live node)
    {span : Span} {text : String} (refers : node.reference? = some (span, text)) :
    span.start ∈ referredOffsets (ofStmts (program.pruned id).body) := by
  obtain ⟨deep, part, holds, occurs⟩ := live.exists_contained parsed
  have here : (node.pruned id).reference? = some (span, text) := by
    rw [Node.reference?_pruned, refers]
    rfl
  exact List.filterMap_subset _ holds.subset (occurs.referred here)

/-- **A live name is free in the pruned module** if and only if it is free in the module. -/
theorem isFreeAt_pruned (parsed : parseModule source = .ok program)
    (distinct : (referredOffsets (ofStmts (program.pruned move).body)).Nodup)
    (live : program.Live node) {span : Span} {text : String}
    (refers : node.reference? = some (span, text)) :
    (Bindings.ofProgram (program.pruned move)).isFreeAt (move span.start) =
      (Bindings.ofProgram program).isFreeAt span.start := by
  obtain ⟨names, tally⟩ := exists_tally parsed (Bindings.ofProgram program) []
  exact (thinned_ofStmts program.body).isFreeAt_eq (balanced_ofStmts _) (balanced_ofStmts _)
    ((referredOffsets_sublist _).nodup tally.ascending.nodup) distinct
    (live.referred_pruned parsed refers)

end Program.Live

end ModuleInterop.Syntax

namespace ModuleInterop.Usage

open ModuleInterop.Syntax ModuleInterop.Scope

/-! ## What is recognised as a whole -/

section Recognised

variable {move : Nat → Nat}

theorem path?_pruned : (e : Expr) →
    path? (e.pruned move) = (path? e).map fun path => (move path.1, path.2)
  | .name _ _ => rfl
  | .member _ object property => by
    rw [Expr.pruned, path?, path?, path?_pruned object, Option.map_map, Option.map_map]
    rfl
  | .literal _ _ | .this _ | .atom _ | .paren _ _ | .unary _ _ _ | .update _ _ | .binary _ _ _ _
  | .logical _ _ _ _ | .conditional _ _ _ _ | .assign _ _ _ _ | .privateMember _ _ | .index _ _ _
  | .call _ _ _ | .chain _ _ | .template _ _ _ | .group _ _ _ | .spread _ _ | .hole _
  | .array _ _ _ | .object _ _ _ | .function _ _ _ _ _ | .class _ _ _ _ _ _ => rfl

theorem fixedText?_pruned (e : Expr) : fixedText? (e.pruned move) = fixedText? e := by
  cases e with
  | literal span value => cases value <;> rfl
  | template span texts values => cases values <;> cases texts <;> rfl
  | _ => rfl

theorem propertyNames_pruned (e : Expr) : propertyNames (e.pruned move) = propertyNames e := by
  cases e with
  | object span properties comma =>
    simp only [Expr.pruned, propertyNames, prunedProperties_eq_map, List.filterMap_map]
    refine List.filterMap_congr fun p _ => ?_
    cases p with
    | keyed span name computed value => cases name <;> cases computed <;> rfl
    | _ => rfl
  | _ => rfl

/-- The live names of a module are free where the moved ones are. -/
def Agree (program : Program) (move : Nat → Nat) (bindings bindings' : Bindings) : Prop :=
  ∀ node, program.Live node → ∀ span text, node.reference? = some (span, text) →
    bindings'.isFreeAt (move span.start) = bindings.isFreeAt span.start

namespace Agree

variable {program : Program} {bindings bindings' : Bindings}
  (agree : Agree program move bindings bindings')

include agree

theorem freePath?_eq {e : Expr} (live : program.Live (.part e)) :
    freePath? bindings' (e.pruned move) = freePath? bindings e := by
  unfold freePath?
  rw [path?_pruned]
  cases path : path? e with
  | none => rfl
  | some way =>
    obtain ⟨offset, names⟩ := way
    obtain ⟨first, others, rfl⟩ := List.exists_cons_of_ne_nil (ne_nil_of_path path)
    obtain ⟨span, base, rfl⟩ := live.base path
    simp only [Option.map_some, agree _ base span first rfl]

theorem objectRoot?_eq {e : Expr} (live : program.Live (.part e)) :
    objectRoot? bindings' (e.pruned move) = objectRoot? bindings e := by
  rw [objectRoot?, objectRoot?, agree.freePath?_eq live]

theorem exportPath?_eq {target : Pattern} (live : program.Live (.pattern target)) :
    exportPath? bindings' (target.pruned move) = exportPath? bindings target := by
  cases target with
  | target place =>
    rw [Pattern.pruned, exportPath?, exportPath?,
      agree.freePath?_eq (live.part rfl (List.mem_singleton.mpr rfl))]
  | _ => rfl

theorem requireCall?_eq {place : Place} {concise : Bool} {e : Expr}
    (live : program.Live (.expr place concise e)) (ignored : List String) :
    (requireCall? bindings' ignored (e.pruned move)).map RequireCall.target =
      (requireCall? bindings ignored e).map RequireCall.target := by
  cases e with
  | call span callee arguments =>
    cases callee with
    | name place text =>
      match arguments with
      | [argument] =>
        have same : bindings'.isFreeAt (place.moved move).start = bindings.isFreeAt place.start :=
          agree _ (live.part rfl List.mem_cons_self) place text rfl
        simp only [Expr.pruned, prunedExprs, requireCall?, fixedText?_pruned, same]
        split
        · cases fixedText? argument with
          | none => rfl
          | some target =>
            dsimp only
            split <;> rfl
        · rfl
      | [] | _ :: _ :: _ => rfl
    | _ => rfl
  | _ => rfl

end Agree

end Recognised

end ModuleInterop.Usage
