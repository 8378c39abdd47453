import ModuleInterop.Proofs.Conversion.Apart
import ModuleInterop.Proofs.Conversion.Exported
import ModuleInterop.Proofs.Conversion.Sources
import ModuleInterop.Proofs.Conversion.Untouched
import ModuleInterop.Proofs.Usage.Pruned

/-!
# Branches that are never taken

What a use decides of a conversion beside its edits is its *effect*: whether it calls for the conversion,
whether it has the module wrapped, which names it exports, and which module it requires.  What a conversion
reports depends on the effects of the uses alone, and these are the same for a module and the pruned one
(`effectsOf_usesOf`): pruning takes out no use, and leaves each name free that is.  A variable that takes a
required value may become a plain one, or a plain one such a variable, since whether it is assigned to in a
branch that is never taken counts; that changes its edits, not its effect (`effectsOf_declarator`).

So two modules that are the same when they are pruned are converted, left alone or refused together, with
the same report (`dead_branches_leave_no_trace`).  Only the mark of compiled modules is searched for in the
text as a whole.
-/

set_option autoImplicit false

namespace ModuleInterop.Conversion

open ModuleInterop.Syntax ModuleInterop.Scope ModuleInterop.Usage

/-! ## What uses decide -/

/-- What a use decides of a conversion, its edits aside. -/
structure Effect where
  calls : Bool
  wraps : Bool
  exported : List String
  target : Option String
  deriving DecidableEq

/-- The effect of a use that decides nothing. -/
def Effect.none : Effect := ⟨false, false, [], .none⟩

/-- What a use decides. -/
def effectOf (ignoreGlobal : Bool) (use : Use) : Effect :=
  ⟨use.calls ignoreGlobal, use.wraps, exportedBy use, use.call?.map RequireCall.target⟩

/-- What uses decide, in order. -/
def effectsOf (ignoreGlobal : Bool) (uses : List Use) : List Effect :=
  (uses.map (effectOf ignoreGlobal)).filter (· ≠ .none)

section Effects

variable (ignoreGlobal : Bool) {uses others : List Use}

@[simp] theorem effectsOf_nil : effectsOf ignoreGlobal [] = [] := rfl

@[simp] theorem effectsOf_append :
    effectsOf ignoreGlobal (uses ++ others) =
      effectsOf ignoreGlobal uses ++ effectsOf ignoreGlobal others := by
  simp [effectsOf]

theorem effectsOf_flatMap {α : Type} (list : List α) (f : α → List Use) :
    effectsOf ignoreGlobal (list.flatMap f) = list.flatMap fun a => effectsOf ignoreGlobal (f a) := by
  induction list with
  | nil => rfl
  | cons a list ih => rw [List.flatMap_cons, effectsOf_append, ih, List.flatMap_cons]

theorem effectsOf_cons (use : Use) :
    effectsOf ignoreGlobal (use :: uses) =
      if effectOf ignoreGlobal use = .none then effectsOf ignoreGlobal uses
      else effectOf ignoreGlobal use :: effectsOf ignoreGlobal uses := by
  unfold effectsOf
  rw [List.map_cons, List.filter_cons]
  split <;> simp_all

theorem any_effectsOf {test : Effect → Bool} (nothing : test .none = false) :
    (effectsOf ignoreGlobal uses).any test = uses.any fun use => test (effectOf ignoreGlobal use) := by
  induction uses with
  | nil => rfl
  | cons use uses ih =>
    rw [List.any_cons, effectsOf_cons, ← ih]
    split
    · rename_i none
      rw [none, nothing, Bool.false_or]
    · rfl

theorem flatMap_effectsOf {α : Type} {f : Effect → List α} (nothing : f .none = []) :
    (effectsOf ignoreGlobal uses).flatMap f =
      uses.flatMap fun use => f (effectOf ignoreGlobal use) := by
  induction uses with
  | nil => rfl
  | cons use uses ih =>
    rw [List.flatMap_cons, effectsOf_cons, ← ih]
    split
    · rename_i none
      rw [none, nothing, List.nil_append]
    · rfl

variable (same : effectsOf ignoreGlobal others = effectsOf ignoreGlobal uses)

include same

/-! Uses with the same effects agree in all that a conversion asks of its uses. -/

theorem any_of_effects (test : Effect → Bool) (nothing : test .none = false) :
    (others.any fun use => test (effectOf ignoreGlobal use)) =
      uses.any fun use => test (effectOf ignoreGlobal use) := by
  rw [← any_effectsOf ignoreGlobal nothing, same, any_effectsOf ignoreGlobal nothing]

theorem flatMap_of_effects {α : Type} (f : Effect → List α) (nothing : f .none = []) :
    (others.flatMap fun use => f (effectOf ignoreGlobal use)) =
      uses.flatMap fun use => f (effectOf ignoreGlobal use) := by
  rw [← flatMap_effectsOf ignoreGlobal nothing, same, flatMap_effectsOf ignoreGlobal nothing]

theorem calls_of_effects :
    others.any (Use.calls ignoreGlobal) = uses.any (Use.calls ignoreGlobal) :=
  any_of_effects ignoreGlobal same Effect.calls rfl

theorem wraps_of_effects : others.any Use.wraps = uses.any Use.wraps :=
  any_of_effects ignoreGlobal same Effect.wraps rfl

theorem exported_of_effects : others.flatMap exportedBy = uses.flatMap exportedBy :=
  flatMap_of_effects ignoreGlobal same Effect.exported rfl

theorem targets_of_effects :
    (callsOf others).map RequireCall.target = (callsOf uses).map RequireCall.target := by
  have targets (uses : List Use) : (callsOf uses).map RequireCall.target =
      uses.flatMap fun use => (effectOf ignoreGlobal use).target.toList := by
    unfold callsOf
    rw [List.map_filterMap, List.filterMap_eq_flatMap_toList]
    rfl
  rw [targets, targets]
  exact flatMap_of_effects ignoreGlobal same (fun effect => effect.target.toList) rfl

end Effects

/-! ## The uses in a pruned module -/

section Pruned

variable {program : Program} {move : Nat → Nat} {bindings bindings' : Bindings}
  {ignored : List String} {inFunction ignoreGlobal : Bool} {node : Node}

/-- Where a name stands makes no difference to what its use decides. -/
theorem effectsOf_usesOfName {context context' : Usage.Context} {span span' : Span} (text : String)
    {shorthand shorthand' : Bool}
    (same : context'.bindings.isFreeAt span'.start = context.bindings.isFreeAt span.start) :
    effectsOf ignoreGlobal (usesOfName context' span' text shorthand') =
      effectsOf ignoreGlobal (usesOfName context span text shorthand) := by
  unfold usesOfName
  rw [same]
  cases FreeName.ofText? text with
  | none => rfl
  | some name =>
    dsimp only
    split
    · cases name <;> rfl
    · rfl

/-- An assignment that exports decides the same wherever it stands. -/
theorem exportingUse_pruned (place : Place) (plain : Bool) (path : ExportPath) (value : Expr) :
    exportingUse (place.moved move) plain path (value.pruned move) =
      exportingUse place plain path value := by
  have same : (place.moved move).isModuleStatement = place.isModuleStatement := by
    cases place with
    | statement span home => cases home <;> rfl
    | _ => rfl
  unfold exportingUse
  rw [same, propertyNames_pruned]

/-- Of a call, only the target decides. -/
theorem effectsOf_requiring {call? call'? : Option RequireCall}
    (same : call'?.map RequireCall.target = call?.map RequireCall.target)
    (statement statement' : Option (Span × Home)) :
    effectsOf ignoreGlobal (call'?.map fun call => Use.requiring call statement').toList =
      effectsOf ignoreGlobal (call?.map fun call => Use.requiring call statement).toList := by
  cases call? with
  | none =>
    rw [Option.map_none, Option.map_eq_none_iff] at same
    rw [same]
    rfl
  | some call =>
    obtain ⟨call', rfl, target⟩ := Option.map_eq_some_iff.mp same
    have effect : effectOf ignoreGlobal (.requiring call' statement') =
        effectOf ignoreGlobal (.requiring call statement) := by
      simp only [effectOf, Use.call?, Option.map_some, target]
      rfl
    simp only [Option.map_some, Option.toList_some, effectsOf_cons, effect, effectsOf_nil]

/-- The uses that a live node itself is decide the same when it is pruned. -/
theorem effectsOf_own (agree : Agree program move bindings bindings') (live : program.Live node)
    (other : ∀ home d, node ≠ .declarator home d) :
    effectsOf ignoreGlobal ((node.pruned move).own ⟨bindings', ignored, inFunction⟩) =
      effectsOf ignoreGlobal (node.own ⟨bindings, ignored, inFunction⟩) := by
  cases node with
  | expr place concise e =>
    cases e with
    | name span text =>
      simp only [Node.pruned_expr, Expr.pruned, Node.own,
        Place.moved_eq_iff (show Place.shorthandDefault.statement? = none from rfl)]
      split
      · rfl
      · exact effectsOf_usesOfName text (agree _ live span text rfl)
    | this span => cases inFunction <;> rfl
    | unary span op operand =>
      cases op with
      | typeof =>
        simp only [Node.pruned_expr, Expr.pruned, Node.own,
          agree.objectRoot?_eq (live.part rfl (List.mem_singleton.mpr rfl))]
        cases objectRoot? bindings operand <;> rfl
      | _ => rfl
    | assign span plain target value =>
      simp only [Node.pruned_expr, Expr.pruned, Node.own,
        agree.exportPath?_eq (live.part rfl List.mem_cons_self)]
      cases exportPath? bindings target with
      | none => rfl
      | some path =>
        simp only [Option.map_some, exportingUse_pruned]
    | call span callee arguments =>
      exact effectsOf_requiring (agree.requireCall?_eq live ignored) _ _
    | _ => rfl
  | property p =>
    cases p with
    | shorthand span name default => exact effectsOf_usesOfName _ (agree _ live _ _ rfl)
    | _ => rfl
  | pattern p =>
    cases p with
    | shorthand span name default => exact effectsOf_usesOfName _ (agree _ live _ _ rfl)
    | _ => rfl
  | member m => rfl
  | stmt home concise s => cases s <;> rfl
  | declarator home d => exact absurd rfl (other home d)
  | switchCase c => rfl
  | specifier s => exact effectsOf_usesOfName _ (agree _ live _ _ rfl)

/-- The parts of a live node that are looked at for uses are the same when it is pruned. -/
theorem visited_pruned (agree : Agree program move bindings bindings') (live : program.Live node)
    (other : ∀ home d, node ≠ .declarator home d) :
    (node.pruned move).visited ⟨bindings', ignored, inFunction⟩ =
      (node.visited ⟨bindings, ignored, inFunction⟩).map (Node.pruned move) := by
  have parts : (node.pruned move).parts Expr.truth? = _ := node.parts_pruned
  cases node with
  | expr place concise e =>
    cases e with
    | unary span op operand =>
      cases op with
      | typeof =>
        simp only [Node.pruned_expr, Expr.pruned, Node.visited,
          agree.objectRoot?_eq (live.part rfl (List.mem_singleton.mpr rfl))]
        split
        · rfl
        · exact parts
      | _ => exact parts
    | assign span plain target value =>
      simp only [Node.pruned_expr, Expr.pruned, Node.visited,
        agree.exportPath?_eq (live.part rfl List.mem_cons_self)]
      split <;> rfl
    | call span callee arguments =>
      have same := congrArg Option.isSome (agree.requireCall?_eq live ignored)
      rw [Option.isSome_map, Option.isSome_map, Expr.pruned] at same
      simp only [Node.pruned_expr, Expr.pruned, Node.visited, same]
      split
      · rfl
      · exact parts
    | _ => exact parts
  | declarator home d => exact absurd rfl (other home d)
  | _ => exact parts

/-- A variable decides what its pattern and its value do, whether or not an import stands for it. -/
theorem effectsOf_declarator (context : Usage.Context) (home : Home) (span : Span) (target : Pattern)
    (init : Option Expr) :
    effectsOf ignoreGlobal (usesOfNode context (.declarator home (.mk span target init))) =
      effectsOf ignoreGlobal (usesOfNode context (.pattern target)) ++
        effectsOf ignoreGlobal (init.toList.flatMap (usesOfExpr context .inner)) := by
  rw [usesOfNode_declarator, usesOfDeclarators, ← effectsOf_append]
  cases taken : requiredVariable? context home (.mk span target init) with
  | none => simp [usesOfDeclarators, usesOfOptional_eq_flatMap]
  | some use =>
    obtain ⟨_, name, e, call, same, rfl, static, -⟩ := requiredVariable?_eq_some taken
    obtain ⟨-, rfl, rfl⟩ := Declarator.mk.inj same
    obtain ⟨callee, argument, rfl, -⟩ := requireCall?_eq_some static
    have call : usesOfExpr context .inner (.call call.span (.name callee "require") [argument]) =
        [.requiring call none] := by
      rw [usesOfExpr, static]
      rfl
    simp only [Option.toList_some, List.flatMap_singleton, call]
    rfl

/-- A node decides what its own uses do, and then what its parts do that are looked at. -/
theorem effectsOf_usesOfNode_eq (context : Usage.Context) (node : Node) :
    effectsOf ignoreGlobal (usesOfNode context node) =
      effectsOf ignoreGlobal (node.own context) ++
        effectsOf ignoreGlobal
          ((node.visited context).flatMap (usesOfNode (context.inside node))) := by
  cases kind : node.isVariables with
  | false => rw [usesOfNode_eq kind, effectsOf_append]
  | true =>
    -- That the declaration ends, which comes last, decides nothing.
    obtain ⟨home, concise, span, kind, list, rfl⟩ := Node.eq_variables_of_isVariables kind
    rw [Context.inside_of_not_isBody rfl, usesOfNode_stmt, usesOfVariables_eq home concise,
      effectsOf_append]
    exact List.append_nil _

theorem isBody_pruned (node : Node) : (node.pruned move).isBody = node.isBody := by
  cases node with
  | expr place concise e => cases e <;> rfl
  | _ => rfl

/-- **The uses in a live node** decide the same when it is pruned. -/
theorem effectsOf_usesOfNode (agree : Agree program move bindings bindings')
    (live : program.Live node) :
    effectsOf ignoreGlobal (usesOfNode ⟨bindings', ignored, inFunction⟩ (node.pruned move)) =
      effectsOf ignoreGlobal (usesOfNode ⟨bindings, ignored, inFunction⟩ node) := by
  -- Parts are smaller than the node, whether or not they are looked at.
  induction hn : node.size using Nat.strongRecOn generalizing inFunction node with
  | ind n ih =>
    subst hn
    have part (flag : Bool) {inner : Node} (mem : inner ∈ node.parts Expr.truth?) :
        effectsOf ignoreGlobal (usesOfNode ⟨bindings', ignored, flag⟩ (inner.pruned move)) =
          effectsOf ignoreGlobal (usesOfNode ⟨bindings, ignored, flag⟩ inner) :=
      ih inner.size (Node.size_lt_of_mem_parts mem) (live.part rfl mem) rfl
    by_cases other : ∀ home d, node ≠ .declarator home d
    · rw [effectsOf_usesOfNode_eq, effectsOf_usesOfNode_eq, effectsOf_own agree live other,
        visited_pruned agree live other, Context.inside, Context.inside, isBody_pruned,
        effectsOf_flatMap, effectsOf_flatMap, List.flatMap_map]
      refine congrArg _ (List.flatMap_congr fun inner mem => ?_)
      exact part _ (Node.mem_parts_iff.mpr (.inl mem))
    · push Not at other
      obtain ⟨home, ⟨span, target, init⟩, rfl⟩ := other
      rw [Node.pruned_declarator, Declarator.pruned, effectsOf_declarator, effectsOf_declarator]
      refine congrArg₂ _ (part _ List.mem_cons_self) ?_
      cases init with
      | none => rfl
      | some e =>
        have value := part inFunction
          (show Node.part e ∈ [.pattern target, .part e] from List.mem_cons_of_mem _ List.mem_cons_self)
        simpa using value

/-- **The uses in a module** decide the same when it is pruned. -/
theorem effectsOf_usesOf (agree : Agree program move bindings bindings') :
    effectsOf ignoreGlobal (usesOf bindings' ignored (program.pruned move)) =
      effectsOf ignoreGlobal (usesOf bindings ignored program) := by
  unfold usesOf Program.pruned
  rw [prunedStmts_eq_map, usesOfStmts_eq_flatMap, usesOfStmts_eq_flatMap, List.flatMap_map,
    effectsOf_flatMap, effectsOf_flatMap]
  refine List.flatMap_congr fun s mem => ?_
  exact effectsOf_usesOfNode agree (.statement mem)

/-- The statements of a pruned module assign exports to the same names. -/
theorem assignedNames_pruned (agree : Agree program move bindings bindings') :
    assignedNames bindings' (program.pruned move).body = assignedNames bindings program.body := by
  unfold assignedNames Program.pruned
  rw [prunedStmts_eq_map, List.filterMap_map]
  refine List.filterMap_congr fun s mem => ?_
  have live : program.Live (.stmt .body false s) := .statement mem
  cases s with
  | expression span value =>
    cases value with
    | assign whole plain target inner =>
      have assignment : program.Live (.expr (.statement span .body) false
          (.assign whole plain target inner)) := live.part rfl List.mem_cons_self
      show (exportPath? bindings' (target.pruned move)).bind _ = _
      rw [agree.exportPath?_eq (assignment.part rfl List.mem_cons_self)]
      rfl
    | _ => rfl
  | _ => rfl

end Pruned

/-! ## Modules that differ in what never runs -/

/-- Two modules are the same but for the contents of branches that are never taken and declare names for
themselves alone, and for where things stand. -/
def DifferInDeadBranches (program program' : Program) : Prop :=
  ∃ move, program'.pruned id = program.pruned move

/-- **What such modules decide is the same.** -/
theorem DifferInDeadBranches.same_effects {source source' : List Char} {program program' : Program}
    (differ : DifferInDeadBranches program program') (parsed : parseModule source = .ok program)
    (parsed' : parseModule source' = .ok program') (ignored : List String) (ignoreGlobal : Bool) :
    effectsOf ignoreGlobal (usesOf (Bindings.ofProgram program') ignored program') =
        effectsOf ignoreGlobal (usesOf (Bindings.ofProgram program) ignored program) ∧
      assignedNames (Bindings.ofProgram program') program'.body =
        assignedNames (Bindings.ofProgram program) program.body := by
  obtain ⟨move, same⟩ := differ
  have once : (referredOffsets (ofStmts (program'.pruned id).body)).Nodup := by
    obtain ⟨names, tally⟩ := exists_tally parsed' (Bindings.ofProgram program') []
    have distinct := (referredOffsets_sublist _).nodup tally.ascending.nodup
    have thinned : Thinned id _ (ofStmts program'.body) _ := thinned_ofStmts program'.body
    exact (thinned.sublist.filterMap _).nodup distinct
  have agree : Agree program move (Bindings.ofProgram program)
      (Bindings.ofProgram (program.pruned move)) := fun node live span text refers =>
    live.isFreeAt_pruned parsed (same ▸ once) refers
  have agree' : Agree program' id (Bindings.ofProgram program')
      (Bindings.ofProgram (program'.pruned id)) := fun node live span text refers =>
    live.isFreeAt_pruned parsed' once refers
  constructor
  · rw [← effectsOf_usesOf agree, ← effectsOf_usesOf agree', same]
  · rw [← assignedNames_pruned agree, ← assignedNames_pruned agree', same]

/-- A module that no use calls for converting is left alone, or refused if names were given. -/
theorem convert_of_calm {source : List Char} {program : Program} {id : String} {options : Options}
    (calm : (findingsOf program source options).any = false) :
    convert program source id options =
      if options.namedExports.isEmpty then .ok none else .error .notCommonJs := by
  have calm : (analyse program source options).2.any = false := calm
  simp [convert, calm]

/-- **Branches that are never taken leave no trace.**  Two modules that differ in the contents of such
branches only, and both or neither of which have the mark of compiled modules, are both converted, both
left alone or both refused; and what the conversions report is the same. -/
theorem dead_branches_leave_no_trace {source source' : List Char} {program program' : Program}
    (parsed : parseModule source = .ok program) (parsed' : parseModule source' = .ok program')
    (differ : DifferInDeadBranches program program')
    (mark : hasCompiledMark source' = hasCompiledMark source) (id : String) (options : Options) :
    (convert program' source' id options = .ok none ↔ convert program source id options = .ok none) ∧
      (∀ refusal, convert program' source' id options = .error refusal ↔
        convert program source id options = .error refusal) ∧
      ∀ out out', convert program source id options = .ok (some out) →
        convert program' source' id options = .ok (some out') →
        out'.sources = out.sources ∧ out'.namedExports = out.namedExports ∧
          out'.wrapped = out.wrapped ∧ out'.addsDefaultExport = out.addsDefaultExport := by
  obtain ⟨effects, assigned⟩ :=
    differ.same_effects parsed parsed' options.ignored options.ignoreGlobal
  have any : (findingsOf program' source' options).any = (findingsOf program source options).any := by
    rw [findingsOf_any, findingsOf_any, calls_of_effects _ effects]
  have wrapped : (findingsOf program' source' options).wrapped =
      (findingsOf program source options).wrapped := by
    rw [findingsOf_wrapped, findingsOf_wrapped, mark, wraps_of_effects _ effects]
  have exported : (findingsOf program' source' options).exported =
      (findingsOf program source options).exported := by
    rw [exported_eq, exported_eq, exported_of_effects _ effects]
  have held : heldNames program' source' options = heldNames program source options := by
    rw [heldNames, heldNames, wrapped, assigned]
  have together : (∃ out out', convert program source id options = .ok (some out) ∧
      convert program' source' id options = .ok (some out')) ∨
        convert program' source' id options = convert program source id options := by
    cases called : (findingsOf program source options).any with
    | true =>
      obtain ⟨out, converted, -⟩ := exists_converted (confined_layout parsed id options) called
      obtain ⟨out', converted', -⟩ :=
        exists_converted (confined_layout parsed' id options) (any.trans called)
      exact .inl ⟨out, out', converted, converted'⟩
    | false => exact .inr ((convert_of_calm (any.trans called)).trans (convert_of_calm called).symm)
  refine ⟨?_, ?_, ?_⟩
  · obtain ⟨out, out', converted, converted'⟩ | same := together
    · simp [converted, converted']
    · rw [same]
  · obtain ⟨out, out', converted, converted'⟩ | same := together
    · simp [converted, converted']
    · simp [same]
  · intro out out' converted converted'
    obtain ⟨edited, emitted⟩ := exists_emitted converted
    obtain ⟨edited', emitted'⟩ := exists_emitted converted'
    obtain ⟨names, default⟩ := exports_of_convert converted
    obtain ⟨names', default'⟩ := exports_of_convert converted'
    refine ⟨?_, ?_, ?_, ?_⟩
    · rw [sources_eq converted, sources_eq converted', targets_of_effects _ effects]
    · rw [names, names', names_layout, names_layout, exported, held]
    · rw [emitted.wrapped, emitted'.wrapped, wrapped]
    · rw [default, default']

/-- A module with a call of `require` that is never made. -/
def idleSource : List Char := "if (false) require('a'); exports.b = require('c');".toList

/-- The same module with a block in the branch that is never taken, which has a variable `exports` of its
own and refers to the value of the module. -/
def changedSource : List Char :=
  "if (false) \x7b let exports = require; module \x7d exports.b = require('c');".toList

/-- The tree of such a module, with the branch that is never taken and how far what follows is moved. -/
def idleModule (branch : Stmt) (d : Nat) : Program :=
  ⟨[.ifElse ⟨0, 24 + d⟩ (.literal ⟨4, 9⟩ (.boolean false)) branch none,
    .expression ⟨25 + d, 50 + d⟩ (.assign ⟨25 + d, 49 + d⟩ true
      (.target (.member ⟨25 + d, 34 + d⟩ (.name ⟨25 + d, 32 + d⟩ "exports") "b"))
      (.call ⟨37 + d, 49 + d⟩ (.name ⟨37 + d, 44 + d⟩ "require")
        [.literal ⟨45 + d, 48 + d⟩ (.string "c")]))]⟩

/-- The branch of `idleSource` that is never taken. -/
def idleBranch : Stmt :=
  .expression ⟨11, 24⟩ (.call ⟨11, 23⟩ (.name ⟨11, 18⟩ "require") [.literal ⟨19, 22⟩ (.string "a")])

/-- The branch of `changedSource` that is never taken. -/
def changedBranch : Stmt :=
  .block ⟨11, 44⟩
    [.variables ⟨13, 35⟩ (.lexical false)
      [.mk ⟨17, 34⟩ (.binding ⟨⟨17, 24⟩, "exports"⟩) (some (.name ⟨27, 34⟩ "require"))],
      .expression ⟨36, 42⟩ (.name ⟨36, 42⟩ "module")]

set_option maxRecDepth 8000 in
/-- What is never taken is not imported, and it neither shadows a name nor has the module wrapped. -/
theorem idle_branch_changed :
    parseModule idleSource = .ok (idleModule idleBranch 0) ∧
      parseModule changedSource = .ok (idleModule changedBranch 20) ∧
      DifferInDeadBranches (idleModule idleBranch 0) (idleModule changedBranch 20) ∧
      hasCompiledMark changedSource = hasCompiledMark idleSource ∧
      ∃ out, convert (idleModule changedBranch 20) changedSource "m" .plain = .ok (some out) ∧
        out.sources = ["c"] ∧ out.namedExports = ["b"] ∧ out.wrapped = false ∧
          out.addsDefaultExport = true := by
  have parsed : parseModule idleSource = .ok (idleModule idleBranch 0) := rfl
  have parsed' : parseModule changedSource = .ok (idleModule changedBranch 20) := rfl
  have differ : DifferInDeadBranches (idleModule idleBranch 0) (idleModule changedBranch 20) :=
    ⟨fun n => if n < 24 then n else n + 20, rfl⟩
  have mark : hasCompiledMark changedSource = hasCompiledMark idleSource := by decide
  obtain ⟨left, refused, reported⟩ :=
    dead_branches_leave_no_trace parsed parsed' differ mark "m" .plain
  -- What is reported is found out for one of the two modules.
  obtain ⟨out, converted, -⟩ :=
    exists_converted (confined_layout parsed "m" .plain) (by decide +kernel)
  obtain ⟨edited, emitted⟩ := exists_emitted converted
  obtain ⟨names, default⟩ := exports_of_convert converted
  have sources : out.sources = ["c"] := by
    rw [sources_eq converted]
    decide +kernel
  have names : out.namedExports = ["b"] := by
    rw [names]
    decide +kernel
  have wrapped : out.wrapped = false := by
    rw [emitted.wrapped]
    decide +kernel
  refine ⟨parsed, parsed', differ, mark, ?_⟩
  cases converted' : convert (idleModule changedBranch 20) changedSource "m" .plain with
  | error refusal =>
    rw [refused refusal, converted] at converted'
    contradiction
  | ok answer =>
    cases answer with
    | none =>
      have nothing := left.mp converted'
      rw [converted] at nothing
      exact absurd (Except.ok.inj nothing) (Option.some_ne_none out)
    | some out' =>
      obtain ⟨sources', names', wrapped', default'⟩ := reported out out' converted converted'
      exact ⟨out', rfl, sources'.trans sources, names'.trans names, wrapped'.trans wrapped,
        default'.trans default⟩

end ModuleInterop.Conversion
