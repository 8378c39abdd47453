import ModuleInterop.Proofs.Usage.Coverage

/-!
# What the uses of a node are

The uses that a node itself is, said once for every kind of use (`OwnUse`, `ownUse_of_mem_own`).  A use
about a call, the end of a declaration and a return from the module follow, each from the one case that
it is.  What a use is about begins with a name that is free in the module or is the word `this`, and
both are live nodes themselves: the name that a path begins with is reached along the path
(`Live.base`), and the name that is called is a part of the call.

The pieces of what is recognised as a whole are paths, fixed texts and calls of `require`
(`Concealed.expr`), so a live expression of any other kind is looked at for uses of its own.
-/

set_option autoImplicit false

namespace ModuleInterop.Syntax

open ModuleInterop.Usage

namespace Node

/-- Whether a node is a name that is the default of a target written as a name alone. -/
def isBareDefault : Node → Bool
  | .expr .shorthandDefault _ (.name _ _) => true
  | _ => false

/-- Whether the name that a node refers to is a key as well. -/
def isShorthand : Node → Bool
  | .expr .shorthand _ _ | .property _ | .pattern _ => true
  | _ => false

end Node

end ModuleInterop.Syntax

namespace ModuleInterop.Usage

open ModuleInterop.Syntax ModuleInterop.Scope

variable {program : Program} {context : Context} {node : Node} {use : Use}

/-- A text is a free name if and only if it is its spelling. -/
theorem FreeName.ofText?_eq_some_iff {text : String} {name : FreeName} :
    FreeName.ofText? text = some name ↔ name.text = text := by
  constructor
  · intro h
    have := List.find?_some h
    simpa using this
  · rintro rfl
    cases name with
    | value root => cases root <;> decide
    | _ => decide

/-- The use of a name is a use of no other kind. -/
theorem mem_usesOfName {use : Use} {span : Span} {text : String} {shorthand : Bool} :
    use ∈ usesOfName context span text shorthand ↔
      ∃ name, FreeName.ofText? text = some name ∧ context.bindings.isFreeAt span.start = true ∧
        use = .name name span shorthand := by
  unfold usesOfName
  cases FreeName.ofText? text with
  | none => simp
  | some name => cases context.bindings.isFreeAt span.start <;> simp

/-- A node is itself a use. -/
inductive OwnUse (context : Context) : Node → Use → Prop
  | name {node : Node} {span : Span} {name : FreeName} :
      node.reference? = some (span, name.text) → context.bindings.isFreeAt span.start = true →
      node.isBareDefault = false → OwnUse context node (.name name span node.isShorthand)
  | outerThis {place : Place} {concise : Bool} {span : Span} : context.inFunction = false →
      OwnUse context (.expr place concise (.this span)) (.outerThis span)
  | question {place : Place} {concise : Bool} {span : Span} {operand : Expr} {root : ModuleName} :
      objectRoot? context.bindings operand = some root →
      OwnUse context (.expr place concise (.unary span .typeof operand)) (.typeofValue span root)
  | exporting {place : Place} {concise plain : Bool} {span : Span} {target : Pattern}
      {value : Expr} {path : ExportPath} : exportPath? context.bindings target = some path →
      OwnUse context (.expr place concise (.assign span plain target value))
        (exportingUse place plain path value)
  | call {place : Place} {concise : Bool} {e : Expr} {call : RequireCall} :
      requireCall? context.bindings context.ignored e = some call →
      OwnUse context (.expr place concise e) (.requiring call place.statement?)
  | value {home : Home} {span : Span} {name : Name} {init : Expr} {call : RequireCall} :
      requireCall? context.bindings context.ignored init = some call → home ≠ .exported →
      call.scope = ScopeTree.root → context.bindings.isConstantAt name.span.start = true →
      OwnUse context (.declarator home (.mk span (.binding name) (some init)))
        (.requiredVariable span name.text call)
  | declared {home : Home} {concise : Bool} {span : Span} {kind : VariableKind}
      {list : List Declarator} :
      OwnUse context (.stmt home concise (.variables span kind list))
        (.declared span home (list.map declaratorSpan))
  | outerReturn {home : Home} {concise : Bool} {span : Span} {value : Option Expr} :
      context.inFunction = false →
      OwnUse context (.stmt home concise (.returning span value)) .outerReturn

/-- A path has a first name. -/
theorem ne_nil_of_path {e : Expr} {offset : Nat} {names : List String}
    (h : path? e = some (offset, names)) : names ≠ [] := by
  cases e with
  | name span text =>
    obtain ⟨-, rfl⟩ := Prod.mk.inj (Option.some.inj h)
    exact List.cons_ne_nil _ _
  | member span object property =>
    obtain ⟨path, -, same⟩ := Option.map_eq_some_iff.mp h
    obtain ⟨-, rfl⟩ := Prod.mk.inj same
    exact List.append_ne_nil_of_right_ne_nil _ (List.cons_ne_nil _ _)
  | _ => contradiction

/-- The use of a name in a node that refers to it. -/
theorem ownUse_of_name {span : Span} {text : String}
    (mem : use ∈ usesOfName context span text node.isShorthand)
    (reference : node.reference? = some (span, text)) (regular : node.isBareDefault = false) :
    OwnUse context node use := by
  obtain ⟨name, spelled, free, rfl⟩ := mem_usesOfName.mp mem
  rw [FreeName.ofText?_eq_some_iff] at spelled
  exact .name (spelled ▸ reference) free regular

/-- **What a node's own use can be.** -/
theorem ownUse_of_mem_own (own : use ∈ node.own context) : OwnUse context node use := by
  unfold Node.own at own
  split at own
  · rename_i place concise e
    split at own
    · rename_i span text
      split at own
      · contradiction
      · rename_i other
        have mem : use ∈ usesOfName context span text
            (Node.expr place concise (.name span text)).isShorthand := by
          cases place <;> simpa [Node.isShorthand] using own
        apply ownUse_of_name mem rfl
        cases place with
        | shorthandDefault => contradiction
        | _ => rfl
    · split at own
      · contradiction
      · rename_i outer
        rw [List.mem_singleton.mp own]
        exact .outerThis (Bool.not_eq_true _ ▸ outer)
    · obtain ⟨root, object, rfl⟩ := Option.map_eq_some_iff.mp (Option.mem_toList.mp own)
      exact .question object
    · obtain ⟨path, exporting, rfl⟩ := Option.map_eq_some_iff.mp (Option.mem_toList.mp own)
      exact .exporting exporting
    · obtain ⟨call, static, rfl⟩ := Option.map_eq_some_iff.mp (Option.mem_toList.mp own)
      exact .call static
    · contradiction
  · exact ownUse_of_name own rfl rfl
  · exact ownUse_of_name own rfl rfl
  · rw [List.mem_singleton.mp own]
    exact .declared
  · split at own
    · contradiction
    · rename_i outer
      rw [List.mem_singleton.mp own]
      exact .outerReturn (Bool.not_eq_true _ ▸ outer)
  · obtain ⟨_, _, _, _, rfl, rfl, static, unexported, root, constant⟩ :=
      requiredVariable?_eq_some (Option.mem_toList.mp own)
    exact .value static unexported root constant
  · exact ownUse_of_name own rfl rfl
  · contradiction

/-! ## Calls, declarations and returns -/

/-- The call that a use is about. -/
def Use.call? : Use → Option RequireCall
  | .requiring call _ | .requiredVariable _ _ call => some call
  | _ => none

/-- A node's own use about a call is that of the call itself, or that of a variable with the call as
its value. -/
inductive OwnCall (context : Context) : Node → Use → RequireCall → Prop
  | call {place : Place} {concise : Bool} {e : Expr} {call : RequireCall} :
      requireCall? context.bindings context.ignored e = some call →
      OwnCall context (.expr place concise e) (.requiring call place.statement?) call
  | value {home : Home} {span : Span} {name : Name} {init : Expr} {call : RequireCall} :
      requireCall? context.bindings context.ignored init = some call → home ≠ .exported →
      call.scope = ScopeTree.root → context.bindings.isConstantAt name.span.start = true →
      OwnCall context (.declarator home (.mk span (.binding name) (some init)))
        (.requiredVariable span name.text call) call

/-- A node's own use about a call is about one that an import can stand for. -/
theorem ownCall_of_mem_own {call : RequireCall} (own : use ∈ node.own context)
    (about : use.call? = some call) : OwnCall context node use call := by
  cases ownUse_of_mem_own own with
  | call static =>
    obtain rfl := Option.some.inj about
    exact .call static
  | value static unexported root constant =>
    obtain rfl := Option.some.inj about
    exact .value static unexported root constant
  | _ => cases about

/-- The call that a use of a module is about is one that an import can stand for. -/
theorem OwnCall.exists_requireCall {node : Node} {use : Use} {call : RequireCall}
    (h : OwnCall context node use call) :
    ∃ e, requireCall? context.bindings context.ignored e = some call := by
  cases h with
  | call static => exact ⟨_, static⟩
  | value static => exact ⟨_, static⟩

/-- The scope of a call that a use is about is that of a position of the module. -/
theorem scope_of_mem_usesOf {bindings : Bindings} {ignored : List String} {use : Use}
    {call : RequireCall} (mem : use ∈ usesOf bindings ignored program)
    (about : use.call? = some call) : ∃ offset, call.scope = bindings.scopeAt offset := by
  obtain ⟨inFunction, node, -, own⟩ := mem_usesOf_iff.mp mem
  obtain ⟨e, static⟩ := (ownCall_of_mem_own own about).exists_requireCall
  obtain ⟨callee, argument, -, -, -, scope, -⟩ := requireCall?_eq_some static
  exact ⟨callee.start, scope⟩

/-- Only a declaration of variables has its own end. -/
theorem declared_mem_own {whole : Span} {home : Home} {spans : List Span}
    (own : .declared whole home spans ∈ node.own context) :
    ∃ concise kind list, node = .stmt home concise (.variables whole kind list) ∧
      spans = list.map declaratorSpan := by
  generalize same : Use.declared whole home spans = use at own
  cases ownUse_of_mem_own own with
  | declared =>
    obtain ⟨rfl, rfl, rfl⟩ := Use.declared.inj same
    exact ⟨_, _, _, rfl, rfl⟩
  | _ => cases same

/-- Only a return is a return from the module, and only outside all functions. -/
theorem outerReturn_mem_own :
    Use.outerReturn ∈ node.own context ↔
      node.isReturn = true ∧ context.inFunction = false := by
  constructor
  · intro own
    generalize same : Use.outerReturn = use at own
    cases ownUse_of_mem_own own with
    | outerReturn outer => exact ⟨rfl, outer⟩
    | _ => cases same
  · rintro ⟨isReturn, outer⟩
    cases node with
    | stmt home concise s =>
      cases s with
      | returning span value => simp [Node.own, outer]
      | _ => contradiction
    | _ => contradiction

/-- A module returns from itself if and only if it has a return outside all functions that does not
stand in a branch known not to be taken. -/
theorem outerReturn_mem_usesOf {bindings : Bindings} {ignored : List String} :
    Use.outerReturn ∈ usesOf bindings ignored program ↔
      ∃ node, program.LiveOuter node ∧ node.isReturn = true := by
  rw [mem_usesOf_iff]
  constructor
  · rintro ⟨inFunction, node, visited, own⟩
    obtain ⟨isReturn, outer⟩ := outerReturn_mem_own.mp own
    exact ⟨node, visited.liveOuter outer, isReturn⟩
  · rintro ⟨node, live, isReturn⟩
    obtain ⟨inFunction, owner, visited, covered, outer⟩ :=
      reaches_covered bindings ignored live
    obtain rfl := outer fun n h => by simpa using h
    rcases covered with rfl | concealed
    · exact ⟨false, node, visited, outerReturn_mem_own.mpr ⟨isReturn, rfl⟩⟩
    · cases node with
      | stmt home concise s => exact absurd concealed not_concealed_stmt
      | _ => simp [Node.isReturn] at isReturn

/-! ## What is recognised as a whole -/

/-- An expression among the pieces of what is recognised as a whole is a path, a fixed text or a call of
`require`. -/
theorem Concealed.expr {place : Place} {concise : Bool} {e : Expr}
    (concealed : Concealed context node (.expr place concise e)) :
    (path? e).isSome = true ∨ (fixedText? e).isSome = true ∨
      (requireCall? context.bindings context.ignored e).isSome = true := by
  have onPath {whole : Expr} {path : Nat × List String} (way : path? whole = some path)
      (mem : e ∈ spine whole) : (path? e).isSome = true := by
    obtain ⟨first, others, path, -⟩ := path?_of_mem_spine way mem
    exact Option.isSome_of_eq_some path
  have inCall {whole : Expr} {call : RequireCall}
      (static : requireCall? context.bindings context.ignored whole = some call)
      (mem : .expr place concise e ∈ (Node.part whole).parts Expr.truth?) :
      (path? e).isSome = true ∨ (fixedText? e).isSome = true := by
    obtain ⟨callee, argument, rfl, fixed, -⟩ := requireCall?_eq_some static
    rcases List.mem_cons.mp mem with same | mem
    · cases same
      exact .inl rfl
    · cases List.mem_singleton.mp mem
      exact .inr (Option.isSome_of_eq_some fixed)
  cases concealed with
  | question object onSpine =>
    obtain ⟨offset, others, path, -⟩ := objectRoot?_eq_some object
    exact .inl (onPath path onSpine)
  | way exporting onSpine =>
    obtain ⟨_, offset, others, same, path, -⟩ := exportPath?_eq_some exporting
    obtain rfl := Pattern.target.inj same
    exact .inl (onPath path onSpine)
  | call static piece => exact (inCall static piece).imp_right .inl
  | value taken static => exact .inr (.inr (Option.isSome_of_eq_some static))
  | valueCall taken static piece => exact (inCall static piece).imp_right .inl

end ModuleInterop.Usage

namespace ModuleInterop.Syntax.Program.Live

open ModuleInterop.Usage ModuleInterop.Scope

variable {program : Program}

/-- The name that a live path begins with is live. -/
theorem base {e : Expr} {offset : Nat} {first : String} {others : List String}
    (live : program.Live (.part e)) (path : path? e = some (offset, first :: others)) :
    ∃ span, program.Live (.part (.name span first)) ∧ span.start = offset := by
  induction e using path?.induct generalizing others with
  | case1 span text =>
    obtain ⟨rfl, same⟩ := Prod.mk.inj (Option.some.inj path)
    obtain rfl := (List.cons.inj same).1
    exact ⟨span, live, rfl⟩
  | case2 span object property ih =>
    obtain ⟨⟨start, names⟩, way, same⟩ := Option.map_eq_some_iff.mp path
    obtain ⟨rfl, joined⟩ := Prod.mk.inj same
    cases names with
    | nil => exact absurd rfl (ne_nil_of_path way)
    | cons name names =>
      obtain ⟨rfl, -⟩ := List.cons.inj joined
      exact ih (live.part rfl (List.mem_singleton.mpr rfl)) way
  | case3 e other other' =>
    rw [path?.eq_3 e other other'] at path
    contradiction

/-- The name that a live call of `require` calls is live. -/
theorem callee {place : Place} {concise : Bool} {e : Expr} {bindings : Bindings}
    {ignored : List String} {call : RequireCall} (live : program.Live (.expr place concise e))
    (static : requireCall? bindings ignored e = some call) :
    ∃ span, program.Live (.part (.name span FreeName.require.text)) ∧
      bindings.isFreeAt span.start = true := by
  obtain ⟨callee, argument, rfl, -, -, -, free⟩ := requireCall?_eq_some static
  exact ⟨callee, live.part rfl List.mem_cons_self, free⟩

end ModuleInterop.Syntax.Program.Live
