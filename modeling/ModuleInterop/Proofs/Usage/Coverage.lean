import ModuleInterop.Proofs.Usage.Visit

/-!
# No live node is missed

The walk for uses looks at every node that does not stand in a branch known not to be taken, except
inside what it recognises as a whole.  `Concealed` lists what such a whole consists of: the names
along a path, the callee and the fixed text of a call of `require`, the variable that takes its
value.  The walk therefore covers the tree: each live node is looked at, or is one of these few
pieces of a node that is (`reaches_covered`).
-/

set_option autoImplicit false

namespace ModuleInterop.Usage

open ModuleInterop.Syntax ModuleInterop.Scope

/-! ## Along a path -/

/-- The objects along an expression such as `a.b.c`, the expression itself first. -/
def spine : Expr → List Expr
  | .member span object property => .member span object property :: spine object
  | e => [e]

/-- An expression stands on its own spine. -/
theorem mem_spine_self (e : Expr) : e ∈ spine e := by
  cases e <;> simp [spine]

/-- The object of an access on a spine stands on the spine. -/
theorem object_mem_spine {e object : Expr} {span : Span} {property : String}
    (mem : .member span object property ∈ spine e) : object ∈ spine e := by
  fun_induction spine e with
  | case1 span' object' property' ih =>
    rcases List.mem_cons.mp mem with same | mem
    · obtain ⟨-, rfl, -⟩ := Expr.member.inj same
      exact List.mem_cons_of_mem _ (mem_spine_self _)
    · exact List.mem_cons_of_mem _ (ih mem)
  | case2 e other =>
    rw [List.mem_singleton] at mem
    exact absurd mem.symm (other _ _ _)

/-- What stands on the spine of a path is a path that begins with the same name. -/
theorem path?_of_mem_spine {e inner : Expr} {offset : Nat} {names : List String}
    (path : path? e = some (offset, names)) (mem : inner ∈ spine e) :
    ∃ first others, path? inner = some (offset, first) ∧ names = first ++ others := by
  fun_induction spine e generalizing names with
  | case1 span object property ih =>
    rcases List.mem_cons.mp mem with rfl | mem
    · exact ⟨names, [], path, (List.append_nil _).symm⟩
    · rw [path?, Option.map_eq_some_iff] at path
      obtain ⟨⟨start, way⟩, path, same⟩ := path
      obtain ⟨rfl, rfl⟩ := Prod.mk.inj same
      obtain ⟨first, others, path, rfl⟩ := ih path mem
      exact ⟨first, others ++ [property], path, by simp⟩
  | case2 e other =>
    rw [List.mem_singleton] at mem
    subst mem
    exact ⟨names, [], path, (List.append_nil _).symm⟩

/-- A path is a name or an access to a property of a path. -/
theorem parts_of_path {e : Expr} {path : Nat × List String} (h : path? e = some path)
    {known : Expr → Option Bool} {inner : Node} (mem : inner ∈ (Node.part e).parts known) :
    ∃ span object property, e = .member span object property ∧ inner = .part object := by
  cases e with
  | member span object property => exact ⟨span, object, property, rfl, List.mem_singleton.mp mem⟩
  | name span text => simp [Node.part, Node.parts] at mem
  | _ => simp [path?] at h

/-- A path from a free name. -/
theorem freePath?_eq_some {bindings : Bindings} {e : Expr} {names : List String}
    (h : freePath? bindings e = some names) :
    ∃ offset, path? e = some (offset, names) ∧ bindings.isFreeAt offset = true := by
  unfold freePath? at h
  split at h
  · rename_i offset way path
    split at h
    · rename_i free
      obtain rfl := Option.some.inj h
      exact ⟨offset, path, free⟩
    · contradiction
  · contradiction

/-- The path to an object that every module has begins with the object's name. -/
theorem objectOfPath?_eq_some {names : List String} {root : ModuleName}
    (h : objectOfPath? names = some root) : ∃ others, names = root.text :: others := by
  unfold objectOfPath? at h
  split at h
  · exact ⟨[], by simp [← Option.some.inj h, ModuleName.text]⟩
  · exact ⟨["exports"], by simp [← Option.some.inj h, ModuleName.text]⟩
  · exact ⟨[], by simp [← Option.some.inj h, ModuleName.text]⟩
  · contradiction

/-- The path that an assignment exports through begins with the name of the path's root. -/
theorem exportOfPath?_eq_some {names : List String} {path : ExportPath}
    (h : exportOfPath? names = some path) : ∃ others, names = path.root.text :: others := by
  unfold exportOfPath? at h
  split at h
  · exact ⟨["exports"], by simp [← Option.some.inj h, ModuleName.text]⟩
  · rename_i name
    split at h
    · exact ⟨[name], by simp [← Option.some.inj h, ModuleName.text]⟩
    · contradiction
  · rename_i name
    split at h
    · exact ⟨["exports", name], by simp [← Option.some.inj h, ModuleName.text]⟩
    · contradiction
  · contradiction

/-- An expression for an object that every module has is a path from its free name. -/
theorem objectRoot?_eq_some {bindings : Bindings} {e : Expr} {root : ModuleName}
    (h : objectRoot? bindings e = some root) :
    ∃ offset others, path? e = some (offset, root.text :: others) ∧
      bindings.isFreeAt offset = true := by
  obtain ⟨names, free, object⟩ := Option.bind_eq_some_iff.mp h
  obtain ⟨offset, path, isFree⟩ := freePath?_eq_some free
  obtain ⟨others, rfl⟩ := objectOfPath?_eq_some object
  exact ⟨offset, others, path, isFree⟩

/-- What an assignment exports through is a path from its free name. -/
theorem exportPath?_eq_some {bindings : Bindings} {target : Pattern} {path : ExportPath}
    (h : exportPath? bindings target = some path) :
    ∃ e offset others, target = .target e ∧ path? e = some (offset, path.root.text :: others) ∧
      bindings.isFreeAt offset = true := by
  cases target with
  | target e =>
    obtain ⟨names, free, object⟩ := Option.bind_eq_some_iff.mp h
    obtain ⟨offset, way, isFree⟩ := freePath?_eq_some free
    obtain ⟨others, rfl⟩ := exportOfPath?_eq_some object
    exact ⟨e, offset, others, rfl, way, isFree⟩
  | _ => simp [exportPath?] at h

/-- A call that an import can stand for calls the free name `require` with a fixed text. -/
theorem requireCall?_eq_some {bindings : Bindings} {ignored : List String} {e : Expr}
    {call : RequireCall} (h : requireCall? bindings ignored e = some call) :
    ∃ callee argument, e = .call call.span (.name callee "require") [argument] ∧
      fixedText? argument = some call.target ∧ call.target ∉ ignored ∧
      call.scope = bindings.scopeAt callee.start ∧ bindings.isFreeAt callee.start = true := by
  unfold requireCall? at h
  split at h
  · rename_i span callee name argument
    split at h
    · rename_i isRequire
      split at h
      · rename_i target fixed
        split at h
        · contradiction
        · rename_i kept
          obtain rfl := Option.some.inj h
          obtain ⟨rfl, free⟩ := isRequire
          exact ⟨callee, argument, rfl, fixed, by simpa using kept, rfl, free⟩
      · contradiction
    · contradiction
  · contradiction

/-- A fixed text has no parts. -/
theorem parts_of_fixedText {e : Expr} {text : String} (h : fixedText? e = some text)
    {known : Expr → Option Bool} {inner : Node} : inner ∉ (Node.part e).parts known := by
  unfold fixedText? at h
  split at h
  · simp [Node.part, Node.parts]
  · simp [Node.part, Node.parts]
  · contradiction

/-- A variable that takes a required value is declared by its name, with the call as its value. -/
theorem requiredVariable?_eq_some {context : Context} {home : Home} {d : Declarator} {use : Use}
    (h : requiredVariable? context home d = some use) :
    ∃ span name init call, d = .mk span (.binding name) (some init) ∧
      use = .requiredVariable span name.text call ∧
      requireCall? context.bindings context.ignored init = some call ∧
      home ≠ .exported ∧ call.scope = ScopeTree.root ∧
      context.bindings.isConstantAt name.span.start = true := by
  unfold requiredVariable? at h
  split at h
  · rename_i span name init
    split at h
    · rename_i call static
      split at h
      · rename_i fits
        exact ⟨span, name, init, call, rfl, (Option.some.inj h).symm, static, fits⟩
      · contradiction
    · contradiction
  · contradiction

/-! ## What a whole consists of -/

/-- The pieces of a node that is recognised as a whole. -/
inductive Concealed (context : Context) : Node → Node → Prop
  /-- An object on the way to the one whose type is asked for. -/
  | question {place : Place} {concise : Bool} {span : Span} {operand inner : Expr}
      {root : ModuleName} : objectRoot? context.bindings operand = some root →
      inner ∈ spine operand →
      Concealed context (.expr place concise (.unary span .typeof operand)) (.part inner)
  /-- The target of an assignment that exports. -/
  | target {place : Place} {concise plain : Bool} {span : Span} {e value : Expr}
      {path : ExportPath} : exportPath? context.bindings (.target e) = some path →
      Concealed context (.expr place concise (.assign span plain (.target e) value))
        (.pattern (.target e))
  /-- An object on the way to the target of an assignment that exports. -/
  | way {place : Place} {concise plain : Bool} {span : Span} {e value inner : Expr}
      {path : ExportPath} : exportPath? context.bindings (.target e) = some path →
      inner ∈ spine e →
      Concealed context (.expr place concise (.assign span plain (.target e) value)) (.part inner)
  /-- A piece of a call of `require`. -/
  | call {place : Place} {concise : Bool} {e : Expr} {call : RequireCall} {inner : Node} :
      requireCall? context.bindings context.ignored e = some call →
      inner ∈ (Node.part e).parts Expr.truth? →
      Concealed context (.expr place concise e) inner
  /-- The name of a variable that takes a required value. -/
  | bound {home : Home} {d : Declarator} {use : Use} {name : Name} :
      requiredVariable? context home d = some use →
      Concealed context (.declarator home d) (.pattern (.binding name))
  /-- The value of such a variable. -/
  | value {home : Home} {span : Span} {name : Name} {init : Expr} {call : RequireCall} :
      requiredVariable? context home (.mk span (.binding name) (some init)) =
        some (.requiredVariable span name.text call) →
      requireCall? context.bindings context.ignored init = some call →
      Concealed context (.declarator home (.mk span (.binding name) (some init))) (.part init)
  /-- A piece of the value of such a variable. -/
  | valueCall {home : Home} {span : Span} {name : Name} {init : Expr} {call : RequireCall}
      {inner : Node} :
      requiredVariable? context home (.mk span (.binding name) (some init)) =
        some (.requiredVariable span name.text call) →
      requireCall? context.bindings context.ignored init = some call →
      inner ∈ (Node.part init).parts Expr.truth? →
      Concealed context (.declarator home (.mk span (.binding name) (some init))) inner

variable {context : Context}

/-- What a node hides from the walk is concealed in it. -/
theorem concealed_of_mem_hidden {owner node : Node} (h : node ∈ owner.hidden context) :
    Concealed context owner node := by
  unfold Node.hidden at h
  split at h
  · rename_i place concise span operand
    cases object : objectRoot? context.bindings operand with
    | none => simp [object] at h
    | some root =>
      obtain rfl : node = .part operand := by simpa [object] using h
      exact .question object (mem_spine_self operand)
  · rename_i place concise span plain target value
    cases exporting : exportPath? context.bindings target with
    | none => simp [exporting] at h
    | some path =>
      obtain rfl : node = .pattern target := by simpa [exporting] using h
      obtain ⟨e, -, -, rfl, -⟩ := exportPath?_eq_some exporting
      exact .target exporting
  · rename_i place concise span callee arguments
    cases static : requireCall? context.bindings context.ignored (.call span callee arguments) with
    | none => simp [static] at h
    | some call =>
      rw [if_pos (by simp [static])] at h
      exact .call static h
  · rename_i home span target init
    cases taken : requiredVariable? context home (.mk span target init) with
    | none => simp [taken] at h
    | some use =>
      obtain ⟨_, name, value, call, same, rfl, static, -⟩ := requiredVariable?_eq_some taken
      obtain ⟨rfl, rfl, rfl⟩ := Declarator.mk.inj same
      rw [if_pos (by simp [taken])] at h
      rcases List.mem_cons.mp h with rfl | h
      · exact .bound taken
      · obtain rfl : node = .part value := by simpa using h
        exact .value taken static
  · simp at h

/-- The parts of a piece are pieces. -/
theorem Concealed.part {owner node inner : Node} (h : Concealed context owner node)
    (mem : inner ∈ node.parts Expr.truth?) : Concealed context owner inner := by
  have pieces {e : Expr} {call : RequireCall} {node : Node}
      (static : requireCall? context.bindings context.ignored e = some call)
      (piece : node ∈ (Node.part e).parts Expr.truth?) (mem : inner ∈ node.parts Expr.truth?) :
      False := by
    obtain ⟨callee, argument, rfl, fixed, -⟩ := requireCall?_eq_some static
    rcases List.mem_cons.mp piece with rfl | piece
    · simp [Node.part, Node.parts] at mem
    · obtain rfl : node = .part argument := by simpa using piece
      exact parts_of_fixedText fixed mem
  cases h with
  | question object onSpine =>
    obtain ⟨offset, others, path, -⟩ := objectRoot?_eq_some object
    obtain ⟨first, _, path, -⟩ := path?_of_mem_spine path onSpine
    obtain ⟨span, next, property, rfl, rfl⟩ := parts_of_path path mem
    exact .question object (object_mem_spine onSpine)
  | @target _ _ _ _ e _ _ exporting =>
    obtain rfl : inner = .part e := by simpa [Node.parts] using mem
    exact .way exporting (mem_spine_self e)
  | way exporting onSpine =>
    obtain ⟨_, offset, others, same, path, -⟩ := exportPath?_eq_some exporting
    obtain rfl := Pattern.target.inj same
    obtain ⟨first, _, path, -⟩ := path?_of_mem_spine path onSpine
    obtain ⟨span, next, property, rfl, rfl⟩ := parts_of_path path mem
    exact .way exporting (object_mem_spine onSpine)
  | call static piece => exact (pieces static piece mem).elim
  | bound taken => simp [Node.parts] at mem
  | value taken static => exact .valueCall taken static mem
  | valueCall taken static piece => exact (pieces static piece mem).elim

variable {program : Program}

/-- **The walk covers the tree**: a node that does not stand in a branch known not to be taken is
looked at, or is a piece of a node that is looked at and recognised as a whole; if no function or
class is entered on the way to it, the walk knows it to be outside of them. -/
theorem reaches_covered (bindings : Bindings) (ignored : List String) {enters : Node → Bool} {node : Node}
    (reaches : program.Reaches Expr.truth? enters node) :
    ∃ inFunction owner, Visited bindings ignored program inFunction owner ∧
      (node = owner ∨ Concealed ⟨bindings, ignored, inFunction⟩ owner node) ∧
      ((∀ n, enters n = true → n.isBody = false) → inFunction = false) := by
  induction reaches with
  | statement mem => exact ⟨false, _, .statement mem, .inl rfl, fun _ => rfl⟩
  | part _ entered mem ih =>
    obtain ⟨inFunction, owner, visited, rfl | concealed, outer⟩ := ih
    · rcases Node.mem_parts_iff.mp mem with looked | hidden
      · refine ⟨_, _, visited.part looked, .inl rfl, fun h => ?_⟩
        rw [outer h, h _ entered, Bool.or_false]
      · exact ⟨inFunction, _, visited, .inr (concealed_of_mem_hidden hidden), outer⟩
    · exact ⟨inFunction, owner, visited, .inr (concealed.part mem), outer⟩

/-- A statement is no piece of a node that is recognised as a whole. -/
theorem not_concealed_stmt {owner : Node} {home : Home} {concise : Bool} {s : Stmt} :
    ¬ Concealed context owner (.stmt home concise s) := by
  have pieces {e : Expr} {call : RequireCall}
      (static : requireCall? context.bindings context.ignored e = some call) :
      Node.stmt home concise s ∉ (Node.part e).parts Expr.truth? := by
    obtain ⟨callee, argument, rfl, -⟩ := requireCall?_eq_some static
    simp [Node.part, Node.parts]
  intro h
  cases h with
  | call static piece => exact pieces static piece
  | valueCall taken static piece => exact pieces static piece

end ModuleInterop.Usage
