import ModuleInterop.Proofs.Usage.Own

/-!
# What becomes of references and calls

Every live call of `require` that an import can stand for is a use, as a call or as the value of a
variable (`requireCall_covered`).  Every live reference to a free CommonJS name is a use, or belongs
to one: it begins the path of an exporting assignment or of a question for a type, or it is the
callee of such a call (`reference_covered`).  There is one exception: the default of a target that
is written as a name alone is looked at only if it is more than a name itself
(`Node.isBareDefault`).
-/

set_option autoImplicit false

/-- What a chain consists of is all of the statement that the chain is all of. -/
theorem ModuleInterop.Usage.Place.statement?_inChain (place : ModuleInterop.Usage.Place) :
    place.inChain.statement? = place.statement? := by
  cases place <;> rfl

namespace ModuleInterop.Syntax.Program.Reaches

open ModuleInterop.Usage

variable {program : Program} {known : Expr → Option Bool} {enters : Node → Bool} {concise : Bool}

/-- A statement of the module itself is one of the module's statements. -/
theorem mem_body {s : Stmt} (h : program.Reaches known enters (.stmt .body concise s)) :
    s ∈ program.body := by
  cases h with
  | statement mem => exact mem
  | part _ _ mem => cases Node.shape_of_mem_parts mem

/-- An expression that is a statement of the module itself is one of the module's statements. -/
theorem expression_mem_body {span : Span} {e : Expr}
    (h : program.Reaches known enters (.expr (.statement span .body) concise e)) :
    .expression span e ∈ program.body := by
  cases h with
  | part owner _ mem =>
    generalize hplace : Place.statement span .body = place at mem
    cases Node.shape_of_mem_parts mem with
    | expression =>
      obtain ⟨rfl, rfl⟩ := Place.statement.inj hplace
      exact owner.mem_body
    | @chain outer => cases outer <;> cases hplace
    | _ => cases hplace

/-- The body of an arrow function without braces is taken for a statement in a list. -/
theorem statement_of_concise {place : Place} {e : Expr}
    (h : program.Reaches known enters (.expr place true e)) :
    ∃ span, place.statement? = some (span, .list) := by
  generalize hnode : Node.expr place true e = node at h
  induction h generalizing place e with
  | statement mem => cases hnode
  | part owner _ mem ih =>
    subst hnode
    cases Node.shape_of_mem_parts mem with
    | chain =>
      rw [Place.statement?_inChain]
      exact ih rfl
    | expression =>
      cases owner with
      | part _ _ mem =>
        cases Node.shape_of_mem_parts mem with
        | listed => exact ⟨_, rfl⟩

end ModuleInterop.Syntax.Program.Reaches

namespace ModuleInterop.Usage

open ModuleInterop.Syntax ModuleInterop.Scope

variable {bindings : Bindings} {ignored : List String} {program : Program}

/-! ## Calls -/

/-- A path is no call of `require`. -/
theorem requireCall?_of_path {e : Expr} {path : Nat × List String} (h : path? e = some path) :
    requireCall? bindings ignored e = none := by
  cases e <;> simp [path?, requireCall?] at h ⊢

/-- The pieces of a call of `require` are no such calls. -/
theorem requireCall?_of_mem_parts {e inner : Expr} {call : RequireCall} {place : Place}
    {concise : Bool} (static : requireCall? bindings ignored e = some call)
    (mem : .expr place concise inner ∈ (Node.part e).parts Expr.truth?) :
    requireCall? bindings ignored inner = none := by
  obtain ⟨callee, argument, rfl, fixed, -⟩ := requireCall?_eq_some static
  rcases List.mem_cons.mp mem with same | mem
  · obtain ⟨-, -, rfl⟩ := Node.expr.inj same
    rfl
  · obtain ⟨-, -, rfl⟩ : place = .inner ∧ concise = false ∧ inner = argument := by
      simpa [Node.part] using mem
    unfold fixedText? at fixed
    split at fixed
    · rfl
    · rfl
    · contradiction

/-- **Every live call of `require` that an import can stand for is a use**: as a call, with the
statement that it is all of, or as the value of a variable. -/
theorem requireCall_covered {place : Place} {concise : Bool} {e : Expr} {call : RequireCall}
    (live : program.Live (.expr place concise e))
    (static : requireCall? bindings ignored e = some call) :
    .requiring call place.statement? ∈ usesOf bindings ignored program ∨
      place = .inner ∧ concise = false ∧ ∃ home span name,
        program.Live (.declarator home (.mk span (.binding name) (some e))) ∧
        .requiredVariable span name.text call ∈ usesOf bindings ignored program := by
  obtain ⟨inFunction, owner, visited, rfl | concealed, -⟩ := reaches_covered bindings ignored live
  · refine .inl (mem_usesOf_iff.mpr ⟨inFunction, _, visited, ?_⟩)
    obtain ⟨callee, argument, rfl, -⟩ := requireCall?_eq_some static
    simp [Node.own, static]
  · have never {inner : Expr} (none : requireCall? bindings ignored inner = none)
        (same : e = inner) : False := by
      rw [same, none] at static
      contradiction
    cases concealed with
    | question object onSpine =>
      obtain ⟨_, _, path, -⟩ := objectRoot?_eq_some object
      obtain ⟨_, _, path, -⟩ := path?_of_mem_spine path onSpine
      exact (never (requireCall?_of_path path) rfl).elim
    | way exporting onSpine =>
      obtain ⟨_, _, _, same, path, -⟩ := exportPath?_eq_some exporting
      obtain rfl := Pattern.target.inj same
      obtain ⟨_, _, path, -⟩ := path?_of_mem_spine path onSpine
      exact (never (requireCall?_of_path path) rfl).elim
    | call whole piece => exact (never (requireCall?_of_mem_parts whole piece) rfl).elim
    | @value home span name _ same taken whole =>
      obtain rfl : call = same := Option.some.inj (static.symm.trans whole)
      refine .inr ⟨rfl, rfl, home, span, name, visited.live, ?_⟩
      exact mem_usesOf_iff.mpr ⟨inFunction, _, visited, by simp [Node.own, taken]⟩
    | valueCall taken whole piece => exact (never (requireCall?_of_mem_parts whole piece) rfl).elim

/-! ## References -/

/-- How a live reference to a free name is a use, or belongs to one. -/
inductive Accounted (bindings : Bindings) (ignored : List String) (program : Program)
    (node : Node) (span : Span) : FreeName → Prop
  | name {name : FreeName} :
      .name name span node.isShorthand ∈ usesOf bindings ignored program →
      Accounted bindings ignored program node span name
  /-- The name begins the path to an object whose type is asked for. -/
  | question {place : Place} {concise : Bool} {whole : Span} {operand : Expr} {root : ModuleName}
      {others : List String} :
      program.Live (.expr place concise (.unary whole .typeof operand)) →
      path? operand = some (span.start, root.text :: others) →
      .typeofValue whole root ∈ usesOf bindings ignored program →
      Accounted bindings ignored program node span (.value root)
  /-- The name begins the path that an assignment exports through. -/
  | target {place : Place} {concise plain : Bool} {whole : Span} {e value : Expr}
      {path : ExportPath} {others : List String} :
      program.Live (.expr place concise (.assign whole plain (.target e) value)) →
      exportPath? bindings (.target e) = some path →
      path? e = some (span.start, path.root.text :: others) →
      exportingUse place plain path value ∈ usesOf bindings ignored program →
      Accounted bindings ignored program node span (.value path.root)
  /-- The name is the callee of a call that an import can stand for. -/
  | callee {place : Place} {concise : Bool} {call : RequireCall} {argument : Expr} :
      program.Live (.expr place concise (.call call.span (.name span "require") [argument])) →
      .requiring call place.statement? ∈ usesOf bindings ignored program →
      Accounted bindings ignored program node span .require
  /-- The name is the callee of such a call, which is the value of a variable. -/
  | value {home : Home} {whole : Span} {variableName : Name} {call : RequireCall}
      {argument : Expr} :
      program.Live (.declarator home (.mk whole (.binding variableName)
        (some (.call call.span (.name span "require") [argument])))) →
      .requiredVariable whole variableName.text call ∈ usesOf bindings ignored program →
      Accounted bindings ignored program node span .require

/-- A reference that is looked at is a use. -/
theorem Visited.name_mem_usesOf {inFunction : Bool} {node : Node} {span : Span} {name : FreeName}
    (visited : Visited bindings ignored program inFunction node)
    (reference : node.reference? = some (span, name.text))
    (free : bindings.isFreeAt span.start = true) (regular : node.isBareDefault = false) :
    .name name span node.isShorthand ∈ usesOf bindings ignored program := by
  refine mem_usesOf_iff.mpr ⟨inFunction, node, visited, ?_⟩
  have use (shorthand : Bool) :
      Use.name name span shorthand ∈
        usesOfName ⟨bindings, ignored, inFunction⟩ span name.text shorthand :=
    mem_usesOfName.mpr ⟨name, FreeName.ofText?_eq_some_iff.mpr rfl, free, rfl⟩
  cases node with
  | expr place concise e =>
    cases e with
    | name span' text =>
      obtain ⟨rfl, rfl⟩ := Prod.mk.inj (Option.some.inj reference)
      cases place with
      | shorthandDefault => simp [Node.isBareDefault] at regular
      | _ => simpa [Node.own, Node.isShorthand] using use _
    | _ => simp [Node.reference?] at reference
  | property p =>
    cases p with
    | shorthand span' name' default =>
      obtain ⟨rfl, text⟩ := Prod.mk.inj (Option.some.inj reference)
      simpa [Node.own, Node.isShorthand, text] using use true
    | _ => simp [Node.reference?] at reference
  | pattern p =>
    cases p with
    | shorthand span' name' default =>
      obtain ⟨rfl, text⟩ := Prod.mk.inj (Option.some.inj reference)
      simpa [Node.own, Node.isShorthand, text] using use true
    | _ => simp [Node.reference?] at reference
  | specifier s =>
    obtain ⟨rfl, text⟩ := Prod.mk.inj (Option.some.inj reference)
    simpa [Node.own, Node.isShorthand, text] using use false
  | _ => simp [Node.reference?] at reference

/-- Free names are told apart by their spelling. -/
theorem FreeName.text_injective {a b : FreeName} (h : a.text = b.text) : a = b :=
  Option.some.inj ((ofText?_eq_some_iff.mpr h).symm.trans (ofText?_eq_some_iff.mpr rfl))

/-- A name on the spine of a path is the first name of the path. -/
theorem name_on_spine {e : Expr} {span : Span} {text first : String} {offset : Nat}
    {others : List String} (path : path? e = some (offset, first :: others))
    (mem : .name span text ∈ spine e) : offset = span.start ∧ first = text := by
  obtain ⟨before, after, path, names⟩ := path?_of_mem_spine path mem
  rw [path?] at path
  obtain ⟨rfl, rfl⟩ := Prod.mk.inj (Option.some.inj path)
  exact ⟨rfl, (List.cons.inj names).1⟩

/-- The only reference among the pieces of a call of `require` is its callee. -/
theorem callee_of_mem_parts {e : Expr} {call : RequireCall} {node : Node} {span : Span}
    {text : String} (static : requireCall? bindings ignored e = some call)
    (mem : node ∈ (Node.part e).parts Expr.truth?) (reference : node.reference? = some (span, text)) :
    text = "require" ∧ ∃ argument, e = .call call.span (.name span "require") [argument] := by
  obtain ⟨callee, argument, rfl, fixed, -⟩ := requireCall?_eq_some static
  rcases List.mem_cons.mp mem with rfl | mem
  · obtain ⟨rfl, rfl⟩ := Prod.mk.inj (Option.some.inj reference)
    exact ⟨rfl, argument, rfl⟩
  · obtain rfl : node = .part argument := by simpa using mem
    unfold fixedText? at fixed
    split at fixed <;> contradiction

/-- **Every live reference to a free name is a use or belongs to one**, unless it is the bare default
of a target that is written as a name alone. -/
theorem reference_covered {node : Node} {span : Span} {name : FreeName} (live : program.Live node)
    (reference : node.reference? = some (span, name.text))
    (free : bindings.isFreeAt span.start = true) (regular : node.isBareDefault = false) :
    Accounted bindings ignored program node span name := by
  have named {e : Expr} (reference : (Node.part e).reference? = some (span, name.text)) :
      e = .name span name.text := by
    cases e with
    | name span' text =>
      obtain ⟨rfl, rfl⟩ := Prod.mk.inj (Option.some.inj reference)
      rfl
    | _ => contradiction
  obtain ⟨inFunction, owner, visited, rfl | concealed, -⟩ := reaches_covered bindings ignored live
  · exact .name (visited.name_mem_usesOf reference free regular)
  · cases concealed with
    | question object onSpine =>
      obtain rfl := named reference
      obtain ⟨offset, others, path, -⟩ := objectRoot?_eq_some object
      obtain ⟨rfl, same⟩ := name_on_spine path onSpine
      obtain rfl : name = .value _ := FreeName.text_injective same.symm
      refine .question visited.live path (mem_usesOf_iff.mpr ⟨inFunction, _, visited, ?_⟩)
      simp [Node.own, object]
    | target exporting => contradiction
    | way exporting onSpine =>
      obtain rfl := named reference
      obtain ⟨_, offset, others, target, path, -⟩ := exportPath?_eq_some exporting
      obtain rfl := Pattern.target.inj target
      obtain ⟨rfl, same⟩ := name_on_spine path onSpine
      obtain rfl : name = .value _ := FreeName.text_injective same.symm
      refine .target visited.live exporting path
        (mem_usesOf_iff.mpr ⟨inFunction, _, visited, ?_⟩)
      simp [Node.own, exporting]
    | call static piece =>
      obtain ⟨same, argument, rfl⟩ := callee_of_mem_parts static piece reference
      obtain rfl : name = .require := FreeName.text_injective same
      refine .callee visited.live (mem_usesOf_iff.mpr ⟨inFunction, _, visited, ?_⟩)
      simp [Node.own, static]
    | bound taken => contradiction
    | value taken static =>
      obtain ⟨_, _, rfl, -⟩ := requireCall?_eq_some static
      contradiction
    | valueCall taken static piece =>
      obtain ⟨same, argument, rfl⟩ := callee_of_mem_parts static piece reference
      obtain rfl : name = .require := FreeName.text_injective same
      refine .value visited.live (mem_usesOf_iff.mpr ⟨inFunction, _, visited, ?_⟩)
      simp [Node.own, taken]

end ModuleInterop.Usage
