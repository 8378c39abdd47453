import ModuleInterop.Build.Failure
import ModuleInterop.Proofs.Conversion.Elimination
import ModuleInterop.Proofs.Usage.Place
import ModuleInterop.Proofs.Usage.Own

/-!
# Modules that are left alone

A conversion is called for by some of the uses in a module only: a return, a declaration and the name
`define` are used in other modules, too (`Use.calls`).  So a module is converted exactly if it *touches*
CommonJS: one of the names `require`, `module`, `exports` and, if it is heeded, `global` is free in it
and referred to, or `this` stands outside all functions and classes (`any_iff_touches`).  Keys, members,
labels, strings and bound names with these spellings are no such references.

All other modules are left alone, whatever the options, or refused if names were given that they
export (`withoutCommonJs_left_alone`).
-/

set_option autoImplicit false

namespace ModuleInterop.Usage

/-- Whether a use calls for a conversion. -/
def Use.calls (ignoreGlobal : Bool) : Use → Bool
  | .name .require _ _ | .name (.value _) _ _ => true
  | .name .global _ _ | .outerThis _ => !ignoreGlobal
  | .typeofValue _ _ | .exporting _ _ _ | .requiring _ _ | .requiredVariable _ _ _ => true
  | .name .define _ _ | .outerReturn | .declared _ _ _ => false

end ModuleInterop.Usage

namespace ModuleInterop.Conversion

open ModuleInterop.Syntax ModuleInterop.Scope ModuleInterop.Usage

namespace Findings

variable (frame : Frame) (findings : Findings)

/-- Whether there are required modules does not depend on whether their values are used. -/
theorem any_bindValue (target : String) : (findings.bindValue target).any = findings.any := by
  simp [any, bindValue]

/-- With a target registered, a conversion is called for. -/
theorem any_register (call : RequireCall) (preferred : Option String) :
    (findings.register frame call preferred).2.any = true :=
  any_of_find? _ (find?_register frame findings call preferred)

/-- **A step** calls for a conversion if and only if its use does. -/
theorem any_step (use : Use) :
    (findings.step frame use).any = (findings.any || use.calls frame.options.ignoreGlobal) := by
  cases use with
  | name name span shorthand =>
    cases name with
    | require => simp [step, replaceName, replace, any, Use.calls]
    | value root => cases root <;> simp [step, escape, useValue, any, Use.calls]
    | global =>
      cases ignored : frame.options.ignoreGlobal <;>
        simp [step, replaceName, replace, any, Use.calls, ignored]
    | define => simp [step, replaceName, replace, any, Use.calls]
  | outerThis span =>
    cases ignored : frame.options.ignoreGlobal <;> simp [step, replace, any, Use.calls, ignored]
  | typeofValue span root => cases root <;> simp [step, escape, useValue, replace, any, Use.calls]
  | outerReturn => simp [step, any, Use.calls]
  | exporting path direct names =>
    obtain ⟨root, name⟩ := path
    cases root <;> simp [step, useValue, any, Use.calls]
  | requiring call statement =>
    have registered := any_register frame findings call none
    cases statement with
    | none =>
      have bound := (any_bindValue (findings.register frame call none).2 call.target).trans registered
      rw [Use.calls, Bool.or_true]
      exact bound
    | some statement =>
      obtain ⟨edits, removed⟩ := removeStatement_eq (findings.register frame call none).2
        statement.1 statement.2
      simp only [step, removed, Use.calls, Bool.or_true]
      exact registered
  | requiredVariable span name call =>
    have bound := (any_bindValue (findings.register frame call (some name)).2 call.target).trans
      (any_register frame findings call (some name))
    simp only [step, Use.calls, Bool.or_true]
    split
    · exact bound
    · exact bound
  | declared span home declarators =>
    obtain ⟨edits, elided⟩ := elide_eq findings span home declarators
    simp only [step, elided, Use.calls, Bool.or_false]
    rfl

/-- **A run** calls for a conversion if and only if one of its uses does. -/
theorem any_foldl (uses : List Use) :
    (uses.foldl (step frame) findings).any =
      (findings.any || uses.any (Use.calls frame.options.ignoreGlobal)) := by
  induction uses generalizing findings with
  | nil => exact (Bool.or_false _).symm
  | cons use uses ih => rw [List.foldl_cons, ih, any_step, List.any_cons, Bool.or_assoc]

end Findings

/-- A module calls for a conversion if and only if one of its uses does. -/
theorem findingsOf_any {program : Program} {source : List Char} {options : Options} :
    (findingsOf program source options).any =
      (usesOf (Bindings.ofProgram program) options.ignored program).any
        (Use.calls options.ignoreGlobal) :=
  (Findings.any_foldl _ _ _).trans (Bool.false_or _)

/-! ## Touching CommonJS -/

/-- A module refers to a name that CommonJS modules get from outside, or to the global object by
`this`. -/
inductive Touches (program : Program) (ignoreGlobal : Bool) : Prop
  | reference {node : Node} {span : Span} {name : FreeName} : program.Live node →
      node.reference? = some (span, name.text) →
      (Bindings.ofProgram program).isFreeAt span.start = true → node.isBareDefault = false →
      name ≠ .define → (name = .global → ignoreGlobal = false) → Touches program ignoreGlobal
  | outerThis {place : Place} {concise : Bool} {span : Span} :
      program.LiveOuter (.expr place concise (.this span)) → ignoreGlobal = false →
      Touches program ignoreGlobal

variable {program : Program} {source : List Char} {id : String} {options : Options}

/-- A live path to the value of the module touches CommonJS. -/
theorem touches_of_path {ignoreGlobal : Bool} {e : Expr} {offset : Nat} {root : ModuleName}
    {others : List String} (live : program.Live (.part e))
    (path : path? e = some (offset, root.text :: others))
    (free : (Bindings.ofProgram program).isFreeAt offset = true) : Touches program ignoreGlobal := by
  obtain ⟨span, live, rfl⟩ := live.base path
  have named : (Node.part (.name span root.text)).reference? =
      some (span, (FreeName.value root).text) := rfl
  exact .reference live named free rfl nofun nofun

/-- A live call of `require` touches CommonJS. -/
theorem touches_of_requireCall {ignoreGlobal : Bool} {place : Place} {concise : Bool} {e : Expr}
    {ignored : List String} {call : RequireCall} (live : program.Live (.expr place concise e))
    (static : requireCall? (Bindings.ofProgram program) ignored e = some call) :
    Touches program ignoreGlobal := by
  obtain ⟨span, live, free⟩ := live.callee static
  have named : (Node.part (.name span FreeName.require.text)).reference? =
      some (span, FreeName.require.text) := rfl
  exact .reference live named free rfl nofun nofun

/-- A use that calls for a conversion touches CommonJS. -/
theorem touches_of_ownUse {ignoreGlobal inFunction : Bool} {ignored : List String} {node : Node}
    {use : Use} (visited : Visited (Bindings.ofProgram program) ignored program inFunction node)
    (own : OwnUse ⟨Bindings.ofProgram program, ignored, inFunction⟩ node use)
    (calls : use.calls ignoreGlobal = true) : Touches program ignoreGlobal := by
  have live := visited.live
  cases own with
  | @name _ span name reference free regular =>
    refine .reference live reference free regular ?_ ?_
    · rintro rfl
      exact Bool.false_ne_true calls
    · rintro rfl
      simpa [Use.calls] using calls
  | outerThis outer => exact .outerThis (visited.liveOuter outer) (by simpa [Use.calls] using calls)
  | question object =>
    obtain ⟨offset, others, path, free⟩ := objectRoot?_eq_some object
    exact touches_of_path (live.part rfl (List.mem_singleton.mpr rfl)) path free
  | exporting exporting =>
    obtain ⟨e, offset, others, rfl, path, free⟩ := exportPath?_eq_some exporting
    have target := live.part rfl List.mem_cons_self
    exact touches_of_path (target.part rfl (List.mem_singleton.mpr rfl)) path free
  | call static => exact touches_of_requireCall live static
  | value static =>
    have init := live.part rfl (List.mem_cons_of_mem _ (List.mem_singleton.mpr rfl))
    exact touches_of_requireCall init static
  | declared => exact absurd calls Bool.false_ne_true
  | outerReturn => exact absurd calls Bool.false_ne_true

/-- The word `this` outside all functions and classes is a use if it is live. -/
theorem outerThis_mem_usesOf {bindings : Bindings} {ignored : List String} {place : Place}
    {concise : Bool} {span : Span} (live : program.LiveOuter (.expr place concise (.this span))) :
    .outerThis span ∈ usesOf bindings ignored program := by
  obtain ⟨inFunction, owner, visited, covered, outer⟩ := reaches_covered bindings ignored live
  obtain rfl := outer fun n h => by simpa using h
  rcases covered with rfl | concealed
  · exact mem_usesOf_iff.mpr ⟨false, _, visited, List.mem_singleton.mpr rfl⟩
  · rcases concealed.expr with path | fixed | static <;> contradiction

/-- **A module is converted exactly if it touches CommonJS.** -/
theorem any_iff_touches :
    (findingsOf program source options).any = true ↔ Touches program options.ignoreGlobal := by
  constructor
  · intro any
    rw [findingsOf_any] at any
    obtain ⟨use, mem, calls⟩ := List.any_eq_true.mp any
    obtain ⟨inFunction, node, visited, own⟩ := mem_usesOf_iff.mp mem
    exact touches_of_ownUse visited (ownUse_of_mem_own own) calls
  · rintro (⟨live, reference, free, regular, known, heeded⟩ | ⟨live, heeded⟩)
    · exact any_of_accounted source (reference_covered live reference free regular) known heeded
    · rw [findingsOf_any]
      exact List.any_eq_true.mpr ⟨_, outerThis_mem_usesOf live, by simp [Use.calls, heeded]⟩

/-! ## Modules that do not touch it -/

/-- Nothing in a module makes it a CommonJS module, in any branch: what it refers to under the names
that CommonJS modules get from outside it declares itself, and the word `this` stands in functions and
classes only. -/
structure WithoutCommonJs (program : Program) (ignoreGlobal : Bool) : Prop where
  bound : ∀ node span text, program.Reaches (fun _ => none) (fun _ => true) node →
    node.reference? = some (span, text) → text.toList ∈ commonJsWords ignoreGlobal →
    (Bindings.ofProgram program).isFreeAt span.start = false
  enclosed : ignoreGlobal = false → ∀ place concise span,
    ¬ program.Outer (.expr place concise (.this span))

/-- The names that call for a conversion are among the words that modules are searched for. -/
theorem text_mem_commonJsWords {name : FreeName} {ignoreGlobal : Bool} (known : name ≠ .define)
    (heeded : name = .global → ignoreGlobal = false) :
    name.text.toList ∈ commonJsWords ignoreGlobal := by
  refine List.mem_map_of_mem ?_
  cases name with
  | require => cases ignoreGlobal <;> exact List.mem_cons_self
  | value root => cases root <;> cases ignoreGlobal <;> decide
  | global =>
    rw [heeded rfl]
    decide
  | define => contradiction

/-- A module without CommonJS does not touch it. -/
theorem WithoutCommonJs.not_touches {ignoreGlobal : Bool} (h : WithoutCommonJs program ignoreGlobal) :
    ¬ Touches program ignoreGlobal := by
  rintro (⟨live, reference, free, -, known, heeded⟩ | ⟨live, heeded⟩)
  · have bound := h.bound _ _ _ live.unconditional reference (text_mem_commonJsWords known heeded)
    exact Bool.false_ne_true (bound.symm.trans free)
  · exact h.enclosed heeded _ _ _ live.unconditional

/-- **A module without CommonJS is left alone**, whatever is asked for; if names were given that it
exports, the conversion is refused for this module. -/
theorem withoutCommonJs_left_alone (h : WithoutCommonJs program options.ignoreGlobal) :
    (options.namedExports = [] → convert program source id options = .ok none) ∧
      (options.namedExports ≠ [] →
        (convert program source id options).mapError (Build.Failure.ofRefusal id) =
          .error (.notCommonJs id)) := by
  have calm : (analyse program source options).2.any = false :=
    Bool.eq_false_iff.mpr fun any => h.not_touches (any_iff_touches.mp any)
  constructor
  · intro nothing
    simp [convert, calm, nothing]
  · intro something
    simp [convert, calm, something, Except.mapError, Build.Failure.ofRefusal]

/-- A function `require` of the module's own, and a property `exports` of it. -/
def shadowSource : List Char := "function require() \x7b\x7d require.exports;".toList

/-- The function in `shadowSource`. -/
def shadowFunction : Expr := .function ⟨0, 21⟩ .declaration (some ⟨⟨9, 16⟩, "require"⟩) [] []

/-- The access in `shadowSource`. -/
def shadowAccess : Expr := .member ⟨22, 37⟩ (.name ⟨22, 29⟩ "require") "exports"

/-- The tree of `shadowSource`. -/
def shadowModule : Program := ⟨[.declaration shadowFunction, .expression ⟨22, 38⟩ shadowAccess]⟩

/-- All nodes of `shadowModule`. -/
def shadowNodes : List Node :=
  [.stmt .body false (.declaration shadowFunction), .part shadowFunction,
    .stmt .body false (.expression ⟨22, 38⟩ shadowAccess),
    .expr (.statement ⟨22, 38⟩ .body) false shadowAccess, .part (.name ⟨22, 29⟩ "require")]

set_option maxRecDepth 4000 in
/-- The module is left alone, and refused if it has to export a name. -/
theorem shadow_left_alone :
    parseModule shadowSource = .ok shadowModule ∧
      WithoutCommonJs shadowModule Options.plain.ignoreGlobal ∧
      convert shadowModule shadowSource "m" .plain = .ok none ∧
      (convert shadowModule shadowSource "m" { Options.plain with namedExports := ["a"] }).mapError
        (Build.Failure.ofRefusal "m") = .error (.notCommonJs "m") := by
  have nodes {enters : Node → Bool} {node : Node}
      (reaches : shadowModule.Reaches (fun _ => none) enters node) : node ∈ shadowNodes := by
    refine reaches.mem_of_closed ?_ ?_
    · simp [shadowModule, shadowNodes]
    · simp [shadowNodes, Node.parts, shadowFunction, shadowAccess, Node.part]
  have without : WithoutCommonJs shadowModule false := by
    constructor
    · intro node span text reaches reference _
      have mem := nodes reaches
      simp only [shadowNodes, List.mem_cons, List.not_mem_nil, or_false] at mem
      rcases mem with rfl | rfl | rfl | rfl | rfl
      iterate 4 contradiction
      obtain ⟨rfl, rfl⟩ := Prod.mk.inj (Option.some.inj reference)
      decide +kernel
    · intro _ place concise span reaches
      simpa [shadowNodes, shadowFunction, shadowAccess, Node.part] using nodes reaches
  exact ⟨rfl, without, (withoutCommonJs_left_alone without).1 rfl,
    (withoutCommonJs_left_alone without).2 (List.cons_ne_nil _ _)⟩

end ModuleInterop.Conversion
