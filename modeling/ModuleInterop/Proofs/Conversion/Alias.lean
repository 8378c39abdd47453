import ModuleInterop.Proofs.Conversion.Freshness
import ModuleInterop.Proofs.Usage.Standing

/-!
# Variables that go

A variable goes from the converted module if an import is made under its name.  The name then stands
for the imported value wherever it is referred to, so nothing else may declare or store to the binding
of the variable (`DeclaredOnce`), and the variable itself has to be declared always.

`elision_sound` says when a variable goes, and that the others of its declaration stay.  The test for
the last condition is whether the top scope is around the variable.  A condition, a simple loop or a
label begins no scope, and so a variable that is declared by the single statement there goes, too,
although it may never get its value (`conditional_variable_goes`).  Otherwise it is declared by a
statement of the module itself.
-/

set_option autoImplicit false

namespace ModuleInterop.Scope

open ModuleInterop.Syntax

/-- A name that is declared once, wherever in the module one looks: no other name is declared for its
binding, and no name that is stored to refers to it. -/
structure DeclaredOnce (program : Program) (name : Name) (binding : Nat) : Prop where
  declared : (name.span.start, binding) ∈ (Bindings.ofProgram program).declarations
  only : ∀ node, program.Reaches (fun _ => none) (fun _ => true) node → ∀ other ∈ node.declared,
    ∃ b, (other.span.start, b) ∈ (Bindings.ofProgram program).declarations ∧
      (b = binding → other.span.start = name.span.start)
  unwritten : ∀ node, program.Reaches (fun _ => none) (fun _ => true) node →
    ∀ offset text, node.stored? = some (offset, text) →
      ∃ r, (Bindings.ofProgram program).referenceAt? offset = some r ∧ r.name = text ∧
        r.binding ≠ some binding

variable {source : List Char} {program : Program}

/-- A binding that is declared once has one position where it is declared. -/
theorem eq_of_declarationCount {bindings : Bindings} {binding : Nat}
    (once : bindings.declarationCount binding = 1) {p q : Nat}
    (first : (p, binding) ∈ bindings.declarations) (other : (q, binding) ∈ bindings.declarations) :
    p = q := by
  obtain ⟨only, all⟩ := List.length_eq_one_iff.mp once
  have among {p : Nat} (mem : (p, binding) ∈ bindings.declarations) : (p, binding) = only := by
    rw [← List.mem_singleton, ← all]
    exact List.mem_filter.mpr ⟨mem, beq_self_eq_true _⟩
  exact congrArg Prod.fst ((among first).trans (among other).symm)

/-- **A constant is declared once** in the module, in any function and any branch of it. -/
theorem declaredOnce_of_constant (parsed : parseModule source = .ok program) {name : Name}
    (constant : (Bindings.ofProgram program).isConstantAt name.span.start = true) :
    ∃ binding, DeclaredOnce program name binding := by
  obtain ⟨binding, declared, once, unwritten⟩ := only_declaration_of_constant constant
  refine ⟨binding, declared, ?_, ?_⟩
  · intro node reached other mem
    obtain ⟨rule, occurs⟩ := reached.declared parsed mem
    have position : other.span.start ∈ declaredOffsets (ofStmts program.body) :=
      List.mem_filterMap.mpr ⟨_, occurs, rfl⟩
    rw [← records_ofOccurrences] at position
    obtain ⟨⟨offset, b⟩, recorded, rfl⟩ := List.mem_map.mp position
    refine ⟨b, recorded, ?_⟩
    rintro rfl
    exact eq_of_declarationCount once recorded declared
  · intro node reached offset text stores
    obtain ⟨before, after, run⟩ := List.append_of_mem (reached.stored parsed stores)
    have distinct := (referredOffsets_sublist _).nodup (Conversion.nodup_offsets parsed)
    obtain ⟨r, mem, found, named, -, writes⟩ :=
      referenceAt?_of_refer (balanced_ofStmts program.body) run distinct
    refine ⟨r, found, named, fun same => ?_⟩
    have written : (Bindings.ofProgram program).isWritten binding = true :=
      List.any_eq_true.mpr ⟨r, mem, by simp [writes, same]⟩
    rw [unwritten] at written
    contradiction

end ModuleInterop.Scope

namespace ModuleInterop.Conversion

open ModuleInterop.Syntax ModuleInterop.Scope ModuleInterop.Usage ModuleInterop.Patch
  ModuleInterop.Virtual ModuleInterop.Text

/-! ## The variables that stay -/

/-- Laid variables follow one another. -/
theorem inOrder_of_laidAll {source : List Char} {lo hi : Nat} {home : Home} {list : List Declarator}
    (laid : LaidAll source 0 lo hi (list.map (.declarator home))) :
    InOrder lo hi (list.map declaratorSpan) ∧
      ∀ s ∈ list.map declaratorSpan, Boundary source s.start ∧ Boundary source s.stop := by
  induction list generalizing lo with
  | nil => exact ⟨laid.le, by simp⟩
  | cons d list ih =>
    cases laid with
    | cons first others =>
      obtain ⟨span, target, init⟩ := d
      obtain ⟨⟨lo_le, -, le_mid, start, stop⟩, text⟩ := first.fits
      obtain ⟨order, boundaries⟩ := ih others
      refine ⟨⟨lo_le, text, ?_⟩, List.forall_mem_cons.mpr ⟨⟨start, stop⟩, boundaries⟩⟩
      cases list with
      | nil => exact Nat.le_trans le_mid order
      | cons next list => exact ⟨Nat.le_trans le_mid order.1, order.2⟩

namespace Findings

/-- What the end of a declaration takes out of the text: it lies in the declaration, nothing or an
empty statement takes its place, and each variable that is not to go is left alone. -/
def Spares (before after : Findings) (whole : Span) (spans : List Span) : Prop :=
  ∃ cuts, after.edits = before.edits ++ cuts ∧
    (∀ e ∈ cuts, whole.start ≤ e.start ∧ e.stop ≤ whole.stop ∧ Removes e) ∧
    ∀ s ∈ spans, s ∉ before.elided → ∀ e ∈ cuts, e.stop ≤ s.start ∨ s.stop ≤ e.start

theorem edits_removeStatement {span : Span} (text : span.start < span.stop) (findings : Findings)
    (home : Home) : ∃ e, (findings.removeStatement span home).edits = findings.edits ++ [e] ∧
      e.start = span.start ∧ e.stop = span.stop ∧ Removes e := by
  unfold removeStatement
  split
  · unfold delete remove
    rw [if_pos text]
    exact ⟨_, rfl, rfl, rfl, .inl rfl⟩
  · exact ⟨_, rfl, rfl, rfl, .inr rfl⟩

/-- **The end of a declaration** leaves the variables alone that are not to go. -/
theorem spares_elide {source : List Char} (findings : Findings) {whole : Span} {spans : List Span}
    (text : whole.start < whole.stop) (order : InOrder whole.start whole.stop spans)
    (boundaries : ∀ s ∈ spans, Boundary source s.start ∧ Boundary source s.stop) (home : Home) :
    Spares findings (findings.elide whole home spans) whole spans := by
  unfold elide
  dsimp only
  split
  · exact ⟨[], by simp, by simp, by simp⟩
  · split
    · rename_i all
      obtain ⟨e, added, start, stop, removes⟩ := edits_removeStatement text findings home
      refine ⟨[e], added, ?_, ?_⟩
      · intro e mem
        obtain rfl := List.mem_singleton.mp mem
        exact ⟨Nat.le_of_eq start.symm, Nat.le_of_eq stop, removes⟩
      · intro s mem stays
        have goes := List.all_eq_true.mp all _ (List.mem_map_of_mem mem)
        exact absurd (List.contains_iff_mem.mp goes) stays
    · obtain ⟨inside, -, spares⟩ := cuts_elide findings.elided order boundaries
      refine ⟨_, edits_deleteAll fun r mem => (inside r mem).2.1, ?_, ?_⟩
      · intro e mem
        obtain ⟨r, range, rfl⟩ := List.mem_map.mp mem
        exact ⟨(inside r range).1, (inside r range).2.2.1, .inl rfl⟩
      · intro s mem stays e cut
        obtain ⟨r, range, rfl⟩ := List.mem_map.mp cut
        exact spares r range s mem stays

end Findings

/-! ## The variables that go -/

variable {program : Program} {source : List Char} {id : String} {options : Options}
  {out : Converted} {edited : Output}

/-- An import takes over the name of a variable: nothing but conditions, simple loops and labels is
around the declaration, which is a statement of the module itself unless it is all that one of them
consists of; it is not exported, declares its binding once, and its value is imported under the name. -/
inductive TakenOver (program : Program) (source : List Char) (options : Options) (out : Converted)
    (span : Span) : Prop
  | of_variable {home : Home} {name : Name} {init : Expr} {call : RequireCall} {binding : Nat}
      {entry : RequiredModule} :
      program.InTopScope (.declarator home (.mk span (.binding name) (some init))) →
      home ≠ .exported →
      (home = .sole ∨ ∃ whole kind list, .variables whole kind list ∈ program.body ∧
        .mk span (.binding name) (some init) ∈ list) →
      requireCall? (Bindings.ofProgram program) options.ignored init = some call →
      DeclaredOnce program name binding →
      Imported program source options out call.target entry → entry.name = name.text →
      TakenOver program source options out span

/-- A declaration in the top scope is a statement of the module itself, unless it is exported or all
that a condition, a simple loop or a label consists of. -/
theorem sole_or_mem_body {home : Home} {d : Declarator}
    (top : program.InTopScope (.declarator home d)) (unexported : home ≠ .exported) :
    home = .sole ∨ ∃ whole kind list, .variables whole kind list ∈ program.body ∧ d ∈ list := by
  cases home with
  | body => exact .inr top.declarator_mem_body
  | list => exact absurd top.not_listed (by simp [Node.isListed])
  | sole => exact .inl rfl
  | exported => contradiction

/-- **A variable goes only if an import takes over its name.** -/
theorem Emitted.takenOver (h : Emitted program source id options out edited)
    (parsed : parseModule source = .ok program) {span : Span}
    (gone : span ∈ (findingsOf program source options).elided) :
    TakenOver program source options out span := by
  rcases Findings.foldl_elided gone with before | ⟨text, call, entry, among, found, named, binds⟩
  · contradiction
  obtain ⟨inFunction, node, visited, own⟩ := mem_usesOf_iff.mp among
  cases ownCall_of_mem_own own rfl with
  | value static unexported root constant =>
    have top := Program.inTopScope_of_root parsed visited.live static root
    obtain ⟨binding, once⟩ := declaredOnce_of_constant parsed constant
    exact .of_variable top unexported (sole_or_mem_body top unexported) static once
      (h.imported found binds) named

/-- The variables of a declaration whose end is among the uses follow one another in it. -/
theorem inOrder_of_declared (parsed : parseModule source = .ok program) {ignored : List String}
    {whole : Span} {home : Home} {spans : List Span}
    (mem : .declared whole home spans ∈ usesOf (Bindings.ofProgram program) ignored program) :
    whole.start < whole.stop ∧ InOrder whole.start whole.stop spans ∧
      ∀ s ∈ spans, Boundary source s.start ∧ Boundary source s.stop := by
  obtain ⟨inFunction, node, visited, own⟩ := mem_usesOf_iff.mp mem
  obtain ⟨concise, kind, list, rfl, rfl⟩ := declared_mem_own own
  obtain ⟨lo, hi, laid⟩ := Program.Reaches.exists_laid parsed visited.live
  have inside : LaidAll source 0 (whole.start + 1) whole.stop (list.map (.declarator .list)) := by
    have pieces := laid.inside
    simpa [Node.inside, Node.pieces, Node.parts, Node.frame] using pieces
  obtain ⟨order, boundaries⟩ := inOrder_of_laidAll inside
  refine ⟨inside.le, ?_, boundaries⟩
  cases list with
  | nil => exact Nat.le_of_succ_le order
  | cons d list => exact ⟨Nat.le_of_succ_le order.1, order.2⟩

/-- **A variable goes only if its name can stand for the imported value**: an import takes over the
name, and what the end of a declaration takes out of the text spares all variables that do not go. -/
theorem elision_sound (parsed : parseModule source = .ok program)
    (converted : convert program source id options = .ok (some out)) :
    (∀ span ∈ (findingsOf program source options).elided,
      TakenOver program source options out span) ∧
    ∀ earlier whole home spans later,
      usesOf (Bindings.ofProgram program) options.ignored program =
        earlier ++ .declared whole home spans :: later →
      ∃ before cuts, before = earlier.foldl (Findings.step (frameOf program options))
          (begin (Bindings.ofProgram program) options (hasCompiledMark source)).2 ∧
        (before.step (frameOf program options) (.declared whole home spans)).edits =
          before.edits ++ cuts ∧
        cuts ⊆ (layout program source id options).body.edits ∧
        (∀ e ∈ cuts, whole.start ≤ e.start ∧ e.stop ≤ whole.stop ∧ Removes e) ∧
        ∀ s ∈ spans, s ∉ (findingsOf program source options).elided →
          ∀ e ∈ cuts, e.stop ≤ s.start ∨ s.stop ≤ e.start := by
  obtain ⟨edited, emitted⟩ := exists_emitted converted
  refine ⟨fun span gone => emitted.takenOver parsed gone, ?_⟩
  intro earlier whole home spans later split
  have mem : .declared whole home spans ∈
      usesOf (Bindings.ofProgram program) options.ignored program := by
    rw [split]
    exact List.mem_append_right _ List.mem_cons_self
  obtain ⟨text, order, boundaries⟩ := inOrder_of_declared parsed mem
  obtain ⟨cuts, edits, within, spares⟩ := Findings.spares_elide (earlier.foldl
    (Findings.step (frameOf program options)) (begin (Bindings.ofProgram program) options
      (hasCompiledMark source)).2) text order boundaries home
  have final : findingsOf program source options = later.foldl (Findings.step (frameOf program options))
      ((earlier.foldl (Findings.step (frameOf program options)) (begin (Bindings.ofProgram program)
        options (hasCompiledMark source)).2).step (frameOf program options)
          (.declared whole home spans)) := by
    rw [findingsOf_eq, split, List.foldl_append, List.foldl_cons]
  have grown := Findings.foldl_grows (Findings.step (frameOf program options) (earlier.foldl
    (Findings.step (frameOf program options)) (begin (Bindings.ofProgram program) options
      (hasCompiledMark source)).2) (.declared whole home spans)) (frameOf program options) later
  rw [← final] at grown
  refine ⟨_, cuts, rfl, edits, ?_, within, ?_⟩
  · intro e cut
    apply edits_subset_layout
    exact grown.edits.subset (edits ▸ List.mem_append_right _ cut)
  · intro s among stays
    refine spares s among fun gone => stays (grown.elided.subset ?_)
    exact (Findings.elided_elide _ _ _ _).symm ▸ gone

set_option maxRecDepth 4000 in
/-- In a module with a name of each kind, the variable that goes is taken over. -/
theorem kinds_taken_over :
    parseModule kindsSource = .ok kindsModule ∧
      ∃ out, convert kindsModule kindsSource "m" .plain = .ok (some out) ∧
        TakenOver kindsModule kindsSource .plain out ⟨4, 20⟩ := by
  have parsed : parseModule kindsSource = .ok kindsModule := rfl
  obtain ⟨out, converted, -⟩ :=
    exists_converted (confined_layout parsed "m" .plain) (by decide +kernel)
  exact ⟨parsed, out, converted, (elision_sound parsed converted).1 _ (by decide +kernel)⟩

/-! ## A variable under a condition -/

/-- A module that declares a variable only if a condition holds. -/
def conditionalSource : List Char := "if (c) var a = require('a');".toList

/-- The tree of `conditionalSource`. -/
def conditionalModule : Program :=
  ⟨[.ifElse ⟨0, 28⟩ (.name ⟨4, 5⟩ "c")
    (.variables ⟨7, 28⟩ .var
      [.mk ⟨11, 27⟩ (.binding ⟨⟨11, 12⟩, "a"⟩)
        (some (.call ⟨15, 27⟩ (.name ⟨15, 22⟩ "require") [.literal ⟨23, 26⟩ (.string "a")]))])
    none]⟩

set_option maxRecDepth 4000 in
/-- The variable goes although no statement of the module itself declares it: the converted module has
the value of the import in `a` whether the condition holds or not. -/
theorem conditional_variable_goes :
    parseModule conditionalSource = .ok conditionalModule ∧
      (∃ out, convert conditionalModule conditionalSource "m" .plain = .ok (some out) ∧
        ("import " ++ quote "a" ++ ";\n" ++ valueImport "a" "a" ++ "\n\nif (c) ;").toList <+:
          out.code.toList) ∧
      ⟨11, 27⟩ ∈ (findingsOf conditionalModule conditionalSource .plain).elided ∧
      ∀ whole kind list, Stmt.variables whole kind list ∉ conditionalModule.body := by
  refine ⟨rfl, ?_, by decide +kernel, by simp [conditionalModule]⟩
  obtain ⟨out, converted, code⟩ := exists_of_any (show
    (convert conditionalModule conditionalSource "m" .plain).toOption.join.any (fun out =>
      ("import " ++ quote "a" ++ ";\n" ++ valueImport "a" "a" ++ "\n\nif (c) ;").toList <+:
        out.code.toList) = true by decide +kernel)
  exact ⟨out, converted, of_decide_eq_true code⟩

end ModuleInterop.Conversion
