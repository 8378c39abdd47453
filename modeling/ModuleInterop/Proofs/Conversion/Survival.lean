import ModuleInterop.Proofs.Conversion.Alias
import ModuleInterop.Proofs.Patch.Splice
import ModuleInterop.Proofs.Usage.Own

/-!
# The text of a module survives

What a conversion edits are free names, the word `this` outside all functions, questions for a type,
calls of `require` and the statements that they are all of, variables that go, each with one of the gaps
beside it, and the left sides of exports (`Rewritten`).  Everything between these stretches is in the
converted module as it stands in the source, in the same order and once (`source_survives`): the module
is cut at the edits, only blanks at its two ends are lost, and what is put before and after it is new.

Each edit comes from a use (`Findings.foldl_vacates`) or a statement that exports (`Locals.mem_foldl`),
and the uses come from nodes of the module.
-/

set_option autoImplicit false

namespace ModuleInterop.Syntax

open ModuleInterop.Usage

/-- An expression is all of another one, the marks of optional chains aside. -/
inductive Expr.AllOf (e : Expr) : Expr → Prop
  | self : AllOf e e
  | chain {span : Span} {whole : Expr} : AllOf e whole → AllOf e (.chain span whole)

theorem Expr.AllOf.trans {e middle whole : Expr} (h : e.AllOf middle) (h' : middle.AllOf whole) :
    e.AllOf whole := by
  induction h' with
  | self => exact h
  | chain _ ih => exact .chain ih

/-- The statement that an expression is all of. -/
theorem Program.Reaches.statement_of_place {program : Program} {known : Expr → Option Bool}
    {enters : Node → Bool} {place : Place} {concise : Bool} {e : Expr} {span : Span} {home : Home}
    (h : program.Reaches known enters (.expr place concise e))
    (standing : place.statement? = some (span, home)) :
    ∃ whole, program.Reaches known enters (.stmt home concise (.expression span whole)) ∧
      e.AllOf whole := by
  generalize hnode : Node.expr place concise e = node at h
  induction h generalizing place e with
  | statement mem => cases hnode
  | part owner _ mem ih =>
    subst hnode
    cases Node.shape_of_mem_parts mem with
    | chain =>
      rw [Place.statement?_inChain] at standing
      obtain ⟨whole, reached, all⟩ := ih standing rfl
      exact ⟨whole, reached, (Expr.AllOf.chain .self).trans all⟩
    | expression =>
      obtain ⟨rfl, rfl⟩ := Prod.mk.inj (Option.some.inj standing)
      exact ⟨e, owner, .self⟩
    | _ => contradiction

end ModuleInterop.Syntax

namespace ModuleInterop.Conversion

open ModuleInterop.Syntax ModuleInterop.Scope ModuleInterop.Usage ModuleInterop.Patch
  ModuleInterop.Virtual ModuleInterop.Text

/-- What stands for a free name where it is left as a name. -/
def Frame.standIn? (frame : Frame) : FreeName → Option String
  | .require => some (frame.helper (requireHelper frame.options.allowDynamicRequire))
  | .global => if frame.options.ignoreGlobal then none else some (frame.helper globalHelper)
  | .define => some "undefined"
  | .value _ => none

/-- What an edit of a conversion rewrites. -/
inductive Rewritten (program : Program) (source : List Char) (id : String) (options : Options)
    (out : Converted) : Edit → Prop
  /-- A free name. -/
  | name {node : Node} {span : Span} {name : FreeName} {text : String} : program.Live node →
      node.reference? = some (span, name.text) →
      (Bindings.ofProgram program).isFreeAt span.start = true →
      (frameOf program options).standIn? name = some text →
      Rewritten program source id options out (replacement span (renamed name node.isShorthand text))
  /-- The word `this` outside all functions and classes. -/
  | outerThis {place : Place} {concise : Bool} {span : Span} :
      program.LiveOuter (.expr place concise (.this span)) → options.ignoreGlobal = false →
      Rewritten program source id options out
        (replacement span ((frameOf program options).helper globalHelper))
  /-- A question for the type of the module's value or of the object that holds it. -/
  | question {place : Place} {concise : Bool} {span : Span} {operand : Expr} {root : ModuleName} :
      program.Live (.expr place concise (.unary span .typeof operand)) →
      objectRoot? (Bindings.ofProgram program) operand = some root →
      Rewritten program source id options out (replacement span "'object'")
  /-- A call that an import stands for. -/
  | call {place : Place} {concise : Bool} {e : Expr} {call : RequireCall} {entry : RequiredModule} :
      program.Live (.expr place concise e) →
      requireCall? (Bindings.ofProgram program) options.ignored e = some call →
      Imported program source options out call.target entry →
      Rewritten program source id options out (replacement call.span entry.name)
  /-- A statement that such a call is all of. -/
  | statement {home : Home} {concise : Bool} {span : Span} {e whole : Expr} {call : RequireCall} :
      program.Live (.stmt home concise (.expression span whole)) → e.AllOf whole →
      requireCall? (Bindings.ofProgram program) options.ignored e = some call →
      Rewritten program source id options out (vacancy span home)
  /-- A declaration whose variables all go. -/
  | declaration {home : Home} {concise : Bool} {span : Span} {kind : VariableKind}
      {list : List Declarator} :
      program.Live (.stmt home concise (.variables span kind list)) → list ≠ [] →
      (∀ d ∈ list, TakenOver program source options out (declaratorSpan d)) →
      Rewritten program source id options out (vacancy span home)
  /-- The first variables of a declaration, which go, each with the gap after it. -/
  | leading {home : Home} {concise : Bool} {span : Span} {kind : VariableKind}
      {first next : Declarator} {run others : List Declarator} :
      program.Live (.stmt home concise (.variables span kind (first :: run ++ next :: others))) →
      (∀ d ∈ first :: run, TakenOver program source options out (declaratorSpan d)) →
      Rewritten program source id options out
        (deletion (declaratorSpan first).start (declaratorSpan next).start)
  /-- Later variables of a declaration, which go, each with the gap before it. -/
  | later {home : Home} {concise : Bool} {span : Span} {kind : VariableKind}
      {prev last : Declarator} {before run others : List Declarator} :
      program.Live (.stmt home concise
        (.variables span kind (before ++ prev :: (run ++ last :: others)))) →
      (∀ d ∈ run ++ [last], TakenOver program source options out (declaratorSpan d)) →
      Rewritten program source id options out
        (deletion (declaratorSpan prev).stop (declaratorSpan last).stop)
  /-- The left side of a statement that exports, from where the statement begins if it is a property. -/
  | target {span inner : Span} {plain : Bool} {target : Pattern} {value : Expr} {path : ExportPath}
      {edit : Edit} : out.wrapped = false →
      .expression span (.assign inner plain target value) ∈ program.body →
      exportPath? (Bindings.ofProgram program) target = some path →
      (localsOf program source id options).Stores (valueOf program source id options).1 span target
        path.name edit →
      Rewritten program source id options out edit

variable {program : Program} {source : List Char} {id : String} {options : Options}
  {out : Converted} {edited : Output}

/-! ## Where the edits of a module come from -/

/-- What the end of a declaration takes out. -/
theorem Emitted.rewritten_declared (h : Emitted program source id options out edited)
    (parsed : parseModule source = .ok program) {home : Home} {concise : Bool} {whole : Span}
    {kind : VariableKind} {list : List Declarator} {edit : Edit}
    (live : program.Live (.stmt home concise (.variables whole kind list)))
    (order : InOrder whole.start whole.stop (list.map declaratorSpan))
    (vacates : Vacates (findingsOf program source options).elided
      (.declared whole home (list.map declaratorSpan)) edit) :
    Rewritten program source id options out edit := by
  generalize spans : list.map declaratorSpan = all at order vacates
  cases vacates with
  | declaration some gone =>
    subst spans
    refine .declaration live (by simpa using some) fun d mem => ?_
    exact h.takenOver parsed (gone (List.mem_map_of_mem mem))
  | @«variables» _ _ _ gone r subset kept mem =>
    subst spans
    have flags : (list.map declaratorSpan).map (fun s => (s, gone.contains s)) =
        list.map fun d => (declaratorSpan d, gone.contains (declaratorSpan d)) := by
      rw [List.map_map]
      rfl
    have taken {ds : List Declarator} {run : List (Span × Bool)}
        (same : ds.map (fun d => (declaratorSpan d, gone.contains (declaratorSpan d))) = run)
        (goes : ∀ v ∈ run, v.2 = true) :
        ∀ d ∈ ds, TakenOver program source options out (declaratorSpan d) := by
      intro d mem
      have flagged := goes _ (same ▸ List.mem_map_of_mem mem)
      exact h.takenOver parsed (subset (List.contains_iff_mem.mp flagged))
    have flagged : InOrder whole.start whole.stop
        (((list.map declaratorSpan).map fun s => (s, gone.contains s)).map Prod.fst) := by
      rw [List.map_map]
      exact (List.map_id (list.map declaratorSpan)).symm ▸ order
    obtain ⟨s, among, stays⟩ := kept
    have run := takesRun_of_mem flagged
      ⟨(s, gone.contains s), List.mem_map_of_mem among, by simpa using stays⟩ mem
    rw [flags] at run
    cases run with
    | first split goes =>
      obtain ⟨front, back, rfl, fronts, backs⟩ := List.map_eq_append_iff.mp split
      obtain ⟨first, run, rfl, begins, runs⟩ := List.map_eq_cons_iff.mp fronts
      obtain ⟨next, others, rfl, follows, -⟩ := List.map_eq_cons_iff.mp backs
      obtain ⟨rfl, goes'⟩ := Prod.mk.inj begins
      obtain ⟨rfl, -⟩ := Prod.mk.inj follows
      exact .leading live (taken fronts (List.forall_mem_cons.mpr ⟨rfl, goes⟩))
    | later split goes =>
      obtain ⟨before, back, rfl, -, backs⟩ := List.map_eq_append_iff.mp split
      obtain ⟨prev, back, rfl, stands, backs⟩ := List.map_eq_cons_iff.mp backs
      obtain ⟨run, back, rfl, runs, backs⟩ := List.map_eq_append_iff.mp backs
      obtain ⟨last, others, rfl, ends, -⟩ := List.map_eq_cons_iff.mp backs
      obtain ⟨rfl, -⟩ := Prod.mk.inj stands
      obtain ⟨rfl, gone'⟩ := Prod.mk.inj ends
      refine .later live (List.forall_mem_append.mpr ⟨taken runs goes, fun d mem => ?_⟩)
      obtain rfl := List.mem_singleton.mp mem
      exact h.takenOver parsed (subset (List.contains_iff_mem.mp gone'))

/-- What a use calls for. -/
theorem Emitted.rewritten_of_use (h : Emitted program source id options out edited)
    (parsed : parseModule source = .ok program) {use : Use} {edit : Edit}
    (mem : use ∈ usesOf (Bindings.ofProgram program) options.ignored program)
    (called : (findingsOf program source options).Calls (frameOf program options) use edit)
    (vacates : takesOut use = true → Vacates (findingsOf program source options).elided use edit) :
    Rewritten program source id options out edit := by
  have answered := findingsOf_answers source mem
  have declares := fun whole home spans (same : use = .declared whole home spans) =>
    (inOrder_of_declared parsed (same ▸ mem)).2.1
  obtain ⟨inFunction, node, visited, own⟩ := mem_usesOf_iff.mp mem
  have live := visited.live
  cases ownUse_of_mem_own own with
  | @name _ span name reference free regular =>
    cases called with
    | require => exact .name live reference free rfl
    | global heeded =>
      have heeded : options.ignoreGlobal = false := heeded
      refine .name live reference free ?_
      simp only [Frame.standIn?]
      rw [if_neg (by rw [show (frameOf program options).options = options from rfl, heeded]; simp)]
    | define => exact .name live reference free rfl
  | outerThis outer =>
    cases called with
    | outerThis heeded => exact .outerThis (visited.liveOuter outer) heeded
  | question object =>
    cases called with
    | question => exact .question live object
  | exporting exporting => cases called
  | @call place concise e call static =>
    cases standing : place.statement? with
    | none =>
      rw [standing] at called answered
      obtain ⟨entry, found, binds, -⟩ := answered
      cases called with
      | call found' =>
        obtain rfl := Option.some.inj (found.symm.trans found')
        exact .call live static (h.imported found binds)
    | some statement =>
      obtain ⟨span, home⟩ := statement
      rw [standing] at vacates
      obtain ⟨whole, stmt, all⟩ := live.statement_of_place standing
      cases vacates rfl with
      | statement => exact .statement stmt all static
  | @value home span name init call static unexported root constant =>
    have inner : program.Live (.part init) :=
      live.part rfl (List.mem_cons_of_mem _ (List.mem_singleton.mpr rfl))
    cases called with
    | «variable» found other =>
      obtain ⟨entry, found', binds, -⟩ := answered
      obtain rfl := Option.some.inj (found'.symm.trans found)
      exact .call inner static (h.imported found binds)
  | declared => exact h.rewritten_declared parsed live (declares _ _ _ rfl) (vacates rfl)
  | outerReturn outer => cases called

/-- **Every edit of a module** rewrites one of these things. -/
theorem Emitted.rewritten (h : Emitted program source id options out edited)
    (parsed : parseModule source = .ok program) {edit : Edit}
    (mem : edit ∈ (layout program source id options).body.edits) :
    Rewritten program source id options out edit := by
  have of_findings (mem : edit ∈ (findingsOf program source options).edits) :
      Rewritten program source id options out edit := by
    rcases Findings.foldl_vacates mem with before | ⟨use, among, called, vacates⟩
    · contradiction
    · exact h.rewritten_of_use parsed among called vacates
  cases wrapped : (findingsOf program source options).wrapped with
  | true =>
    rw [(layout_of_wrapped id wrapped).2.2] at mem
    exact of_findings mem
  | false =>
    rw [layout_of_open wrapped] at mem
    rcases Locals.mem_foldl _ _ _ _ mem with earlier | ⟨_, _, _, _, _, _, among, exporting, stores⟩
    · exact of_findings earlier
    · exact .target (h.wrapped.trans wrapped) among exporting stores

/-- **The text of a module survives its conversion** but for what the edits rewrite: the text between
them is in the converted module in the same order and once, after new text and before other new text,
and nothing of it is lost but blanks at its two ends. -/
theorem source_survives (parsed : parseModule source = .ok program)
    (converted : convert program source id options = .ok (some out)) :
    ∃ cuts text, (∀ edit ∈ cuts, Rewritten program source id options out edit) ∧
      Spliced cuts 0 source text ∧
      out.code.toList =
        (if trim text = [] then trim (layout program source id options).lead.toList
          else trimStart (layout program source id options).lead.toList) ++ trim text ++
        (layout program source id options).trail.toList := by
  obtain ⟨edited, emitted⟩ := exists_emitted converted
  have confined := confined_layout parsed id options
  refine ⟨_, edited.code, ?_, spliced_of_apply confined.fits confined.apart emitted.edits, ?_⟩
  · intro edit mem
    exact emitted.rewritten parsed ((List.mergeSort_perm _ _).mem_iff.mp mem)
  · rw [emitted.code, trim_append_trim]

set_option maxRecDepth 4000 in
/-- In a module of which one variable goes, the other variable and the value of the export survive. -/
theorem eliding_source_survives :
    parseModule elidingSource = .ok elidingModule ∧
      ∃ out, convert elidingModule elidingSource "m" .plain = .ok (some out) ∧
        ∃ cuts text, (∀ edit ∈ cuts, Rewritten elidingModule elidingSource "m" .plain out edit) ∧
          Spliced cuts 0 elidingSource text ∧ trim text <:+: out.code.toList := by
  have parsed : parseModule elidingSource = .ok elidingModule := rfl
  obtain ⟨out, converted, -⟩ :=
    exists_converted (confined_layout parsed "m" .plain) (by decide +kernel)
  obtain ⟨cuts, text, rewritten, spliced, code⟩ := source_survives parsed converted
  exact ⟨parsed, out, converted, cuts, text, rewritten, spliced, _, _, code.symm⟩

end ModuleInterop.Conversion
