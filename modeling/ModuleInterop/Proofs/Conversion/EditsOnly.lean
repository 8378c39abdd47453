import ModuleInterop.Proofs.Conversion.Alias
import ModuleInterop.Proofs.Conversion.Item

/-!
# Nodes that edit only some stretches of the text

If a part of a node that the walk looks at edits only some stretches of the text, and all stretches
outside the part are among these, the same holds of the node (`EditsOnly.part`), and so of the module
(`EditsOnly.edits`): what surrounds the part edits nothing inside it.  So where nothing is edited can be
proved at the node that it is about.

There are three exceptions to this, and each has a field of its own.  A variable that an import takes
over is edited as a whole; a declaration takes variables out at its end, but only those that go; and the
left side of an assignment that exports is edited by the second pass over the statements.
-/

set_option autoImplicit false

namespace ModuleInterop.Syntax

open ModuleInterop.Usage

/-- The target of an assignment that exports, where the assignment is a node or all of a statement. -/
def Node.exporting? (bindings : Scope.Bindings) : Node → Option Pattern
  | .stmt _ _ (.expression _ (.assign _ _ target _)) | .expr _ _ (.assign _ _ target _) =>
    if (exportPath? bindings target).isSome then some target else none
  | _ => none

end ModuleInterop.Syntax

namespace ModuleInterop.Conversion

open ModuleInterop.Syntax ModuleInterop.Scope ModuleInterop.Usage ModuleInterop.Patch
  ModuleInterop.Text

variable {source : List Char} {lo hi : Nat} {frame : Frame} {context : Usage.Context}

namespace Findings

variable {findings : Findings} {P : Nat → Nat → Prop}

/-- The uses in a node edit only some stretches of the text, and all stretches outside the node are
among these. -/
structure EditsOnly (source : List Char) (frame : Frame) (context : Usage.Context)
    (P : Nat → Nat → Prop) (node : Node) : Prop where
  untaken : ∀ home d, node = .declarator home d → requiredVariable? context home d = none
  outside : ∀ lo hi, Laid source 0 lo hi node → ∀ start stop, stop ≤ lo ∨ hi ≤ start → P start stop
  stored : ∀ lo hi, Laid source 0 lo hi node → ∀ target ∈ node.exporting? context.bindings,
    ∀ start stop, stop ≤ target.span.stop → P start stop
  adds : ∀ lo hi (findings : Findings), Laid source 0 lo hi node → node.Homed source lo hi →
    (∀ s ∈ findings.elided, s.start < lo) →
      Adds P findings ((usesOfNode context node).foldl (step frame) findings)

/-- What is edited on one side of a node that edits only some stretches is among these. -/
theorem Extends.adds_outside {before after : Findings} (h : Extends source lo hi before after)
    (outside : ∀ start stop, lo ≤ start → stop ≤ hi → P start stop) : Adds P before after :=
  h.adds.mono fun start stop within => outside start stop within.1 within.2

/-- Nodes that follow one another, one of which edits only some stretches of the text. -/
theorem EditsOnly.among {before after : List Node} {inner : Node}
    (only : EditsOnly source frame context P inner)
    (laid : LaidAll source 0 lo hi ((before ++ inner :: after).map Node.bare))
    (homed : ∀ node ∈ before ++ inner :: after, ∀ lo hi, node.Homed source lo hi)
    (plain : ∀ node ∈ before ++ inner :: after, node.isDeclarator = false)
    (past : ∀ s ∈ findings.elided, s.start < lo) :
    (∀ start stop, stop ≤ lo ∨ hi ≤ start → P start stop) ∧
      Adds P findings
        (((before ++ inner :: after).flatMap (usesOfNode context)).foldl (step frame) findings) := by
  rw [List.map_append, List.map_cons] at laid
  obtain ⟨low, earlier, rest⟩ := laid.exists_mid
  cases rest with
  | @cons _ high _ _ _ here later =>
    have outside := only.outside low high here.of_bare
    have each {nodes : List Node} (sub : nodes ⊆ before ++ inner :: after) : ∀ node ∈ nodes,
        ExtendedBy source frame (usesOfNode context node) node :=
      fun node mem lo hi findings laid homed past =>
        extends_laid frame context laid homed (plain node (sub mem)) past
    have first := extends_all earlier (each (List.subset_append_left _ _))
      (fun node mem => homed node (List.mem_append_left _ mem)) past
    have passed := first.past earlier.le past
    have own := only.adds low high _ here.of_bare
      (homed inner (List.mem_append_right _ List.mem_cons_self) low high) passed
    have passed := (extends_laid frame context here.of_bare
      (homed inner (List.mem_append_right _ List.mem_cons_self) low high)
      (plain inner (List.mem_append_right _ List.mem_cons_self)) passed).past here.le passed
    have last := extends_all later
      (each fun node mem => List.mem_append_right _ (List.mem_cons_of_mem _ mem))
      (fun node mem => homed node (List.mem_append_right _ (List.mem_cons_of_mem _ mem))) passed
    constructor
    · intro start stop apart
      refine outside start stop ?_
      have := earlier.le
      have := later.le
      omega
    · rw [List.flatMap_append, List.flatMap_cons, List.foldl_append, List.foldl_append]
      refine ((first.adds_outside ?_).trans own).trans (last.adds_outside ?_)
      · exact fun start stop _ le => outside start stop (.inl le)
      · exact fun start stop le _ => outside start stop (.inr le)

/-- A variable with a part that edits only some stretches. -/
theorem EditsOnly.declarator {home : Home} {d : Declarator} {inner : Node}
    (only : EditsOnly source frame context P inner)
    (mem : inner ∈ (Node.declarator home d).visited context)
    (laid : Laid source 0 lo hi (.declarator home d)) (past : ∀ s ∈ findings.elided, s.start < lo) :
    Adds P findings ((usesOfNode context (.declarator home d)).foldl (step frame) findings) := by
  obtain ⟨span, target, init⟩ := d
  have taken : requiredVariable? context home (.mk span target init) = none := by
    cases taken : requiredVariable? context home (.mk span target init) with
    | none => rfl
    | some use => simp [Node.visited, taken] at mem
  have own : (Node.declarator home (.mk span target init)).own context = [] := by
    simp [Node.own, taken]
  obtain ⟨before, after, split⟩ := List.append_of_mem mem
  have pieces := laid.visited_inside rfl context
  rw [usesOfNode_eq rfl, own, List.nil_append, Context.inside_of_not_isBody rfl]
  rw [split] at pieces ⊢
  refine (only.among pieces ?_ ?_ ?_).2
  · exact fun node mem lo hi => Node.homed_of_declarator (split ▸ mem) lo hi
  · exact fun node mem => Node.not_declarator_of_mem_visited rfl (split ▸ mem)
  · intro s mem
    have := past s mem
    have := laid.fits.1.lo_le
    show s.start < span.start
    omega

/-- A node other than a declaration with a part that edits only some stretches. -/
theorem EditsOnly.other {node inner : Node} (only : EditsOnly source frame (context.inside node) P inner)
    (mem : inner ∈ node.visited context) (other : node.isVariables = false)
    (notDeclarator : node.isDeclarator = false) (laid : Laid source 0 lo hi node)
    (homed : node.Homed source lo hi) (past : ∀ s ∈ findings.elided, s.start < lo) :
    Adds P findings ((usesOfNode context node).foldl (step frame) findings) := by
  rw [usesOfNode_eq other]
  rcases laid.homed_visited homed context with plain | ⟨single, all, none, homed⟩
  · obtain ⟨mid, low, high, lies, visited⟩ := laid.exists_mid homed other notDeclarator context
    have used : Extends source lo mid findings ((node.own context).foldl (step frame) findings) :=
      extends_own lies
    obtain ⟨before, after, split⟩ := List.append_of_mem mem
    rw [List.foldl_append]
    rw [split] at visited ⊢
    obtain ⟨outside, rest⟩ := only.among visited (fun node mem => plain node (split ▸ mem))
      (fun node mem => Node.not_declarator_of_mem_visited other (split ▸ mem)) (used.past low past)
    exact (used.adds_outside fun start stop _ le => outside start stop (.inl le)).trans rest
  · have high := laid.fits.frame_within.2
    have visited := (laid.visited context).mono (Nat.le_refl _) high
    rw [all] at visited mem
    obtain rfl := List.mem_singleton.mp mem
    rw [none, all, List.nil_append, List.flatMap_singleton]
    exact only.adds lo hi findings visited.head.of_bare homed past

/-- What a variable that stays adds to findings: its edits and the variables that go lie in its span. -/
theorem EditsOnly.extends {home : Home} {d : Declarator}
    (only : EditsOnly source frame context P (.declarator home d))
    (laid : Laid source 0 lo hi (.declarator home d)) (past : ∀ s ∈ findings.elided, s.start < lo) :
    lo ≤ (declaratorSpan d).start ∧ (declaratorSpan d).stop ≤ hi ∧
      Laid source 0 (declaratorSpan d).start (declaratorSpan d).stop (.declarator home d) ∧
      Extends source (declaratorSpan d).start (declaratorSpan d).stop findings
        ((usesOfNode context (.declarator home d)).foldl (step frame) findings) := by
  obtain ⟨span, target, init⟩ := d
  obtain ⟨within, text⟩ := laid.fits
  have tight : span.Within source span.start span.stop :=
    { within with lo_le := Nat.le_refl _, le_hi := Nat.le_refl _ }
  refine ⟨within.lo_le, within.le_hi, ⟨⟨tight, text⟩, .nil (Nat.le_refl _), laid.inside⟩, ?_⟩
  exact extends_declarator (only.untaken home _ rfl) laid
    (fun inner mem lo hi findings laid homed past => extends_laid frame context laid homed
      (Node.not_declarator_of_mem_visited rfl mem) past) past

/-- Variables on one side of a variable that edits only some stretches. -/
theorem Declared.adds_outside {before after : Findings} {spans : List Span}
    (h : Declared source lo hi spans before after)
    (outside : ∀ start stop, lo ≤ start → stop ≤ hi → P start stop) : Adds P before after := by
  obtain ⟨added, edits, confined, -⟩ := h.edits
  exact ⟨added, edits, fun e mem =>
    outside e.start e.stop (confined.within e mem).1 (confined.within e mem).2⟩

/-- Variables that went before some others went before what follows these. -/
theorem Declared.past {before after : Findings} {spans : List Span}
    (h : Declared source lo hi spans before after) (le : lo ≤ hi)
    (past : ∀ s ∈ before.elided, s.start < lo) : ∀ s ∈ after.elided, s.start < hi := by
  obtain ⟨gone, elided, inside⟩ := h.elided
  rw [elided]
  intro s mem
  rcases List.mem_append.mp mem with mem | mem
  · have := past s mem
    omega
  · have := inside s mem
    omega

/-- **A declaration with a variable that edits only some stretches.**  The variable stays, so the end of
the declaration spares it. -/
theorem EditsOnly.variables {home : Home} {concise : Bool} {span : Span} {kind : VariableKind}
    {list : List Declarator} {d : Declarator}
    (only : EditsOnly source frame context P (.declarator home d)) (mem : d ∈ list)
    (laid : Laid source 0 lo hi (.stmt home concise (.variables span kind list)))
    (past : ∀ s ∈ findings.elided, s.start < lo) :
    Adds P findings
      ((usesOfNode context (.stmt home concise (.variables span kind list))).foldl (step frame)
        findings) := by
  have declarators : LaidAll source 0 (span.start + 1) span.stop (list.map (.declarator .list)) := by
    have pieces := laid.inside
    simpa [Node.inside, Node.pieces, Node.parts, Node.frame] using pieces
  have within : span.Within source lo hi := laid.fits
  have past : ∀ s ∈ findings.elided, s.start < span.start + 1 := fun s mem => by
    have := past s mem
    have := within.lo_le
    omega
  obtain ⟨order, boundaries⟩ := inOrder_of_laidAll declarators
  have text : span.start < span.stop := declarators.le
  have wide : InOrder span.start span.stop (list.map declaratorSpan) := by
    cases list with
    | nil => contradiction
    | cons first list => exact ⟨Nat.le_of_succ_le order.1, order.2⟩
  obtain ⟨before, after, rfl⟩ := List.append_of_mem mem
  rw [usesOfNode_stmt, usesOfVariables_eq home concise]
  have visited : (Node.stmt home concise (.variables span kind (before ++ d :: after))).visited
      context = (before ++ d :: after).map (.declarator home) := rfl
  have own : (Node.stmt home concise (.variables span kind (before ++ d :: after))).own context =
      [.declared span home ((before ++ d :: after).map declaratorSpan)] := rfl
  rw [visited, own, List.foldl_append, List.flatMap_map, List.flatMap_append, List.flatMap_cons,
    List.foldl_append, List.foldl_append, List.foldl_cons, List.foldl_nil]
  rw [List.map_append, List.map_cons] at declarators
  obtain ⟨low, earlier, rest⟩ := declarators.exists_mid
  cases rest with
  | @cons _ high _ _ _ here later =>
    have here : Laid source 0 low high (.declarator home d) := Laid.of_bare here
    have first := declared_of_laid frame context home earlier past
    have passed := first.past earlier.le past
    have own := only.adds low high _ here trivial passed
    obtain ⟨low_le, le_high, tight, inside⟩ := only.extends here passed
    have ordered : (declaratorSpan d).start ≤ (declaratorSpan d).stop := tight.le
    have passed' := fun s mem => Nat.lt_of_lt_of_le (inside.past ordered
      (fun s mem => Nat.lt_of_lt_of_le (passed s mem) low_le) s mem) le_high
    have last := declared_of_laid frame context home later passed'
    have outside := only.outside low high here
    have cut := only.outside _ _ tight
    have ends := later.le
    -- The variable is not among those that go: these begin before it, inside it or after it.
    have stays : declaratorSpan d ∉ ((after.flatMap fun d => usesOfNode context (.declarator home d)).foldl
        (step frame) ((usesOfNode context (.declarator home d)).foldl (step frame)
          ((before.flatMap fun d => usesOfNode context (.declarator home d)).foldl (step frame)
            findings))).elided := by
      obtain ⟨gone, elided, within⟩ := inside.elided
      obtain ⟨gone', elided', within'⟩ := last.elided
      rw [elided', elided, List.mem_append, List.mem_append]
      rintro ((mem | mem) | mem)
      · have := passed _ mem
        omega
      · have := within _ mem
        omega
      · have := within' _ mem
        omega
    obtain ⟨cuts, edits, -, spares⟩ := spares_elide _ text wide boundaries home
    refine ((first.adds_outside ?_).trans own).trans ((last.adds_outside ?_).trans ⟨cuts, edits, ?_⟩)
    · exact fun start stop _ le => outside start stop (.inl le)
    · exact fun start stop le _ => outside start stop (.inr le)
    · intro e mem
      exact cut e.start e.stop
        (spares _ (List.mem_map_of_mem (List.mem_append_right _ List.mem_cons_self)) stays e mem)

/-- **The step outwards**: a node with a part that edits only some stretches edits only these. -/
theorem EditsOnly.part {node inner : Node} (mem : inner ∈ node.visited context)
    (only : EditsOnly source frame (context.inside node) P inner) :
    EditsOnly source frame context P node where
  untaken := by
    rintro home ⟨span, target, init⟩ rfl
    cases taken : requiredVariable? context home (.mk span target init) with
    | none => rfl
    | some use => simp [Node.visited, taken] at mem
  outside := by
    intro lo hi laid start stop apart
    obtain ⟨low, high, low_le, le_high, piece⟩ :=
      (laid.visited context).exists_laid (List.mem_map_of_mem mem)
    have := laid.fits.frame_within.2
    exact only.outside low high piece.of_bare start stop (by omega)
  stored := by
    intro lo hi laid target exporting start stop le
    unfold Node.exporting? at exporting
    split at exporting
    · -- The assignment is all of a statement.
      rename_i home concise span inner plain left value
      obtain rfl := List.mem_singleton.mp mem
      exact only.stored _ _ (Laid.of_bare laid.inside.head) target exporting start stop le
    · rename_i place concise span plain left value
      split at exporting
      · rename_i exports
        obtain rfl := Option.some.inj exporting
        have all : (Node.expr place concise (.assign span plain left value)).visited context =
            [.part value] := by
          simp only [Node.visited]
          rw [if_pos exports]
        rw [all] at mem
        obtain rfl := List.mem_singleton.mp mem
        have pieces : LaidAll source 0 span.start span.stop [.pattern left, .part value] := laid.inside
        obtain ⟨mid, store, read⟩ := pieces.tail
        obtain ⟨path, exports⟩ := Option.isSome_iff_exists.mp exports
        obtain ⟨e, -, -, rfl, -⟩ := exportPath?_eq_some exports
        have lies : e.span.Within source span.start mid := store.head.fits.1
        exact only.outside mid _ read.head start stop (.inl (Nat.le_trans le lies.le_hi))
      · contradiction
    · contradiction
  adds := by
    intro lo hi findings laid homed past
    cases declares : node.isVariables with
    | true =>
      obtain ⟨home, concise, span, kind, list, rfl⟩ := Node.eq_variables_of_isVariables declares
      obtain ⟨d, among, rfl⟩ := List.mem_map.mp (show inner ∈ list.map (.declarator home) from mem)
      rw [Context.inside_of_not_isBody rfl] at only
      exact only.variables among laid past
    | false =>
      cases isDeclarator : node.isDeclarator with
      | true =>
        obtain ⟨home, d, rfl⟩ : ∃ home d, node = .declarator home d := by
          cases node with
          | declarator home d => exact ⟨home, d, rfl⟩
          | _ => contradiction
        rw [Context.inside_of_not_isBody rfl] at only
        exact only.declarator mem laid past
      | false => exact only.other mem declares isDeclarator laid homed past

end Findings

/-! ## Both passes over the statements -/

section Statements

variable {P : Nat → Nat → Prop} {bindings : Bindings}

/-- The second pass edits a statement only if it is an assignment that exports, and then up to the end
of the left side. -/
theorem Locals.step_edits_cases (freeNames : List String) (valueName : String) (locals : Locals) (s : Stmt) :
    (locals.step bindings freeNames valueName s).edits = locals.edits ∨
      ∃ target ∈ (Node.stmt .body false s).exporting? bindings, ∃ start content,
        (locals.step bindings freeNames valueName s).edits =
          locals.edits ++ [⟨start, target.span.stop, content⟩] := by
  by_cases exports : ∃ span inner plain target value path,
      s = .expression span (.assign inner plain target value) ∧
        exportPath? bindings target = some path
  · obtain ⟨span, inner, plain, target, value, path, rfl, exporting⟩ := exports
    obtain ⟨start, content, edits, -⟩ :=
      Locals.edits_of_exporting freeNames valueName locals span inner plain value exporting
    exact .inr ⟨target, by simp [Node.exporting?, exporting], start, content, edits⟩
  · exact .inl (Locals.edits_of_other freeNames valueName locals exports)

/-- The statements of a module, one of which edits only some stretches. -/
theorem Findings.EditsOnly.body {ignored : List String} {before after : List Stmt} {s : Stmt} {findings : Findings}
    (only : Findings.EditsOnly source frame ⟨bindings, ignored, false⟩ P (.stmt .body false s))
    (laid : LaidAll source 0 lo hi ((before ++ s :: after).map .listed))
    (past : ∀ s ∈ findings.elided, s.start < lo) (freeNames : List String) (valueName : String)
    (locals : Locals) :
    Findings.Adds P findings
        ((usesOfStmts ⟨bindings, ignored, false⟩ .body (before ++ s :: after)).foldl
          (Findings.step frame) findings) ∧
      ∃ stored, ((before ++ s :: after).foldl (Locals.step bindings freeNames valueName) locals).edits =
        locals.edits ++ stored ∧ ∀ e ∈ stored, P e.start e.stop := by
  have nodes : usesOfStmts ⟨bindings, ignored, false⟩ .body (before ++ s :: after) =
      (before.map (Node.stmt .body false) ++ .stmt .body false s ::
        after.map (Node.stmt .body false)).flatMap (usesOfNode ⟨bindings, ignored, false⟩) := by
    rw [← List.map_cons, ← List.map_append, List.flatMap_map]
    exact usesOfStmts_eq_flatMap .body _
  have statement {node : Node} (mem : node ∈ before.map (Node.stmt .body false) ++
      .stmt .body false s :: after.map (Node.stmt .body false)) : ∃ s, node = .stmt .body false s := by
    rw [← List.map_cons, ← List.map_append] at mem
    obtain ⟨s, -, rfl⟩ := List.mem_map.mp mem
    exact ⟨s, rfl⟩
  constructor
  · rw [nodes]
    have laid : LaidAll source 0 lo hi ((before.map (Node.stmt .body false) ++ .stmt .body false s ::
        after.map (Node.stmt .body false)).map Node.bare) := by
      simpa [Node.bare] using laid
    refine (only.among laid ?_ ?_ past).2
    · intro node mem lo hi
      obtain ⟨s, rfl⟩ := statement mem
      trivial
    · intro node mem
      obtain ⟨s, rfl⟩ := statement mem
      rfl
  · rw [List.map_append, List.map_cons] at laid
    obtain ⟨low, earlier, rest⟩ := laid.exists_mid
    obtain ⟨high, single, later⟩ := rest.tail
    have here : Laid source 0 low high (.stmt .body false s) := Laid.of_bare single.head
    obtain ⟨stored, stores, within⟩ := stored_of_laid bindings freeNames valueName locals earlier
    obtain ⟨stored', stores', within'⟩ := stored_of_laid bindings freeNames valueName
      ((before.foldl (Locals.step bindings freeNames valueName) locals).step bindings freeNames
        valueName s) later
    have outside := only.outside low high here
    have first : ∀ e ∈ stored, P e.start e.stop := fun e mem =>
      outside e.start e.stop (.inl (within e mem).2)
    have last : ∀ e ∈ stored', P e.start e.stop := fun e mem =>
      outside e.start e.stop (.inr (within' e mem).1)
    rw [List.foldl_append, List.foldl_cons]
    rcases Locals.step_edits_cases freeNames valueName
        (before.foldl (Locals.step bindings freeNames valueName) locals) s with
      same | ⟨target, exporting, start, content, same⟩
    · refine ⟨stored ++ stored', by rw [stores', same, stores, List.append_assoc], ?_⟩
      exact fun e mem => (List.mem_append.mp mem).elim (first e) (last e)
    · have own : P start target.span.stop :=
        only.stored low high here target exporting start _ (Nat.le_refl _)
      refine ⟨stored ++ ⟨start, target.span.stop, content⟩ :: stored', ?_, ?_⟩
      · rw [stores', same, stores]
        simp
      · intro e mem
        rcases List.mem_append.mp mem with mem | mem
        · exact first e mem
        · rcases List.mem_cons.mp mem with rfl | mem
          · exact own
          · exact last e mem

end Statements

/-- **From a node to the module**: if a node that the walk looks at edits only some stretches of the
text, so does the module. -/
theorem Findings.EditsOnly.edits {program : Program} {id : String} {options : Options}
    (parsed : parseModule source = .ok program) {inFunction : Bool} {node : Node}
    (visited : Visited (Bindings.ofProgram program) options.ignored program inFunction node)
    {P : Nat → Nat → Prop}
    (only : Findings.EditsOnly source (frameOf program options)
      ⟨Bindings.ofProgram program, options.ignored, inFunction⟩ P node) :
    ∀ e ∈ (layout program source id options).body.edits, P e.start e.stop := by
  -- By induction on the way to the node, from its end on.
  induction visited with
  | statement mem =>
    obtain ⟨before, after, body⟩ := List.append_of_mem mem
    have laid := laid_parseModule parsed
    rw [body] at laid
    have passes := only.body laid
      (past_begin (Bindings.ofProgram program) options (hasCompiledMark source))
      (frameOf program options).freeNames (valueOf program source id options).1
      ⟨(findingsOf program source options).edits, (valueOf program source id options).2, [], false⟩
    rw [← body] at passes
    exact edits_of_passes passes.1 passes.2
  | part _ mem ih => exact ih (only.part mem)

end ModuleInterop.Conversion
