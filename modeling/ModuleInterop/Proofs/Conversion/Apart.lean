import ModuleInterop.Proofs.Conversion.Locals
import ModuleInterop.Proofs.Conversion.Stretch
import ModuleInterop.Proofs.Patch.Change
import ModuleInterop.Proofs.SourceMap.Lookup
import ModuleInterop.Proofs.Syntax.Parser.Module

/-!
# No two edits of a module conflict

A node edits the stretch of the text that it is laid in (`Findings.extends_laid`, by induction on the
node), and statements are laid one after the other.  The second pass over the statements replaces the
left sides of assignments that export; the first pass did not look at these, so a statement's edits
stay apart (`confined_statement`).  Hence the edits of a module that was read from its source always
apply (`convert_of_parse`).
-/

set_option autoImplicit false

namespace ModuleInterop.Conversion

open ModuleInterop.Syntax ModuleInterop.Scope ModuleInterop.Usage ModuleInterop.Patch
  ModuleInterop.Text

variable {source : List Char} {lo hi mid : Nat} {frame : Frame} {context : Usage.Context}

namespace Findings

variable {findings before : Findings}

/-- What a node that is laid in an interval adds to findings from before the interval. -/
def ExtendedBy (source : List Char) (frame : Frame) (uses : List Use) (node : Node) : Prop :=
  ∀ lo hi (findings : Findings), Laid source 0 lo hi node → node.Homed source lo hi →
    (∀ s ∈ findings.elided, s.start < lo) →
      Extends source lo hi findings (uses.foldl (step frame) findings)

/-- Nodes that follow one another in the text. -/
theorem extends_all {nodes : List Node} {uses : Node → List Use}
    (laid : LaidAll source 0 lo hi (nodes.map Node.bare))
    (each : ∀ node ∈ nodes, ExtendedBy source frame (uses node) node)
    (homed : ∀ node ∈ nodes, ∀ lo hi, node.Homed source lo hi)
    (past : ∀ s ∈ findings.elided, s.start < lo) :
    Extends source lo hi findings ((nodes.flatMap uses).foldl (step frame) findings) := by
  induction nodes generalizing lo findings with
  | nil => exact .of_eq rfl rfl
  | cons node nodes ih =>
    cases laid with
    | cons first others =>
      rename_i mid
      rw [List.flatMap_cons, List.foldl_append]
      have here := each node List.mem_cons_self lo mid findings first.of_bare
        (homed node List.mem_cons_self lo mid) past
      have rest := ih others (fun n mem => each n (List.mem_cons_of_mem _ mem))
        (fun n mem => homed n (List.mem_cons_of_mem _ mem)) (here.past first.le past)
      exact here.trans rest first.le others.le

/-- The parts of a node that are looked at. -/
theorem extends_visited {node : Node} (laid : Laid source 0 lo hi node)
    (homed : node.Homed source lo hi) (other : node.isVariables = false)
    (notDeclarator : node.isDeclarator = false)
    (each : ∀ inner ∈ node.visited context, inner.isDeclarator = false →
      ExtendedBy source frame (usesOfNode (context.inside node) inner) inner)
    (past : ∀ s ∈ findings.elided, s.start < lo) :
    Extends source lo hi findings ((usesOfNode context node).foldl (step frame) findings) := by
  have each : ∀ inner ∈ node.visited context,
      ExtendedBy source frame (usesOfNode (context.inside node) inner) inner := fun inner mem =>
    each inner mem (Node.not_declarator_of_mem_visited other mem)
  rw [usesOfNode_eq other]
  rcases laid.homed_visited homed context with plain | ⟨inner, single, none, homed⟩
  · obtain ⟨mid, low, high, lies, visited⟩ := laid.exists_mid homed other notDeclarator context
    rw [List.foldl_append]
    have used : Extends source lo mid findings ((node.own context).foldl (step frame) findings) :=
      extends_own lies
    exact used.trans (extends_all visited each plain (used.past low past)) low high
  · have high := laid.fits.frame_within.2
    have visited := (laid.visited context).mono (Nat.le_refl _) high
    rw [single] at visited
    rw [none, single, List.nil_append, List.flatMap_singleton]
    exact each inner (by simp [single]) lo hi findings visited.head.of_bare homed past

/-- A variable that no import can take over is edited inside its own span. -/
theorem extends_declarator {home : Home} {span : Span} {target : Pattern} {init : Option Expr}
    (taken : requiredVariable? context home (.mk span target init) = none)
    (laid : Laid source 0 lo hi (.declarator home (.mk span target init)))
    (each : ∀ inner ∈ (Node.declarator home (.mk span target init)).visited context,
      ExtendedBy source frame (usesOfNode context inner) inner)
    (past : ∀ s ∈ findings.elided, s.start < lo) :
    Extends source span.start span.stop findings
      ((usesOfNode context (.declarator home (.mk span target init))).foldl (step frame)
        findings) := by
  have within := laid.fits.1
  have own : (Node.declarator home (.mk span target init)).own context = [] := by
    simp [Node.own, taken]
  rw [usesOfNode_eq rfl, own, List.nil_append, Context.inside_of_not_isBody rfl]
  refine extends_all (laid.visited_inside rfl context) each
    (fun inner mem => Node.homed_of_declarator mem) fun s mem => ?_
  have := past s mem
  have := within.lo_le
  show s.start < span.start
  omega

/-- One variable of a declaration. -/
theorem declares_declarator {home : Home} {span : Span} {target : Pattern} {init : Option Expr}
    (laid : Laid source 0 lo hi (.declarator home (.mk span target init)))
    (each : ∀ inner ∈ (Node.declarator home (.mk span target init)).visited context,
      ExtendedBy source frame (usesOfNode context inner) inner)
    (past : ∀ s ∈ findings.elided, s.start < lo) :
    Declares source span findings
      ((usesOfNode context (.declarator home (.mk span target init))).foldl (step frame)
        findings) := by
  cases taken : requiredVariable? context home (.mk span target init) with
  | none => exact .inr (extends_declarator taken laid each past)
  | some use =>
    obtain ⟨_, name, value, call, same, rfl, static, -⟩ := requiredVariable?_eq_some taken
    obtain ⟨rfl, rfl, rfl⟩ := Declarator.mk.inj same
    have own : (Node.declarator home (.mk span (.binding name) (some value))).own context =
        [.requiredVariable span name.text call] := by
      simp [Node.own, taken]
    have none : (Node.declarator home (.mk span (.binding name) (some value))).visited context =
        [] := by
      simp [Node.visited, taken]
    have registered := register_same frame findings call (some name.text)
    rw [usesOfNode_eq rfl, own, none]
    simp only [List.flatMap_nil, List.append_nil, List.foldl_nil, List.foldl_cons, step]
    split
    · left
      refine ⟨registered.1, ?_⟩
      show _ ++ [span] = _ ++ [span]
      rw [← registered.2]
      rfl
    · right
      obtain ⟨mid, target, init⟩ := laid.inside.tail
      have proper := init.head.text_of_requireCall static
      obtain ⟨callee, argument, rfl, -⟩ := requireCall?_eq_some static
      have inside : call.span.Within source span.start span.stop :=
        init.span_within.mono target.le (Nat.le_refl _)
      exact (extends_replace inside proper _).congr registered.1 registered.2

/-- The variables of a declaration, one after the other. -/
theorem declared_declarators (home : Home) {list : List Declarator}
    (laid : LaidAll source 0 lo hi (list.map (.declarator .list)))
    (each : ∀ d ∈ list, ∀ inner ∈ (Node.declarator home d).visited context,
      ExtendedBy source frame (usesOfNode context inner) inner)
    (past : ∀ s ∈ findings.elided, s.start < lo) :
    Declared source lo hi (list.map declaratorSpan) findings
      ((list.flatMap fun d => usesOfNode context (.declarator home d)).foldl (step frame)
        findings) := by
  induction list generalizing lo findings with
  | nil =>
    refine ⟨laid.le, by simp, ⟨[], by simp, by simp⟩, ⟨[], by simp, .nil, by simp⟩⟩
  | cons d list ih =>
    cases laid with
    | cons first others =>
      rename_i mid
      obtain ⟨span, target, init⟩ := d
      have laid : Laid source 0 lo mid (.declarator home (.mk span target init)) :=
        Laid.of_bare first
      obtain ⟨within, text⟩ := laid.fits
      have here := declares_declarator laid (each _ List.mem_cons_self) past
      have passed : ∀ s ∈ ((usesOfNode context (.declarator home (.mk span target init))).foldl
          (step frame) findings).elided, s.start < mid := by
        have low := within.lo_le
        have high := within.le_hi
        rcases here with ⟨-, elided⟩ | here
        · rw [elided]
          intro s mem
          rcases List.mem_append.mp mem with mem | mem
          · have := past s mem
            omega
          · rw [List.mem_singleton.mp mem]
            omega
        · intro s mem
          have := here.past (Nat.le_of_lt text) (fun s mem => Nat.lt_of_lt_of_le (past s mem) low)
            s mem
          omega
      rw [List.flatMap_cons, List.foldl_append]
      exact .cons within text here
        (ih others (fun d mem => each d (List.mem_cons_of_mem _ mem)) passed) past others.le

/-- **A node edits the stretch that it is laid in**, by edits that are apart from one another. -/
theorem extends_laid (frame : Frame) (context : Usage.Context) {node : Node}
    (laid : Laid source 0 lo hi node) (homed : node.Homed source lo hi)
    (notDeclarator : node.isDeclarator = false)
    (past : ∀ s ∈ findings.elided, s.start < lo) :
    Extends source lo hi findings ((usesOfNode context node).foldl (step frame) findings) := by
  -- The parts that are looked at are smaller than the node.
  induction hn : node.size using Nat.strongRecOn generalizing context node lo hi findings with
  | ind n ih =>
    subst hn
    have smaller {context : Usage.Context} {inner outer : Node} (mem : inner ∈ outer.visited context) :
        inner.size < outer.size :=
      Node.size_lt_of_mem_parts (Node.mem_parts_iff.mpr (.inl mem))
    cases declares : node.isVariables with
    | false =>
      refine extends_visited laid homed declares notDeclarator ?_ past
      intro inner mem notDeclarator lo hi findings laid homed past
      exact ih inner.size (smaller mem) _ laid homed notDeclarator past rfl
    | true =>
      obtain ⟨home, concise, span, kind, list, rfl⟩ := Node.eq_variables_of_isVariables declares
      rw [usesOfNode_stmt, usesOfVariables_eq home concise, List.foldl_append]
      have within : span.Within source lo hi := laid.fits
      have declarators : LaidAll source 0 (span.start + 1) span.stop
          (list.map (.declarator .list)) := by
        have pieces := laid.inside
        simpa [Node.inside, Node.pieces, Node.parts, Node.frame] using pieces
      have visited : (Node.stmt home concise (.variables span kind list)).visited context =
          list.map (.declarator home) := rfl
      have declared : Declared source (span.start + 1) span.stop (list.map declaratorSpan) findings
          ((list.flatMap fun d => usesOfNode context (.declarator home d)).foldl (step frame)
            findings) := by
        refine declared_declarators home declarators ?_ ?_
        · intro d among inner mem lo hi findings laid homed past
          have inStatement : Node.declarator home d ∈
              (Node.stmt home concise (.variables span kind list)).visited context := by
            rw [visited]
            exact List.mem_map_of_mem among
          exact ih inner.size (Nat.lt_trans (smaller mem) (smaller inStatement)) _ laid homed
            (Node.not_declarator_of_mem_visited rfl mem) past rfl
        · intro s mem
          have := past s mem
          have := within.lo_le
          omega
      rw [visited, List.flatMap_map]
      exact extends_elide within declarators.le declared home

/-- The variables of a declaration, up to its end. -/
theorem declared_of_laid (frame : Frame) (context : Usage.Context) (home : Home)
    {list : List Declarator} (laid : LaidAll source 0 lo hi (list.map (.declarator .list)))
    (past : ∀ s ∈ findings.elided, s.start < lo) :
    Declared source lo hi (list.map declaratorSpan) findings
      ((list.flatMap fun d => usesOfNode context (.declarator home d)).foldl (step frame)
        findings) :=
  declared_declarators home laid
    (fun _ _ _ mem _ _ _ laid homed past => extends_laid frame context laid homed
      (Node.not_declarator_of_mem_visited rfl mem) past) past

end Findings

/-! ## Both passes over the statements -/

section Statements

variable {bindings : Bindings} {ignored : List String} {freeNames : List String}
  {valueName : String} {findings : Findings} {locals : Locals}

/-- The left side of an assignment that exports is not looked at, and what is edited comes after
it. -/
theorem extends_exporting (frame : Frame) (ignored : List String) {span inner : Span}
    {plain : Bool} {target : Pattern} {value : Expr} {path : ExportPath}
    (exporting : exportPath? bindings target = some path)
    (laid : Laid source 0 lo hi (.listed (.expression span (.assign inner plain target value))))
    (past : ∀ s ∈ findings.elided, s.start < lo) :
    ∃ mid, span.Within source lo hi ∧ span.start ≤ target.span.start ∧
      target.span.Within source lo mid ∧ target.span.start < target.span.stop ∧ mid ≤ hi ∧
      findings.Extends source mid hi
        ((usesOfStmt ⟨bindings, ignored, false⟩ .body
          (.expression span (.assign inner plain target value))).foldl (Findings.step frame)
            findings) := by
  obtain ⟨within, begins⟩ := laid.fits
  have assign : Laid source 0 lo hi (.part (.assign inner plain target value)) :=
    laid.pieces.head.mono (Nat.le_refl _) within.le_hi
  have lo_le : lo ≤ inner.start := assign.fits.lo_le
  have pieces : LaidAll source 0 inner.start hi [.pattern target, .part value] :=
    assign.inside.mono (Nat.le_refl _) assign.fits.frame_within.2
  obtain ⟨mid, store, read⟩ := pieces.tail
  obtain ⟨e, _, _, rfl, way, -⟩ := exportPath?_eq_some exporting
  have text : e.span.start < e.span.stop := (LaidAll.inner store rfl).head.text_of_path way
  have stored : (Pattern.target e).span.Within source inner.start mid := store.head.fits.1
  refine ⟨mid, within, Nat.le_trans begins stored.lo_le, stored.mono lo_le (Nat.le_refl _), text,
    read.le, ?_⟩
  have past : ∀ s ∈ findings.elided, s.start < mid := by
    intro s mem
    have := past s mem
    have le : inner.start ≤ mid := store.le
    omega
  rw [usesOfStmt, usesOfExpr, exporting]
  have same := Findings.useValue_same findings path.root
  rw [List.foldl_cons]
  have homed : (Node.part value).Homed source mid hi := by
    intro span home standing
    contradiction
  refine (Findings.extends_laid frame ⟨bindings, ignored, false⟩ read.head homed rfl ?_).congr
    same.1 same.2
  exact fun s mem => past s (same.2 ▸ mem)

/-- The second pass replaces the left side, with what begins the statement before it if need be. -/
theorem Locals.edits_of_exporting (freeNames : List String) (valueName : String) (locals : Locals)
    (span inner : Span) (plain : Bool) {target : Pattern} (value : Expr) {path : ExportPath}
    (exporting : exportPath? bindings target = some path) :
    ∃ start content,
      (locals.step bindings freeNames valueName
          (.expression span (.assign inner plain target value))).edits =
        locals.edits ++ [⟨start, target.span.stop, content⟩] ∧
      (start = target.span.start ∨ start = span.start) := by
  obtain ⟨root, name⟩ := path
  cases name with
  | none => exact ⟨_, _, by simp only [Locals.step, exporting]; rfl, .inl rfl⟩
  | some name =>
    cases known : locals.localName? name with
    | some variableName =>
      exact ⟨_, _, by simp only [Locals.step, exporting, known]; rfl, .inr rfl⟩
    | none => exact ⟨_, _, by simp only [Locals.step, exporting, known]; rfl, .inr rfl⟩

/-- The second pass does not edit a statement that is no assignment that exports. -/
theorem Locals.edits_of_other (freeNames : List String) (valueName : String) (locals : Locals)
    {s : Stmt} (other : ¬∃ span inner plain target value path,
      s = .expression span (.assign inner plain target value) ∧
        exportPath? bindings target = some path) :
    (locals.step bindings freeNames valueName s).edits = locals.edits := by
  unfold Locals.step
  split
  · split
    · rfl
    · rename_i exporting
      exact absurd ⟨_, _, _, _, _, _, rfl, exporting⟩ other
    · rename_i exporting
      exact absurd ⟨_, _, _, _, _, _, rfl, exporting⟩ other
  · rfl

/-- **One statement** is edited by both passes without a conflict. -/
theorem confined_statement (frame : Frame) (ignored freeNames : List String) (valueName : String)
    (locals : Locals) {s : Stmt} (laid : Laid source 0 lo hi (.listed s))
    (past : ∀ s ∈ findings.elided, s.start < lo) :
    ∃ added stored,
      ((usesOfStmt ⟨bindings, ignored, false⟩ .body s).foldl (Findings.step frame) findings).edits =
          findings.edits ++ added ∧
        (locals.step bindings freeNames valueName s).edits = locals.edits ++ stored ∧
        Confined source lo hi (added ++ stored) := by
  by_cases exports : ∃ span inner plain target value path,
      s = .expression span (.assign inner plain target value) ∧
        exportPath? bindings target = some path
  · obtain ⟨span, inner, plain, target, value, path, rfl, exporting⟩ := exports
    obtain ⟨mid, within, begins, stored, text, high, ⟨added, edits, confined⟩, -⟩ :=
      extends_exporting frame ignored exporting laid past
    have low := Nat.le_trans stored.lo_le (Nat.le_trans stored.ordered stored.le_hi)
    obtain ⟨start, content, stores, begun⟩ :=
      Locals.edits_of_exporting freeNames valueName locals span inner plain value exporting
    have edit : Confined source lo mid [⟨start, target.span.stop, content⟩] := by
      rcases begun with rfl | rfl
      · exact confined_span stored text content
      · exact .single ⟨Nat.le_trans begins stored.ordered, within.start, stored.stop⟩
          (Nat.lt_of_le_of_lt begins text) within.lo_le stored.le_hi
    exact ⟨added, _, edits, stores, (edit.append confined low high).perm List.perm_append_comm⟩
  · have same := Locals.edits_of_other freeNames valueName locals exports
    have laid : Laid source 0 lo hi (.stmt .body false s) :=
      Laid.of_bare laid
    obtain ⟨added, edits, confined⟩ :=
      (Findings.extends_laid frame ⟨bindings, ignored, false⟩ laid trivial rfl past).edits
    exact ⟨added, [], edits, by rw [same, List.append_nil], by rwa [List.append_nil]⟩

/-- **All statements** are edited by both passes without a conflict. -/
theorem confined_body (frame : Frame) (ignored freeNames : List String) (valueName : String)
    (locals : Locals) {body : List Stmt} (laid : LaidAll source 0 lo hi (body.map .listed))
    (past : ∀ s ∈ findings.elided, s.start < lo) :
    ∃ added stored,
      ((usesOfStmts ⟨bindings, ignored, false⟩ .body body).foldl (Findings.step frame)
          findings).edits = findings.edits ++ added ∧
        (body.foldl (Locals.step bindings freeNames valueName) locals).edits =
          locals.edits ++ stored ∧
        Confined source lo hi (added ++ stored) := by
  induction body generalizing lo findings locals with
  | nil => exact ⟨[], [], by simp [usesOfStmts], by simp, .nil⟩
  | cons s body ih =>
    cases laid with
    | cons first others =>
      rename_i mid
      have statement : Laid source 0 lo mid (.stmt .body false s) :=
        Laid.of_bare first
      have passed := (Findings.extends_laid frame ⟨bindings, ignored, false⟩ statement trivial rfl
        past).past first.le past
      obtain ⟨added, stored, edits, stores, confined⟩ :=
        confined_statement frame ignored freeNames valueName locals first past
      obtain ⟨added', stored', edits', stores', confined'⟩ :=
        ih (locals.step bindings freeNames valueName s) others passed
      refine ⟨added ++ added', stored ++ stored', ?_, ?_, ?_⟩
      · rw [usesOfStmts, List.foldl_append, ← List.append_assoc, ← edits]
        exact edits'
      · rw [List.foldl_cons, stores', stores, List.append_assoc]
      · refine (confined.append confined' first.le others.le).perm ?_
        rw [List.append_assoc, List.append_assoc]
        refine List.Perm.append_left added ?_
        rw [← List.append_assoc, ← List.append_assoc]
        exact List.perm_append_comm.append_right stored'

end Statements

/-! ## The edits of a module -/

section Whole

variable {program : Program} {id : String} {options : Options}

/-- Nothing is elided before the first use of a module. -/
theorem past_begin (bindings : Bindings) (options : Options) (compiled : Bool) :
    ∀ s ∈ (begin bindings options compiled).2.elided, s.start < 0 :=
  fun _ none => absurd none List.not_mem_nil

/-- The edits of a module that was read from its source are edits of the source, and they are apart
from one another. -/
theorem confined_layout (parsed : parseModule source = .ok program) (id : String)
    (options : Options) :
    Confined source 0 (byteLength source) (layout program source id options).body.edits := by
  have laid := laid_parseModule parsed
  obtain ⟨added, stored, edits, stores, confined⟩ :=
    confined_body (frameOf program options) options.ignored (frameOf program options).freeNames
      (valueOf program source id options).1
      ⟨(findingsOf program source options).edits, (valueOf program source id options).2, [], false⟩
      laid (past_begin (Bindings.ofProgram program) options (hasCompiledMark source))
  have edits : (findingsOf program source options).edits = added := edits
  have stores : (localsOf program source id options).edits = added ++ stored := by
    rw [← edits]
    exact stores
  cases wrapped : (findingsOf program source options).wrapped with
  | true =>
    rw [(layout_of_wrapped id wrapped).2.2, edits]
    exact confined.left
  | false =>
    rw [layout_of_open wrapped, stores]
    exact confined

/-- Edits of the source that are apart from one another are applied, and the output has a source map
if one is wanted. -/
theorem exists_converted
    (confined : Confined source lo hi (layout program source id options).body.edits)
    (called : (findingsOf program source options).any = true) :
    ∃ out, convert program source id options = .ok (some out) ∧
      out.map.isSome = options.sourceMap := by
  obtain ⟨edited, applied, -⟩ := apply_of_apart confined.fits confined.apart
  let output := ((edited.trim.prepend (layout program source id options).lead.toList).trim).append
    (layout program source id options).trail.toList
  have sound : output.Sound :=
    ((((sound_of_apply confined.fits applied).trim).prepend _).trim).append _
  have written : (layout program source id options).write source = .ok output := by
    unfold Layout.write
    rw [applied]
    rfl
  obtain ⟨map, mapped, wanted⟩ : ∃ map, mapOf options.sourceMap output id = .ok map ∧
      map.isSome = options.sourceMap := by
    unfold mapOf
    cases options.sourceMap with
    | true =>
      obtain ⟨map, given⟩ := SourceMap.exists_map_of_sound sound id
      exact ⟨some map, by rw [if_pos rfl, given]; rfl, rfl⟩
    | false => exact ⟨none, rfl, rfl⟩
  have called : (analyse program source options).2.any = true := called
  unfold convert
  dsimp only
  rw [if_pos called]
  cases assembled : assemble (analyse program source options).1 (Bindings.ofProgram program) program
      source id (hasCompiledMark source) (analyse program source options).2 with
  | error problem =>
    change ((layout program source id options).write source >>= _) = _ at assembled
    rw [written] at assembled
    change (mapOf options.sourceMap output id >>= _) = _ at assembled
    rw [mapped] at assembled
    contradiction
  | ok out =>
    refine ⟨out, rfl, ?_⟩
    obtain ⟨output', written', assembled⟩ := bind_eq_ok assembled
    obtain rfl := Except.ok.inj (written.symm.trans written')
    obtain ⟨map', mapped', assembled⟩ := bind_eq_ok assembled
    obtain rfl := Except.ok.inj (mapped.symm.trans mapped')
    obtain rfl := Except.ok.inj assembled
    exact wanted

/-- **The edits of a module never conflict.**  Whatever its id and the options, they are edits of the
source between characters, no two of them claim the same text, and so the module is converted if its
uses call for it, and its source map is made if it is wanted. -/
theorem edits_never_conflict (parsed : parseModule source = .ok program) (id : String)
    (options : Options) :
    ((findingsOf program source options).edits <+:
        (layout program source id options).body.edits ∧
      (∀ edit ∈ (layout program source id options).body.edits,
        edit.start ≤ edit.stop ∧ edit.stop ≤ byteLength source ∧
          Boundary source edit.start ∧ Boundary source edit.stop) ∧
      (layout program source id options).body.edits.Pairwise Edit.Apart) ∧
    ((findingsOf program source options).any = true →
      ∃ out, convert program source id options = .ok (some out) ∧
        out.map.isSome = options.sourceMap) ∧
    ∀ problem, convert program source id options ≠ .error (.unpatchable problem) := by
  have confined := confined_layout parsed id options
  refine ⟨⟨edits_prefix_layout, ?_, confined.apart⟩, exists_converted confined, ?_⟩
  · intro edit mem
    obtain ⟨ordered, start, stop⟩ := confined.fits edit mem
    exact ⟨ordered, (confined.within edit mem).2, start, stop⟩
  · intro problem fails
    cases called : (findingsOf program source options).any with
    | true =>
      obtain ⟨out, converted, -⟩ := exists_converted confined called
      rw [converted] at fails
      contradiction
    | false =>
      have called : (analyse program source options).2.any = false := called
      unfold convert at fails
      dsimp only at fails
      rw [if_neg (by simp [called])] at fails
      split at fails
      · cases fails
      · cases fails

/-- A declaration of which one variable goes, and an export of a value with a use in it. -/
def elidingSource : List Char := "var a = require('a'), b = a; exports.c = [b, this];".toList

/-- The tree of `elidingSource`. -/
def elidingModule : Program :=
  ⟨[.variables ⟨0, 28⟩ .var
    [.mk ⟨4, 20⟩ (.binding ⟨⟨4, 5⟩, "a"⟩)
      (some (.call ⟨8, 20⟩ (.name ⟨8, 15⟩ "require") [.literal ⟨16, 19⟩ (.string "a")])),
    .mk ⟨22, 27⟩ (.binding ⟨⟨22, 23⟩, "b"⟩) (some (.name ⟨26, 27⟩ "a"))],
  .expression ⟨29, 51⟩ (.assign ⟨29, 50⟩ true
    (.target (.member ⟨29, 38⟩ (.name ⟨29, 36⟩ "exports") "c"))
    (.array ⟨41, 50⟩ [.name ⟨42, 43⟩ "b", .this ⟨45, 49⟩] none))]⟩

set_option maxRecDepth 4000 in
/-- The variable that goes, the value and the left side of the export are edited side by side. -/
theorem eliding_edits_apply :
    parseModule elidingSource = .ok elidingModule ∧
      (layout elidingModule elidingSource "m" .plain).body.edits =
        [⟨4, 22, []⟩, ⟨45, 49, "commonjsHelpers.commonjsGlobal".toList⟩, ⟨29, 38, "var c".toList⟩] ∧
      ∃ out, convert elidingModule elidingSource "m" .plain = .ok (some out) := by
  have parsed : parseModule elidingSource = .ok elidingModule := rfl
  have called : (findingsOf elidingModule elidingSource .plain).any = true := by decide +kernel
  obtain ⟨out, converted, -⟩ := (edits_never_conflict parsed "m" .plain).2.1 called
  exact ⟨parsed, by decide +kernel, out, converted⟩

end Whole

end ModuleInterop.Conversion
