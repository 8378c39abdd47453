import ModuleInterop.Proofs.Conversion.EditsOnly
import ModuleInterop.Proofs.Patch.Cut
import ModuleInterop.Proofs.Syntax.Neighbours

/-!
# Statements that go

A bare call of `require` is deleted where a list has it as a statement.  Nothing is edited in the gap
between two statements that are next to each other in a list (`edits_clear`): what surrounds the list
does not reach into it, and each statement of it keeps to its own text.  So if statements that follow
one another go, what is left between the statements around them is the text of the gaps, and nothing
takes the place of what went (`statements_go`).

A semicolon at the end of a statement that goes is part of its text.  If the statement before it ends
only because of what follows, the next statement that stays may continue it (`neighbours_merge`).
-/

set_option autoImplicit false

namespace ModuleInterop.Syntax

open ModuleInterop.Usage

/-- The lists of statements in a node. -/
def Node.lists : Node → List (List Stmt)
  | .expr _ _ (.function _ _ _ _ body) => [body]
  | .member (.initializer _ body) => [body]
  | .stmt _ _ (.block _ body) => [body]
  | .stmt _ _ (.guarded _ body _ handler finalizer) => [body, handler, finalizer]
  | .switchCase (.mk _ body) => [body]
  | _ => []

/-- A node with lists of statements is nothing else: it has no use of its own and is no assignment, and
each list is part of what is looked at in it. -/
theorem Node.visited_of_mem_lists {node : Node} {list : List Stmt} (mem : list ∈ node.lists)
    (context : Usage.Context) :
    node.own context = [] ∧ node.isVariables = false ∧ node.isDeclarator = false ∧
      node.exporting? context.bindings = none ∧ ∃ before concise after,
        node.visited context = before ++ (list.map (.stmt .list concise) ++ after) := by
  unfold lists at mem
  split at mem
  · rename_i place concise span form name parameters body
    obtain rfl := List.mem_singleton.mp mem
    exact ⟨rfl, rfl, rfl, rfl, parameters.map .pattern, form = .arrow true, [],
      by simp [visited, parts]⟩
  · obtain rfl := List.mem_singleton.mp mem
    exact ⟨rfl, rfl, rfl, rfl, [], false, [], by simp [visited, parts, listed]⟩
  · obtain rfl := List.mem_singleton.mp mem
    exact ⟨rfl, rfl, rfl, rfl, [], false, [], by simp [visited, parts, listed]⟩
  · rename_i home concise span body parameter handler finalizer
    have all : (Node.stmt home concise (.guarded span body parameter handler finalizer)).visited
        context = body.map (.stmt .list false) ++ parameter.toList.map .pattern ++
          handler.map (.stmt .list false) ++ finalizer.map (.stmt .list false) := rfl
    refine ⟨rfl, rfl, rfl, rfl, ?_⟩
    rw [all]
    simp only [List.mem_cons, List.not_mem_nil, or_false] at mem
    rcases mem with rfl | rfl | rfl
    · exact ⟨[], false, parameter.toList.map .pattern ++ (handler.map (.stmt .list false) ++
        finalizer.map (.stmt .list false)), by simp⟩
    · exact ⟨body.map (.stmt .list false) ++ parameter.toList.map .pattern, false,
        finalizer.map (.stmt .list false), by simp⟩
    · exact ⟨body.map (.stmt .list false) ++ parameter.toList.map .pattern ++
        handler.map (.stmt .list false), false, [], by simp⟩
  · rename_i test body
    obtain rfl := List.mem_singleton.mp mem
    exact ⟨rfl, rfl, rfl, rfl, test.toList.map part, false, [], by simp [visited, parts, listed]⟩
  · contradiction

/-- A list of statements in a module: that of the module itself, or one in a node that does not stand in
a branch which is known not to be taken. -/
inductive Program.HasList (program : Program) : List Stmt → Prop
  | body : program.HasList program.body
  | node {node : Node} {list : List Stmt} : program.Live node → list ∈ node.lists →
      program.HasList list

/-- A piece of a node that is recognised as a whole has no list of statements. -/
theorem not_mem_lists_of_concealed {context : Usage.Context} {owner node : Node} {list : List Stmt}
    (concealed : Concealed context owner node) : list ∉ node.lists := by
  have onWay {e inner : Expr} {path : Nat × List String} (path : path? e = some path)
      (mem : inner ∈ spine e) : list ∉ (Node.part inner).lists := by
    obtain ⟨_, _, way, -⟩ := path?_of_mem_spine path mem
    cases inner with
    | function => simp [path?] at way
    | _ => exact List.not_mem_nil
  have pieces {e : Expr} {call : RequireCall} {inner : Node}
      (static : requireCall? context.bindings context.ignored e = some call)
      (piece : inner ∈ (Node.part e).parts Expr.truth?) : list ∉ inner.lists := by
    obtain ⟨callee, argument, rfl, fixed, -⟩ := requireCall?_eq_some static
    rcases List.mem_cons.mp piece with rfl | piece
    · exact List.not_mem_nil
    · obtain rfl : inner = .part argument := by simpa using piece
      cases argument with
      | function => contradiction
      | _ => exact List.not_mem_nil
  cases concealed with
  | question object onSpine =>
    obtain ⟨_, _, path, -⟩ := objectRoot?_eq_some object
    exact onWay path onSpine
  | target | bound => exact List.not_mem_nil
  | way exporting onSpine =>
    obtain ⟨_, _, _, same, path, -⟩ := exportPath?_eq_some exporting
    obtain rfl := Pattern.target.inj same
    exact onWay path onSpine
  | call static piece => exact pieces static piece
  | value taken static =>
    obtain ⟨callee, argument, rfl, -⟩ := requireCall?_eq_some static
    exact List.not_mem_nil
  | valueCall taken static piece => exact pieces static piece

/-- A list of statements is looked at. -/
theorem Program.HasList.visited {program : Program} {list : List Stmt} (h : program.HasList list)
    (bindings : Scope.Bindings) (ignored : List String) :
    list = program.body ∨ ∃ inFunction node, Visited bindings ignored program inFunction node ∧
      list ∈ node.lists := by
  cases h with
  | body => exact .inl rfl
  | node live mem =>
    obtain ⟨inFunction, owner, visited, rfl | concealed, -⟩ := reaches_covered bindings ignored live
    · exact .inr ⟨inFunction, _, visited, mem⟩
    · exact absurd mem (not_mem_lists_of_concealed concealed)

variable {source : List Char} {program : Program} {list : List Stmt}

/-- The statements of a list are laid one after the other. -/
theorem Program.HasList.laid (h : program.HasList list) (parsed : parseModule source = .ok program) :
    ∃ lo hi, LaidAll source 0 lo hi (list.map .listed) := by
  cases h with
  | body => exact ⟨_, _, laid_parseModule parsed⟩
  | node live mem =>
    obtain ⟨lo, hi, laid⟩ := live.exists_laid parsed
    obtain ⟨-, -, -, -, before, concise, after, visited⟩ :=
      Node.visited_of_mem_lists mem ⟨Scope.Bindings.ofProgram program, [], false⟩
    have pieces := laid.visited ⟨Scope.Bindings.ofProgram program, [], false⟩
    rw [visited, List.map_append, List.map_append, List.map_map, Node.bare_comp_stmt] at pieces
    exact ⟨_, _, pieces.sublist ((List.sublist_append_left _ _).trans (List.sublist_append_right _ _))⟩

/-- A stretch of the text ends with a statement or before its end, or it begins with another statement
or after its beginning. -/
def Stmt.Clears (s t : Stmt) (start stop : Nat) : Prop := stop ≤ s.span.stop ∨ t.outset ≤ start

end ModuleInterop.Syntax

namespace ModuleInterop.Conversion

open ModuleInterop.Syntax ModuleInterop.Scope ModuleInterop.Usage ModuleInterop.Patch
  ModuleInterop.Text

variable {source : List Char} {lo hi : Nat} {frame : Frame} {context : Usage.Context}

namespace Findings

variable {findings : Findings}

/-- Nodes among which there are two statements next to each other edit nothing of the gap between
these. -/
theorem adds_clears {before after : List Node} {home : Home} {concise : Bool} {s t : Stmt}
    (laid : LaidAll source 0 lo hi
      ((before ++ Node.stmt home concise s :: Node.stmt home concise t :: after).map Node.bare))
    (plain : ∀ node ∈ before ++ Node.stmt home concise s :: Node.stmt home concise t :: after,
      Plain source node)
    (past : ∀ s ∈ findings.elided, s.start < lo) :
    Adds (s.Clears t) findings
      (((before ++ Node.stmt home concise s :: Node.stmt home concise t :: after).flatMap
        (usesOfNode context)).foldl (step frame) findings) := by
  have split : before ++ Node.stmt home concise s :: Node.stmt home concise t :: after =
      (before ++ [Node.stmt home concise s]) ++ Node.stmt home concise t :: after := by simp
  have laid : LaidAll source 0 lo hi
      (before.map Node.bare ++ .listed s :: .listed t :: after.map Node.bare) := by
    simpa [Node.bare] using laid
  obtain ⟨le, first, last⟩ := laid.exists_gap
  rw [split] at plain ⊢
  rw [List.flatMap_append, List.foldl_append]
  have earlier := extends_nodes frame context
    (show LaidAll source 0 lo s.span.stop ((before ++ [Node.stmt home concise s]).map Node.bare) by
      simpa [Node.bare] using first)
    (fun node mem => plain node (List.mem_append_left _ mem)) past
  have passed := earlier.past first.le past
  have later := extends_nodes frame context
    (show LaidAll source 0 t.outset hi ((Node.stmt home concise t :: after).map Node.bare) by
      simpa [Node.bare] using last)
    (fun node mem => plain node (List.mem_append_right _ mem))
    (fun s mem => Nat.lt_of_lt_of_le (passed s mem) le)
  refine (earlier.adds_outside ?_).trans (later.adds_outside ?_)
  · exact fun start stop _ high => .inl high
  · exact fun start stop low _ => .inr low

/-- **A node with a list of statements** edits nothing of the gap between two of these that are next to
each other. -/
theorem editsOnly_of_lists {node : Node} {before after : List Stmt} {s t : Stmt}
    (mem : before ++ s :: t :: after ∈ node.lists) :
    EditsOnly source frame context (s.Clears t) node := by
  obtain ⟨own, other, notDeclarator, notExporting, first, concise, last, visited⟩ :=
    Node.visited_of_mem_lists mem context
  have split : node.visited context = (first ++ before.map (Node.stmt .list concise)) ++
      Node.stmt .list concise s :: Node.stmt .list concise t ::
        (after.map (Node.stmt .list concise) ++ last) := by
    rw [visited]
    simp
  have pieces {lo hi : Nat} (laid : Laid source 0 lo hi node) : LaidAll source 0 lo hi
      (((first ++ before.map (Node.stmt .list concise)) ++ Node.stmt .list concise s ::
        Node.stmt .list concise t :: (after.map (Node.stmt .list concise) ++ last)).map Node.bare) :=
    split ▸ (laid.visited context).mono (Nat.le_refl _) laid.fits.frame_within.2
  refine ⟨?_, ?_, ?_, ?_⟩
  · rintro home d rfl
    contradiction
  · intro lo hi laid start stop apart
    have laid := pieces laid
    rw [List.map_append, List.map_cons, List.map_cons] at laid
    obtain ⟨-, earlier, later⟩ := laid.exists_gap
    rcases apart with le | le
    · exact .inl (Nat.le_trans le earlier.le)
    · exact .inr (Nat.le_trans later.le le)
  · intro lo hi laid target exporting
    rw [notExporting] at exporting
    contradiction
  · intro lo hi findings laid homed past
    rw [usesOfNode_eq other, own, List.nil_append, split]
    refine adds_clears (pieces laid) ?_ past
    rcases laid.homed_visited homed context with plain | ⟨single, all, -⟩
    · intro node mem
      rw [← split] at mem
      exact ⟨Node.not_declarator_of_mem_visited other mem, plain node mem⟩
    · -- There are at least two nodes that are looked at.
      have length := congrArg List.length (split.symm.trans all)
      simp at length
      omega

end Findings

section Whole

variable {program : Program} {id : String} {options : Options} {out : Converted} {edited : Output}

/-- The second pass over statements, two of which are next to each other. -/
theorem Locals.clears (bindings : Bindings) (freeNames : List String) (valueName : String)
    (locals : Locals) {before after : List Stmt} {s t : Stmt}
    (laid : LaidAll source 0 lo hi ((before ++ s :: t :: after).map .listed)) :
    ∃ stored, ((before ++ s :: t :: after).foldl (Locals.step bindings freeNames valueName)
        locals).edits = locals.edits ++ stored ∧ ∀ e ∈ stored, s.Clears t e.start e.stop := by
  have split : before ++ s :: t :: after = (before ++ [s]) ++ t :: after := by simp
  have laid : LaidAll source 0 lo hi
      (before.map .listed ++ .listed s :: .listed t :: after.map .listed) := by
    simpa using laid
  obtain ⟨le, first, last⟩ := laid.exists_gap
  obtain ⟨stored, stores, within⟩ := stored_of_laid bindings freeNames valueName locals
    (show LaidAll source 0 lo s.span.stop ((before ++ [s]).map .listed) by simpa using first)
  obtain ⟨stored', stores', within'⟩ := stored_of_laid bindings freeNames valueName
    ((before ++ [s]).foldl (Locals.step bindings freeNames valueName) locals)
    (show LaidAll source 0 t.outset hi ((t :: after).map .listed) by simpa using last)
  rw [split]
  refine ⟨stored ++ stored', by rw [List.foldl_append, stores', stores, List.append_assoc], ?_⟩
  intro e mem
  rcases List.mem_append.mp mem with mem | mem
  · exact .inl (within e mem).2
  · exact .inr (within' e mem).1

/-- **Nothing is edited between two statements** that are next to each other in a list. -/
theorem edits_clear (parsed : parseModule source = .ok program) (id : String) (options : Options)
    {before after : List Stmt} {s t : Stmt} (h : program.HasList (before ++ s :: t :: after)) :
    ∀ e ∈ (layout program source id options).body.edits, s.Clears t e.start e.stop := by
  rcases h.visited (Bindings.ofProgram program) options.ignored with body | ⟨_, node, visited, mem⟩
  · have laid := laid_parseModule parsed
    rw [← body] at laid
    have nodes : usesOfStmts ⟨Bindings.ofProgram program, options.ignored, false⟩ .body
        (before ++ s :: t :: after) = (before.map (Node.stmt .body false) ++ Node.stmt .body false s ::
          Node.stmt .body false t :: after.map (Node.stmt .body false)).flatMap
            (usesOfNode ⟨Bindings.ofProgram program, options.ignored, false⟩) := by
      rw [← List.map_cons, ← List.map_cons, ← List.map_append, List.flatMap_map]
      exact usesOfStmts_eq_flatMap .body _
    have first : Findings.Adds (s.Clears t)
        (begin (Bindings.ofProgram program) options (hasCompiledMark source)).2
        ((usesOfStmts ⟨Bindings.ofProgram program, options.ignored, false⟩ .body
          (before ++ s :: t :: after)).foldl (Findings.step (frameOf program options))
            (begin (Bindings.ofProgram program) options (hasCompiledMark source)).2) := by
      rw [nodes]
      refine Findings.adds_clears (by simpa [Node.bare] using laid) ?_
        (past_begin (Bindings.ofProgram program) options (hasCompiledMark source))
      intro node mem
      rw [← List.map_cons, ← List.map_cons, ← List.map_append] at mem
      obtain ⟨s, -, rfl⟩ := List.mem_map.mp mem
      exact ⟨rfl, fun _ _ => trivial⟩
    have second := Locals.clears (Bindings.ofProgram program)
      (frameOf program options).freeNames (valueOf program source id options).1
      ⟨(findingsOf program source options).edits, (valueOf program source id options).2, [], false⟩
      laid
    rw [body] at first second
    exact edits_of_passes first second
  · exact (Findings.editsOnly_of_lists mem).edits parsed visited

/-- Where the text of a statement begins and ends. -/
def textRange (s : Stmt) : Nat × Nat := (s.outset, s.span.stop)

/-- Statements of a list that are deleted: they follow one another, and from the statement before them
to the statement after them nothing else is edited. -/
theorem edits_between (parsed : parseModule source = .ok program) (id : String) (options : Options)
    {before gone after : List Stmt} {s t : Stmt}
    (h : program.HasList (before ++ s :: (gone ++ t :: after)))
    (deleted : ∀ r ∈ gone,
      deletion r.outset r.span.stop ∈ (layout program source id options).body.edits) :
    Ordered s.span.stop (gone.map textRange) t.outset ∧
      ∀ e ∈ (layout program source id options).body.edits, e.stop ≤ s.span.stop ∨
        (∃ r ∈ gone.map textRange, e = deletion r.1 r.2) ∨ t.outset ≤ e.start := by
  have confined := confined_layout parsed id options
  obtain ⟨lo, hi, laid⟩ := h.laid parsed
  induction gone generalizing before s with
  | nil =>
    have laid : LaidAll source 0 lo hi
        (before.map .listed ++ .listed s :: .listed t :: after.map .listed) := by
      simpa using laid
    refine ⟨laid.exists_gap.1, fun e mem => ?_⟩
    rcases edits_clear parsed id options h e mem with first | last
    · exact .inl first
    · exact .inr (.inr last)
  | cons g gone ih =>
    have around : before ++ s :: (g :: gone ++ t :: after) =
        (before ++ [s]) ++ g :: (gone ++ t :: after) := by simp
    obtain ⟨order, rest⟩ := ih (around ▸ h) (fun r mem => deleted r (List.mem_cons_of_mem _ mem))
      (around ▸ laid)
    have removed := deleted g List.mem_cons_self
    have text : g.outset < g.span.stop := confined.text _ removed
    have laid : LaidAll source 0 lo hi (before.map .listed ++ .listed s :: .listed g ::
        (gone ++ t :: after).map .listed) := by
      simpa using laid
    refine ⟨⟨laid.exists_gap.1, text, order⟩, fun e mem => ?_⟩
    rcases edits_clear parsed id options h e mem with first | begins
    · exact .inl first
    rcases rest e mem with ends | ⟨r, among, same⟩ | last
    · -- The edit is in the statement that goes, and no two edits claim the same text.
      right
      left
      refine ⟨textRange g, List.mem_cons_self, ?_⟩
      by_contra other
      have proper := confined.text e mem
      have : Std.Symm Edit.Apart := ⟨fun _ _ => Edit.Apart.symm⟩
      have apart := confined.apart.forall mem removed other
      rcases apart with low | high
      · have : e.stop ≤ g.outset := low
        omega
      · have : g.span.stop ≤ e.start := high
        omega
    · exact .inr (.inl ⟨r, List.mem_cons_of_mem _ among, same⟩)
    · exact .inr (.inr last)

/-- The walk looks at the statements of a list, which need not stand where they are. -/
theorem exists_visited_of_mem {list : List Stmt} (h : program.HasList list) (bindings : Bindings)
    (ignored : List String) {s : Stmt} (mem : s ∈ list) :
    ∃ inFunction home concise, home.allowsNone = true ∧
      Visited bindings ignored program inFunction (.stmt home concise s) := by
  rcases h.visited bindings ignored with rfl | ⟨inFunction, node, visited, among⟩
  · exact ⟨false, .body, false, rfl, .statement mem⟩
  · obtain ⟨-, -, -, -, before, concise, after, all⟩ :=
      Node.visited_of_mem_lists among ⟨bindings, ignored, inFunction⟩
    refine ⟨_, .list, concise, rfl, visited.part ?_⟩
    rw [all]
    exact List.mem_append_right _ (List.mem_append_left _ (List.mem_map_of_mem mem))

/-- **A bare call of `require` goes** where a list has it as a statement. -/
theorem deletion_of_require (parsed : parseModule source = .ok program) (id : String)
    {list : List Stmt} (h : program.HasList list) {span : Span} {e : Expr} {call : RequireCall}
    (mem : .expression span e ∈ list)
    (static : requireCall? (Bindings.ofProgram program) options.ignored e = some call) :
    deletion (Stmt.expression span e).outset span.stop ∈
      (layout program source id options).body.edits := by
  obtain ⟨inFunction, home, concise, allows, visited⟩ :=
    exists_visited_of_mem h (Bindings.ofProgram program) options.ignored mem
  obtain ⟨lo, hi, laid⟩ := visited.live.exists_laid parsed
  have inside : LaidAll source 0 lo span.stop [.part e] := laid.inside
  have text := inside.head.text_of_requireCall static
  have begins : span.start ≤ e.span.start := laid.fits.2
  have ends := inside.span_within.le_hi
  have expression : Visited (Bindings.ofProgram program) options.ignored program inFunction
      (.expr (.statement span home) concise e) := by
    have inner : Node.expr (.statement span home) concise e ∈
        (Node.stmt home concise (.expression span e)).visited
          ⟨Bindings.ofProgram program, options.ignored, inFunction⟩ := List.mem_singleton.mpr rfl
    simpa [Node.isBody] using visited.part inner
  obtain ⟨callee, argument, rfl, -⟩ := requireCall?_eq_some static
  have use : .requiring call (some (span, home)) ∈
      usesOf (Bindings.ofProgram program) options.ignored program := by
    refine mem_usesOf_iff.mpr ⟨inFunction, _, expression, ?_⟩
    simp [Node.own, static, Place.statement?]
  obtain ⟨entry, -, out⟩ := findingsOf_answers source use
  unfold TakesOut at out
  rw [if_pos allows] at out
  have outset : (Stmt.expression span (.call call.span (.name callee "require") [argument])).outset =
      span.start := by
    rw [Stmt.outset, Expr.outset_eq rfl]
    exact Nat.min_eq_left begins
  rw [outset]
  exact edits_subset_layout (out (by omega))

/-- Between two statements an edited text has what stood there around the statements that go, and
before and after it what the edits there make of the source. -/
def LeftBetween (source : List Char) (edits : List Edit) (edited : Output) (s : Stmt)
    (gone : List Stmt) (t : Stmt) : Prop :=
  ∃ first between last, source = first ++ between ++ last ∧
    byteLength first = s.span.stop ∧ byteLength (first ++ between) = t.outset ∧
    edited.glyphs = reading (edits.filter fun e => e.stop ≤ s.span.stop) 0 first ++
      leftOver source s.span.stop (gone.map textRange) t.outset ++
      reading (edits.filter fun e => s.span.stop < e.stop ∧ t.outset ≤ e.start) t.outset last

/-- **Statements go without a trace, and nothing takes their place.**  In each list of statements, a
bare call of `require` goes, and where statements go that follow one another, the statements before
and after them are left with just the text between them that stood around those that go: neither is
touched, and nothing is put between them. -/
theorem statements_go (parsed : parseModule source = .ok program)
    (converted : convert program source id options = .ok (some out)) :
    ∃ edited, Emitted program source id options out edited ∧
      ∀ list, program.HasList list →
        (∀ span e call, .expression span e ∈ list →
          requireCall? (Bindings.ofProgram program) options.ignored e = some call →
          deletion (Stmt.expression span e).outset span.stop ∈
            (layout program source id options).body.edits) ∧
        ∀ before s gone t after, list = before ++ s :: (gone ++ t :: after) →
          (∀ r ∈ gone, deletion r.outset r.span.stop ∈
            (layout program source id options).body.edits) →
          LeftBetween source (layout program source id options).body.edits edited s gone t := by
  obtain ⟨edited, emitted⟩ := exists_emitted converted
  have confined := confined_layout parsed id options
  refine ⟨edited, emitted, fun list h => ⟨?_, ?_⟩⟩
  · intro span e call mem static
    exact deletion_of_require parsed id h mem static
  · rintro before s gone t after rfl deleted
    obtain ⟨order, all⟩ := edits_between parsed id options h deleted
    obtain ⟨lo, hi, laid⟩ := h.laid parsed
    obtain ⟨_, _, -, -, begun⟩ := laid.exists_laid (show Node.listed s ∈ _ by simp)
    obtain ⟨_, _, -, -, ended⟩ := laid.exists_laid (show Node.listed t ∈ _ by simp)
    obtain ⟨-, endAt, -⟩ := ended.tight_stmt
    obtain ⟨first, rest, rfl, starts⟩ := begun.fits.stmt_within.stop
    have high := endAt.le
    rw [byteLength_append] at high
    obtain ⟨between, last, rfl, stops⟩ :=
      @exists_pieces first rest [] t.outset (by simpa using endAt) (starts ▸ order.le) high
    obtain ⟨output, applied, -, glyphs⟩ := apply_of_apart confined.fits confined.apart
    obtain rfl : output = edited := Except.ok.inj (applied.symm.trans emitted.edits)
    refine ⟨first, between, last, (List.append_assoc _ _ _).symm, starts,
      by rw [byteLength_append, stops], ?_⟩
    rw [glyphs]
    refine reading_deletions (List.append_assoc _ _ _).symm starts (starts ▸ stops) order ?_
      (fun e mem => (confined.fits e mem).ordered) all ?_
    · intro r mem
      obtain ⟨g, among, rfl⟩ := List.mem_map.mp mem
      exact ⟨(confined.fits _ (deleted g among)).start, (confined.fits _ (deleted g among)).stop⟩
    · intro r mem
      obtain ⟨g, among, rfl⟩ := List.mem_map.mp mem
      exact deleted g among

/-- A module with a bare call of `require` between two statements. -/
def bareSource : List Char := "f();\nrequire('a');\ng();".toList

/-- The tree of `bareSource`. -/
def bareModule : Program :=
  ⟨[.expression ⟨0, 4⟩ (.call ⟨0, 3⟩ (.name ⟨0, 1⟩ "f") []),
    .expression ⟨5, 18⟩ (.call ⟨5, 17⟩ (.name ⟨5, 12⟩ "require")
      [.literal ⟨13, 16⟩ (.string "a")]),
    .expression ⟨19, 23⟩ (.call ⟨19, 22⟩ (.name ⟨19, 20⟩ "g") [])]⟩

set_option maxRecDepth 4000 in
/-- Between the two statements the line breaks around the call are left. -/
theorem bare_call_goes :
    parseModule bareSource = .ok bareModule ∧
      ∃ out edited, convert bareModule bareSource "m" .plain = .ok (some out) ∧
        Emitted bareModule bareSource "m" .plain out edited ∧
        ∃ s call t, bareModule.body = [s, call, t] ∧
          LeftBetween bareSource (layout bareModule bareSource "m" .plain).body.edits edited
            s [call] t ∧
          leftOver bareSource s.span.stop [textRange call] t.outset =
            [⟨'\n', some 4⟩, ⟨'\n', some 18⟩] := by
  have parsed : parseModule bareSource = .ok bareModule := rfl
  obtain ⟨out, converted, -⟩ :=
    exists_converted (confined_layout parsed "m" .plain) (by decide +kernel)
  obtain ⟨edited, emitted, lists⟩ := statements_go parsed converted
  obtain ⟨goes, left⟩ := lists _ .body
  refine ⟨parsed, out, edited, converted, emitted, _, _, _, rfl, left [] _ [_] _ [] rfl ?_, ?_⟩
  · intro r mem
    obtain rfl := List.mem_singleton.mp mem
    exact goes _ _ ⟨⟨5, 17⟩, "a", 0⟩ (by simp [bareModule]) (by decide +kernel)
  · decide +kernel

/-- A module with a statement that has no end but its line's, and that only because of what follows. -/
def mergingSource : List Char := "var f = g\nrequire('x');(b)".toList

/-- The tree of `mergingSource`. -/
def mergingModule : Program :=
  ⟨[.variables ⟨0, 9⟩ .var [.mk ⟨4, 9⟩ (.binding ⟨⟨4, 5⟩, "f"⟩) (some (.name ⟨8, 9⟩ "g"))],
    .expression ⟨10, 23⟩ (.call ⟨10, 22⟩ (.name ⟨10, 17⟩ "require")
      [.literal ⟨18, 21⟩ (.string "x")]),
    .expression ⟨23, 26⟩ (.paren ⟨23, 26⟩ (.name ⟨24, 25⟩ "b"))]⟩

/-- The variables of a module that are declared with a call of one name with another one. -/
def declaredCalls (program : Program) : List (String × String × String) :=
  program.body.flatMap fun
    | .variables _ _ list => list.filterMap fun
      | .mk _ (.binding name) (some (.call _ (.name _ callee) [.name _ argument])) =>
        some (name.text, callee, argument)
      | _ => none
    | _ => []

set_option maxRecDepth 4000 in
/-- The call of `require` goes, and with it what kept the statements around it apart: the parenthesis
after it becomes the argument of a call in the declaration before it. -/
theorem neighbours_merge :
    parseModule mergingSource = .ok mergingModule ∧ declaredCalls mergingModule = [] ∧
      ∃ out tree, convert mergingModule mergingSource "m" .plain = .ok (some out) ∧
        parseModule out.code.toList = .ok tree ∧ declaredCalls tree = [("f", "g", "b")] := by
  refine ⟨rfl, rfl, ?_⟩
  obtain ⟨out, converted, parsed⟩ := exists_of_any (show
    (convert mergingModule mergingSource "m" .plain).toOption.join.any (fun out =>
      (parseModule out.code.toList).toOption.any fun tree =>
        declaredCalls tree == [("f", "g", "b")]) = true by decide +kernel)
  obtain ⟨tree, read, calls⟩ := exists_ok_of_any parsed
  exact ⟨out, tree, converted, read, eq_of_beq calls⟩

end Whole

end ModuleInterop.Conversion
