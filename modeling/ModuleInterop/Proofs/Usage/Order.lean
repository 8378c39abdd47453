import ModuleInterop.Proofs.Syntax.Parser.Module
import ModuleInterop.Proofs.Usage.Place

/-!
# The order of the calls of `require`

The uses of a module that are calls of `require` come in the order of the text, and none of these calls
reaches into another one (`calls_inOrder`).  A node's own use is a call only where nothing else is looked
at in the node, and the parts that are looked at lie one after the other.  The calls among the uses are
exactly the live ones that an import can stand for (`mem_callsOf_usesOf_iff`).
-/

set_option autoImplicit false

namespace ModuleInterop.Usage

open ModuleInterop.Syntax ModuleInterop.Scope

/-- The calls that uses are about. -/
def callsOf (uses : List Use) : List RequireCall := uses.filterMap Use.call?

@[simp] theorem callsOf_nil : callsOf [] = [] := rfl

@[simp] theorem callsOf_append (uses others : List Use) :
    callsOf (uses ++ others) = callsOf uses ++ callsOf others := by
  simp [callsOf]

/-- Calls stand in an interval of the text, one after the other. -/
structure InOrder (lo hi : Nat) (calls : List RequireCall) : Prop where
  ordered : calls.Pairwise fun a b => a.span.stop ≤ b.span.start
  within : ∀ call ∈ calls,
    lo ≤ call.span.start ∧ call.span.start < call.span.stop ∧ call.span.stop ≤ hi

namespace InOrder

variable {lo mid hi lo' hi' : Nat} {calls others : List RequireCall}

theorem nil : InOrder lo hi [] := ⟨.nil, by simp⟩

theorem single {call : RequireCall}
    (within : lo ≤ call.span.start ∧ call.span.start < call.span.stop ∧ call.span.stop ≤ hi) :
    InOrder lo hi [call] :=
  ⟨List.pairwise_singleton _ _, by simpa using within⟩

theorem mono (h : InOrder lo hi calls) (low : lo' ≤ lo) (high : hi ≤ hi') : InOrder lo' hi' calls :=
  ⟨h.ordered, fun call mem => by have := h.within call mem; omega⟩

theorem append (h : InOrder lo mid calls) (h' : InOrder mid hi others) (low : lo ≤ mid)
    (high : mid ≤ hi) : InOrder lo hi (calls ++ others) := by
  refine ⟨List.pairwise_append.mpr ⟨h.ordered, h'.ordered, ?_⟩, ?_⟩
  · intro call mem other mem'
    have := h.within call mem
    have := h'.within other mem'
    omega
  · exact List.forall_mem_append.mpr ⟨(h.mono (Nat.le_refl _) high).within,
      (h'.mono low (Nat.le_refl _)).within⟩

/-- A call begins before all that come after it. -/
theorem ascending (h : InOrder lo hi calls) :
    calls.Pairwise fun a b => a.span.start < b.span.start :=
  h.ordered.imp_of_mem fun {a} {b} mem mem' le => by
    have := h.within a mem
    omega

end InOrder

variable {context : Context} {source : List Char} {lo hi : Nat}

/-- The calls in a node are its own and those in the parts that are looked at. -/
theorem callsOf_usesOfNode (node : Node) :
    callsOf (usesOfNode context node) =
      callsOf (node.own context) ++
        callsOf ((node.visited context).flatMap (usesOfNode (context.inside node))) := by
  cases kind : node.isVariables with
  | false => rw [usesOfNode_eq kind, callsOf_append]
  | true =>
    obtain ⟨home, concise, span, kind, list, rfl⟩ := Node.eq_variables_of_isVariables kind
    rw [Context.inside_of_not_isBody rfl, usesOfNode_stmt, usesOfVariables_eq home concise,
      callsOf_append]
    exact List.append_nil _

/-- Where nodes are laid one after the other, so are the calls in them. -/
theorem inOrder_of_laidAll {nodes : List Node} (laid : LaidAll source 0 lo hi (nodes.map Node.bare))
    (each : ∀ node ∈ nodes, ∀ lo hi, Laid source 0 lo hi node →
      InOrder lo hi (callsOf (usesOfNode context node))) :
    InOrder lo hi (callsOf (nodes.flatMap (usesOfNode context))) := by
  induction nodes generalizing lo with
  | nil => exact .nil
  | cons node nodes ih =>
    cases laid with
    | cons first others =>
      rw [List.flatMap_cons, callsOf_append]
      have rest := ih others fun inner mem => each inner (List.mem_cons_of_mem _ mem)
      exact (each node List.mem_cons_self _ _ first.of_bare).append rest first.le others.le

/-- A call that is a node's own stands in the node, where nothing else is looked at. -/
theorem OwnCall.alone {node : Node} {use : Use} {call : RequireCall}
    (own : OwnCall context node use call) (laid : Laid source 0 lo hi node) :
    node.own context = [use] ∧ node.visited context = [] ∧
      lo ≤ call.span.start ∧ call.span.start < call.span.stop ∧ call.span.stop ≤ hi := by
  cases own with
  | @call place concise e call static =>
    have text := laid.text_of_requireCall static
    have within := laid.fits.span_within
    obtain ⟨callee, argument, rfl, -⟩ := requireCall?_eq_some static
    exact ⟨by simp [Node.own, static], by simp [Node.visited, static], within.lo_le, text,
      within.le_hi⟩
  | @value home span name init call static unexported root constant =>
    have taken : requiredVariable? context home (.mk span (.binding name) (some init)) =
        some (.requiredVariable span name.text call) := by
      simp [requiredVariable?, static, unexported, root, constant]
    have pieces : LaidAll source 0 span.start span.stop [.bound name, .part init] := laid.inside
    obtain ⟨mid, before, value⟩ := pieces.tail
    have text := value.head.text_of_requireCall static
    have inner := value.span_within
    have lower := Nat.le_trans (Nat.le_trans laid.fits.1.lo_le before.le) inner.lo_le
    have upper := Nat.le_trans inner.le_hi laid.fits.1.le_hi
    obtain ⟨callee, argument, rfl, -⟩ := requireCall?_eq_some static
    exact ⟨by simp [Node.own, taken], by simp [Node.visited, taken], lower, text, upper⟩

/-- **The calls in a node come in the order of the text.** -/
theorem inOrder_of_laid {node : Node} (laid : Laid source 0 lo hi node) :
    InOrder lo hi (callsOf (usesOfNode context node)) := by
  induction hn : node.size using Nat.strongRecOn generalizing node context lo hi with
  | ind n ih =>
    subst hn
    rw [callsOf_usesOfNode]
    by_cases calls : ∃ use ∈ node.own context, ∃ call, use.call? = some call
    · obtain ⟨use, mem, call, about⟩ := calls
      obtain ⟨own, nothing, within⟩ := (ownCall_of_mem_own mem about).alone laid
      rw [own, nothing]
      have only : callsOf [use] = [call] := by simp [callsOf, about]
      rw [only, List.flatMap_nil, callsOf_nil, List.append_nil]
      exact .single within
    · have none : callsOf (node.own context) = [] := by
        refine List.filterMap_eq_nil_iff.mpr fun use mem => ?_
        exact Option.eq_none_iff_forall_ne_some.mpr fun call about => calls ⟨use, mem, call, about⟩
      rw [none, List.nil_append]
      refine (inOrder_of_laidAll (laid.visited context) fun inner mem lo hi laid => ?_).mono
        (Nat.le_refl _) laid.fits.frame_within.2
      exact ih _ (Node.size_lt_of_mem_parts (Node.mem_parts_iff.mpr (.inl mem))) laid rfl

variable {program : Program} {bindings : Bindings} {ignored : List String}

/-- **The calls of `require` in a module come in the order of its text.** -/
theorem calls_inOrder (parsed : parseModule source = .ok program) :
    InOrder 0 (Text.byteLength source) (callsOf (usesOf bindings ignored program)) := by
  have nodes : usesOf bindings ignored program =
      (program.body.map (Node.stmt .body false)).flatMap
        (usesOfNode ⟨bindings, ignored, false⟩) := by
    rw [usesOf, usesOfStmts_eq_flatMap, List.flatMap_map]
    rfl
  have laid : LaidAll source 0 0 (Text.byteLength source)
      ((program.body.map (Node.stmt .body false)).map Node.bare) := by
    rw [List.map_map]
    exact laid_parseModule parsed
  rw [nodes]
  apply inOrder_of_laidAll laid
  intro node _ lo hi laid
  exact inOrder_of_laid laid

/-- **The calls that are taken** are the live ones that an import can stand for. -/
theorem mem_callsOf_usesOf_iff {call : RequireCall} :
    call ∈ callsOf (usesOf bindings ignored program) ↔
      ∃ place concise e, program.Live (.expr place concise e) ∧
        requireCall? bindings ignored e = some call := by
  rw [callsOf, List.mem_filterMap]
  constructor
  · rintro ⟨use, mem, about⟩
    obtain ⟨inFunction, node, visited, own⟩ := mem_usesOf_iff.mp mem
    cases ownCall_of_mem_own own about with
    | call static => exact ⟨_, _, _, visited.live, static⟩
    | @value home span name init _ static =>
      have live : program.Live (.part init) :=
        visited.live.part rfl (List.mem_cons_of_mem _ List.mem_cons_self)
      exact ⟨_, _, _, live, static⟩
  · rintro ⟨place, concise, e, live, static⟩
    rcases requireCall_covered live static with use | ⟨-, -, home, span, name, -, use⟩
    · exact ⟨_, use, rfl⟩
    · exact ⟨_, use, rfl⟩

end ModuleInterop.Usage
