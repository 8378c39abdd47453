import Mathlib.Data.List.TakeWhile
import ModuleInterop.Proofs.Scope.Declared

/-!
# Open scopes as a stack

Which binding a reference gets depends on the scopes that are open while occurrences are read, and on
nothing else of the scopes that have been read.  Here reading is a machine on the stack of open scopes:
a scope has its own names on the stack, and no numbers (`Stack.step`).  What can be seen of a reading
is such a stack, and one step of the reading is one step of the machine (`Reading.view_step`), so the
declarations and references of a module are those that the machine finds (`view_ofOccurrences`).

Two runs over occurrences that are almost the same can be compared on the stack alone, although they
number the scopes and the bindings differently.
-/

set_option autoImplicit false

namespace ModuleInterop.Scope

open ModuleInterop.Syntax

/-- A scope that has not ended.  The references in it that wait are given by position and name. -/
structure Frame where
  holdsVars : Bool
  names : List (String × Nat)
  passing : List (String × Nat)
  pending : List (Nat × String)

namespace Frame

/-- A scope that begins. -/
def new (holdsVars : Bool) : Frame := ⟨holdsVars, [], [], []⟩

/-- The binding that a scope has for a name, its own or one that passes through it. -/
def known? (frame : Frame) (name : String) : Option Nat :=
  (lookup name frame.names).or (lookup name frame.passing)

/-- A scope declares a name. -/
def assign (frame : Frame) (name : String) (binding : Nat) : Frame :=
  { frame with names := assignName name binding frame.names }

/-- A scope declares a name no longer. -/
def remove (frame : Frame) (name : String) : Frame :=
  { frame with names := frame.names.filter fun e => e.1 != name }

/-- A variable passes through a scope. -/
def pass (frame : Frame) (name : String) (binding : Nat) : Frame :=
  { frame with passing := assignName name binding frame.passing }

/-- More references wait. -/
def wait (frame : Frame) (references : List (Nat × String)) : Frame :=
  { frame with pending := frame.pending ++ references }

/-- No reference waits any more. -/
def clear (frame : Frame) : Frame := { frame with pending := [] }

/-- The references of a scope that find their binding in it. -/
def found (frame : Frame) : List ((Nat × String) × Option Nat) :=
  frame.pending.filterMap fun r => (lookup r.2 frame.names).map fun b => (r, some b)

/-- The references that a scope leaves to the scope around it. -/
def left (frame : Frame) : List (Nat × String) :=
  frame.pending.filter fun r => (lookup r.2 frame.names).isNone

end Frame

/-- What becomes of the open scopes when a name is declared: the scopes, the binding of the name, and
the number of bindings. -/
structure Declaring where
  frames : List Frame
  binding : Nat
  count : Nat

/-- A new binding in the innermost scope. -/
def declareNew (name : String) (count : Nat) : List Frame → Declaring
  | [] => ⟨[], count, count + 1⟩
  | frame :: others => ⟨frame.assign name count :: others, count, count + 1⟩

/-- A declaration in the innermost scope. -/
def declareHere (name : String) (count : Nat) : List Frame → Declaring
  | [] => ⟨[], count, count + 1⟩
  | frame :: others =>
    match frame.known? name with
    | some binding => ⟨frame :: others, binding, count⟩
    | none => ⟨frame.assign name count :: others, count, count + 1⟩

/-- A variable that a scope inside has declared passes through scopes to the one that holds
variables; it moves there, or is there already. -/
def carry (name : String) (binding : Nat) (moves : Bool) : List Frame → List Frame
  | [] => []
  | frame :: others =>
    if frame.holdsVars then (if moves then frame.assign name binding else frame) :: others
    else frame.pass name binding :: carry name binding moves others

/-- The declaration of a variable: the scopes up to the one that holds variables let it pass, unless
one of them has it already. -/
def hoist (name : String) (count : Nat) : List Frame → Declaring
  | [] => ⟨[], count, count + 1⟩
  | frame :: others =>
    if frame.holdsVars then declareHere name count (frame :: others)
    else
      match frame.known? name with
      | some binding =>
        ⟨(frame.remove name).pass name binding ::
          carry name binding (lookup name frame.names).isSome others, binding, count⟩
      | none =>
        let outer := hoist name count others
        ⟨frame.pass name outer.binding :: outer.frames, outer.binding, outer.count⟩

/-- What becomes of the open scopes by a rule. -/
def DeclarationRule.declaring : DeclarationRule → String → Nat → List Frame → Declaring
  | .here => declareHere
  | .hoisted => hoist
  | .shadowing => declareNew

section Hoisting

variable {name : String} {count binding : Nat} {way between outer : List Frame}
  {frame target : Frame}

theorem carry_eq (moves : Bool) (inner : ∀ f ∈ between, f.holdsVars = false)
    (holds : target.holdsVars = true) :
    carry name binding moves (between ++ target :: outer) =
      between.map (fun f => f.pass name binding) ++
        (if moves then target.assign name binding else target) :: outer := by
  induction between with
  | nil => simp [carry, holds]
  | cons f between ih =>
    rw [List.forall_mem_cons] at inner
    simp [carry, inner.1, ih inner.2]

/-- A variable that no scope on the way knows is declared in the scope that holds variables. -/
theorem hoist_of_unknown (inner : ∀ f ∈ way, f.holdsVars = false)
    (unknown : ∀ f ∈ way, f.known? name = none) (holds : target.holdsVars = true) :
    hoist name count (way ++ target :: outer) =
      let result := declareHere name count (target :: outer)
      ⟨way.map (fun f => f.pass name result.binding) ++ result.frames, result.binding,
        result.count⟩ := by
  induction way with
  | nil => simp [hoist, holds]
  | cons f way ih =>
    rw [List.forall_mem_cons] at inner unknown
    simp [hoist, inner.1, unknown.1, ih inner.2 unknown.2]

/-- A variable that a scope on the way knows moves from there. -/
theorem hoist_of_known (count : Nat) (outer : List Frame)
    (inner : ∀ f ∈ way ++ frame :: between, f.holdsVars = false)
    (unknown : ∀ f ∈ way, f.known? name = none) (known : frame.known? name = some binding)
    (holds : target.holdsVars = true) :
    hoist name count (way ++ frame :: (between ++ target :: outer)) =
      ⟨way.map (fun f => f.pass name binding) ++ (frame.remove name).pass name binding ::
        (between.map (fun f => f.pass name binding) ++
          (if (lookup name frame.names).isSome then target.assign name binding else target) ::
            outer), binding, count⟩ := by
  rw [List.forall_mem_append, List.forall_mem_cons] at inner
  induction way with
  | nil => simp [hoist, inner.2.1, known, carry_eq _ inner.2.2 holds]
  | cons f way ih =>
    rw [List.forall_mem_cons] at inner unknown
    simp [hoist, inner.1.1, unknown.1, ih ⟨inner.1.2, inner.2⟩ unknown.2]

end Hoisting

/-- The open scopes, the innermost first, the number of bindings, the declarations as position and
binding, and the references that have found their binding or are free. -/
structure Stack where
  frames : List Frame
  count : Nat
  declared : List (Nat × Nat)
  resolved : List ((Nat × String) × Option Nat)

namespace Stack

/-- Before the first occurrence. -/
def start : Stack := ⟨[.new true], 0, [], []⟩

/-- A name at a position is declared. -/
def declare (stack : Stack) (name : Name)
    (rule : String → Nat → List Frame → Declaring) : Stack :=
  let result := rule name.text stack.count stack.frames
  { stack with
    frames := result.frames
    count := result.count
    declared := stack.declared ++ [(name.span.start, result.binding)] }

/-- Resolves the references of the innermost scope. -/
def settle (stack : Stack) : Stack :=
  match stack.frames with
  | [] => stack
  | [inner] =>
    { stack with
      frames := [inner.clear]
      resolved := stack.resolved ++ (inner.found ++ inner.left.map fun r => (r, none)) }
  | inner :: next :: others =>
    { stack with
      frames := inner.clear :: next.wait inner.left :: others
      resolved := stack.resolved ++ inner.found }

/-- A scope ends. -/
def leave (stack : Stack) : Stack :=
  { stack.settle with frames := stack.settle.frames.drop 1 }

/-- Records a reference in the innermost scope. -/
def refer (stack : Stack) (offset : Nat) (name : String) : Stack :=
  match stack.frames with
  | [] => stack
  | inner :: outer => { stack with frames := inner.wait [(offset, name)] :: outer }

/-- Reads one occurrence. -/
def step (stack : Stack) : Occurrence → Stack
  | .enter holdsVars => { stack with frames := .new holdsVars :: stack.frames }
  | .leave => stack.leave
  | .settle => stack.settle
  | .declare rule name => stack.declare name rule.declaring
  | .refer offset name _ => stack.refer offset name
  | .word _ => stack

end Stack

/-! ## What can be seen of a reading -/

/-- A scope with references that wait in it. -/
def ScopeEntry.frame (entry : ScopeEntry) (pending : List Reference) : Frame :=
  ⟨entry.holdsVars, entry.names, entry.passing, pending.map fun r => (r.offset, r.name)⟩

namespace Reading

variable {reading : Reading}

/-- What can be seen of an open scope. -/
def frameOf (reading : Reading) (o : OpenScope) : Frame :=
  ((reading.scope? o.scope).getD ⟨[], true, [], []⟩).frame o.pending

/-- What can be seen of a reading. -/
def view (reading : Reading) : Stack where
  frames := reading.opened.map reading.frameOf
  count := reading.count
  declared := reading.found.declarations
  resolved := reading.found.references.map fun r => ((r.offset, r.name), r.binding)

/-- Scopes that are open have begun one after the other, each is one of the scopes that have been read,
and the references in them have no binding yet. -/
structure Layered (reading : Reading) : Prop where
  order : reading.opened.Pairwise fun inner outer => outer.scope < inner.scope
  inside : ∀ o ∈ reading.opened, o.scope < reading.found.scopes.length
  unbound : ∀ o ∈ reading.opened, ∀ r ∈ o.pending, r.binding = none

theorem layered_start : start.Layered where
  order := List.pairwise_singleton _ _
  inside := by simp [start]
  unbound := by simp [start]

theorem view_start : start.view = .start := rfl

theorem Layered.of_sameShape {after : Reading} (layered : reading.Layered)
    (same : SameShape reading after) : after.Layered where
  order := same.opened ▸ layered.order
  inside := by
    rw [same.opened, same.length]
    exact layered.inside
  unbound := same.opened ▸ layered.unbound

/-! ### Scopes that change -/

/-- A scope on the stack changes as the scope does. -/
theorem frameOf_updateScope (reading : Reading) (i : Nat) {f : ScopeEntry → ScopeEntry} {g : Frame → Frame}
    (agree : ∀ entry pending, (f entry).frame pending = g (entry.frame pending)) {o : OpenScope}
    (there : o.scope < reading.found.scopes.length) :
    (reading.updateScope i f).frameOf o =
      if i = o.scope then g (reading.frameOf o) else reading.frameOf o := by
  obtain ⟨entry, here⟩ : ∃ entry, reading.scope? o.scope = some entry :=
    ⟨_, List.getElem?_eq_getElem there⟩
  unfold frameOf
  rw [scope?_updateScope, here]
  split
  · exact agree entry o.pending
  · rfl

/-- A variable passes through scopes on the stack. -/
theorem frameOf_passThrough (name : String) (binding : Nat) {way : List Nat} (distinct : way.Nodup)
    {o : OpenScope} (there : o.scope < reading.found.scopes.length) :
    (reading.passThrough name binding way).frameOf o =
      if o.scope ∈ way then (reading.frameOf o).pass name binding else reading.frameOf o := by
  unfold passThrough
  induction way generalizing reading with
  | nil => simp
  | cons i way ih =>
    obtain ⟨new, distinct⟩ := List.nodup_cons.mp distinct
    have shape := sameShape_updateScope reading i
      (f := fun entry => { entry with passing := assignName name binding entry.passing })
      fun _ => rfl
    have changed := frameOf_updateScope reading i
      (f := fun entry => { entry with passing := assignName name binding entry.passing })
      (g := fun frame => frame.pass name binding) (fun _ _ => rfl) there
    rw [List.foldl_cons, ih distinct (shape.length ▸ there), changed]
    by_cases here : i = o.scope
    · subst here
      simp [new]
    · simp [here, Ne.symm here]

/-- Scopes with other numbers do not change. -/
theorem map_frameOf_updateScope (reading : Reading) (i : Nat) {f : ScopeEntry → ScopeEntry}
    {os : List OpenScope}
    (other : ∀ o ∈ os, o.scope ≠ i) :
    os.map (reading.updateScope i f).frameOf = os.map reading.frameOf := by
  apply List.map_congr_left
  intro o mem
  unfold frameOf
  rw [scope?_updateScope]
  cases reading.scope? o.scope <;> simp [(other o mem).symm]

theorem known?_eq (reading : Reading) (name : String) (o : OpenScope) :
    reading.known? name o.scope = (reading.frameOf o).known? name := by
  unfold known? frameOf
  cases reading.scope? o.scope <;> rfl

/-! ### One step -/

theorem view_record (reading : Reading) (position binding : Nat) :
    (reading.record position binding).view =
      { reading.view with declared := reading.view.declared ++ [(position, binding)] } := rfl

theorem view_enter (layered : reading.Layered) (holdsVars : Bool) :
    (reading.enter holdsVars).view =
      { reading.view with frames := .new holdsVars :: reading.view.frames } := by
  have kept : reading.opened.map (reading.enter holdsVars).frameOf =
      reading.opened.map reading.frameOf := by
    apply List.map_congr_left
    intro o mem
    unfold frameOf
    have same : (reading.enter holdsVars).scope? o.scope = reading.scope? o.scope :=
      List.getElem?_append_left (layered.inside o mem)
    rw [same]
  have new : (reading.enter holdsVars).frameOf ⟨reading.found.scopes.length, []⟩ =
      .new holdsVars := by
    have here : (reading.enter holdsVars).scope? reading.found.scopes.length =
        some ⟨reading.opened.map OpenScope.scope, holdsVars, [], []⟩ :=
      List.getElem?_concat_length
    unfold frameOf
    rw [here]
    rfl
  show Stack.mk ((reading.enter holdsVars).frameOf _ ::
    reading.opened.map (reading.enter holdsVars).frameOf) _ _ _ = _
  rw [kept, new]
  rfl

theorem Layered.enter (layered : reading.Layered) (holdsVars : Bool) :
    (reading.enter holdsVars).Layered where
  order := List.pairwise_cons.mpr ⟨layered.inside, layered.order⟩
  inside := by
    have longer : (reading.enter holdsVars).found.scopes.length =
      reading.found.scopes.length + 1 := List.length_append
    rw [longer]
    intro o mem
    rcases List.mem_cons.mp mem with rfl | mem
    · exact Nat.lt_succ_self _
    · exact Nat.lt_succ_of_lt (layered.inside o mem)
  unbound := by
    intro o mem
    rcases List.mem_cons.mp mem with rfl | mem
    · exact nofun
    · exact layered.unbound o mem

theorem view_refer (reading : Reading) (offset : Nat) (name : String) (writes : Bool) :
    (reading.refer offset name writes).view = reading.view.refer offset name := by
  unfold refer Stack.refer
  cases opened : reading.opened with
  | nil => simp [view, opened]
  | cons inner outer => simp [view, opened, frameOf, ScopeEntry.frame, scope?, Frame.wait]

theorem Layered.refer (layered : reading.Layered) (offset : Nat) (name : String)
    (writes : Bool) : (reading.refer offset name writes).Layered := by
  unfold Reading.refer
  split
  · exact layered
  · rename_i inner outer opened
    obtain ⟨order, inside, unbound⟩ := layered
    rw [opened] at order inside unbound
    rw [List.forall_mem_cons] at inside unbound
    refine ⟨List.pairwise_cons.mpr (List.pairwise_cons.mp order), List.forall_mem_cons.mpr inside,
      List.forall_mem_cons.mpr ⟨?_, unbound.2⟩⟩
    intro r mem
    rcases List.mem_append.mp mem with mem | mem
    · exact unbound.1 r mem
    · rw [List.mem_singleton.mp mem]

theorem bindingIn_eq (reading : Reading) (o : OpenScope) (r : Reference) :
    reading.bindingIn o.scope r = lookup r.name (reading.frameOf o).names := by
  unfold bindingIn frameOf
  cases reading.scope? o.scope <;> rfl

/-- The references of a scope that find their binding are those found on the stack. -/
theorem view_found (reading : Reading) (o : OpenScope) :
    (o.pending.filterMap fun r => (reading.bindingIn o.scope r).map fun b =>
        { r with binding := some b }).map (fun r : Reference => ((r.offset, r.name), r.binding)) =
      (reading.frameOf o).found := by
  have pending : (reading.frameOf o).pending = o.pending.map fun r => (r.offset, r.name) := rfl
  unfold Frame.found
  rw [pending, List.map_filterMap, List.filterMap_map]
  apply List.filterMap_congr
  intro r _
  rw [bindingIn_eq]
  cases found : lookup r.name (reading.frameOf o).names <;> simp [found]

/-- The references that a scope leaves are those left on the stack. -/
theorem view_left (reading : Reading) (o : OpenScope) :
    (o.pending.filter fun r => (reading.bindingIn o.scope r).isNone).map
      (fun r => (r.offset, r.name)) = (reading.frameOf o).left := by
  have pending : (reading.frameOf o).pending = o.pending.map fun r => (r.offset, r.name) := rfl
  unfold Frame.left
  rw [pending, List.filter_map]
  congr 1
  apply List.filter_congr
  intro r _
  rw [bindingIn_eq]
  rfl

theorem view_settle (layered : reading.Layered) : reading.settle.view = reading.view.settle := by
  unfold settle
  split
  · rename_i none
    simp [view, Stack.settle, none]
  · rename_i inner outer opened
    have found := view_found reading inner
    have left := view_left reading inner
    cases outer with
    | nil =>
      have free : (inner.pending.filter fun r => (reading.bindingIn inner.scope r).isNone).map
          (fun r : Reference => ((r.offset, r.name), r.binding)) =
            (reading.frameOf inner).left.map fun r => (r, none) := by
        rw [← left, List.map_map]
        apply List.map_congr_left
        intro r mem
        have unbound := layered.unbound inner (by simp [opened]) r (List.mem_filter.mp mem).1
        simp [unbound]
      simp only [view, Stack.settle, opened, List.map_cons, List.map_nil, addReferences,
        List.map_append, found, free]
      rfl
    | cons next others =>
      have waits : (reading.frameOf ⟨next.scope, next.pending ++ inner.pending.filter fun r =>
          (reading.bindingIn inner.scope r).isNone⟩) =
            (reading.frameOf next).wait (reading.frameOf inner).left := by
        rw [← left]
        simp [frameOf, ScopeEntry.frame, Frame.wait]
      simp only [view, Stack.settle, opened, List.map_cons, addReferences, List.map_append, found]
      rw [← waits]
      rfl

theorem Layered.settle (layered : reading.Layered) : reading.settle.Layered := by
  obtain ⟨scopes, -⟩ := found_settle reading
  unfold Reading.settle at scopes ⊢
  split
  · exact layered
  · rename_i inner outer opened
    obtain ⟨order, inside, unbound⟩ := layered
    rw [opened] at order inside unbound
    rw [List.pairwise_cons] at order
    rw [List.forall_mem_cons] at inside unbound
    cases outer with
    | nil =>
      exact ⟨List.pairwise_singleton _ _, List.forall_mem_cons.mpr ⟨inside.1, by simp⟩,
        List.forall_mem_cons.mpr ⟨nofun, by simp⟩⟩
    | cons next others =>
      rw [List.pairwise_cons, List.forall_mem_cons] at order
      rw [List.forall_mem_cons] at inside unbound
      refine ⟨?_, ?_, ?_⟩
      · exact List.pairwise_cons.mpr ⟨List.forall_mem_cons.mpr order.1,
          List.pairwise_cons.mpr order.2⟩
      · exact List.forall_mem_cons.mpr ⟨inside.1, List.forall_mem_cons.mpr inside.2⟩
      · refine List.forall_mem_cons.mpr ⟨nofun, List.forall_mem_cons.mpr ⟨?_, unbound.2.2⟩⟩
        intro r mem
        rcases List.mem_append.mp mem with mem | mem
        · exact unbound.2.1 r mem
        · exact unbound.1 r (List.mem_filter.mp mem).1

theorem view_leave (layered : reading.Layered) : reading.leave.view = reading.view.leave := by
  have settled := view_settle layered
  unfold leave Stack.leave
  rw [← settled]
  show Stack.mk ((reading.settle.opened.drop 1).map reading.settle.frameOf) _ _ _ =
    Stack.mk ((reading.settle.opened.map reading.settle.frameOf).drop 1) _ _ _
  rw [List.map_drop]
  rfl

theorem Layered.leave (layered : reading.Layered) : reading.leave.Layered :=
  have settled := layered.settle
  ⟨settled.order.sublist (List.drop_sublist _ _),
    fun o mem => settled.inside o (List.mem_of_mem_drop mem),
    fun o mem => settled.unbound o (List.mem_of_mem_drop mem)⟩

/-- A scope that others have begun inside of is none of these. -/
theorem Layered.other {inner outer : List OpenScope} {o : OpenScope} (layered : reading.Layered)
    (opened : reading.opened = inner ++ o :: outer) :
    (∀ p ∈ inner, p.scope ≠ o.scope) ∧ ∀ p ∈ outer, p.scope ≠ o.scope := by
  have order := layered.order
  rw [opened, List.pairwise_append, List.pairwise_cons] at order
  exact ⟨fun p mem => Nat.ne_of_gt (order.2.2 p mem o List.mem_cons_self),
    fun p mem => Nat.ne_of_lt (order.2.1.1 p mem)⟩

/-- The frames are those of the open scopes. -/
theorem frames_of_opened {inner outer : List OpenScope} {o : OpenScope}
    (opened : reading.opened = inner ++ o :: outer) :
    reading.view.frames =
      inner.map reading.frameOf ++ reading.frameOf o :: outer.map reading.frameOf := by
  rw [← List.map_cons, ← List.map_append, ← opened]
  rfl

/-- Only the frame of a scope that is updated changes. -/
theorem frames_updateScope (layered : reading.Layered) {inner outer : List OpenScope} {o : OpenScope}
    (opened : reading.opened = inner ++ o :: outer) {before after : List Frame} {frame : Frame}
    (frames : reading.view.frames = before ++ frame :: after) (length : before.length = inner.length)
    {f : ScopeEntry → ScopeEntry} {g : Frame → Frame}
    (agree : ∀ entry pending, (f entry).frame pending = g (entry.frame pending)) :
    (reading.updateScope o.scope f).view.frames = before ++ g frame :: after := by
  rw [frames_of_opened opened] at frames
  obtain ⟨rfl, same⟩ := List.append_inj frames (by rw [List.length_map, length])
  obtain ⟨rfl, rfl⟩ := List.cons.inj same
  obtain ⟨others, others'⟩ := layered.other opened
  have here := frameOf_updateScope reading o.scope agree (layered.inside o (by simp [opened]))
  rw [if_pos rfl] at here
  show reading.opened.map (reading.updateScope o.scope f).frameOf = _
  rw [opened, List.map_append, List.map_cons, map_frameOf_updateScope _ _ others,
    map_frameOf_updateScope _ _ others', here]

/-- A new binding in a scope that is open. -/
theorem frames_declareNew (layered : reading.Layered) (name : Name) {inner outer : List OpenScope}
    {o : OpenScope} (opened : reading.opened = inner ++ o :: outer) :
    (reading.declareNew o.scope name).view.frames =
      inner.map reading.frameOf ++
        (reading.frameOf o).assign name.text reading.count :: outer.map reading.frameOf := by
  exact frames_updateScope layered opened (frames_of_opened opened) (List.length_map _)
    (f := fun entry => { entry with names := assignName name.text reading.count entry.names })
    (g := fun frame => frame.assign name.text reading.count) fun _ _ => rfl

/-- A declaration in a scope that is open. -/
theorem view_declareIn (layered : reading.Layered) (name : Name) {inner outer : List OpenScope}
    {o : OpenScope} (opened : reading.opened = inner ++ o :: outer) :
    (reading.declareIn o.scope name).view =
      let result := declareHere name.text reading.count ((o :: outer).map reading.frameOf)
      { reading.view with
        frames := inner.map reading.frameOf ++ result.frames
        count := result.count
        declared := reading.view.declared ++ [(name.span.start, result.binding)] } := by
  unfold declareIn
  rw [known?_eq]
  simp only [declareHere, List.map_cons]
  cases known : (reading.frameOf o).known? name.text with
  | some binding =>
    rw [view_record]
    simp [view, opened]
  | none =>
    have frames := frames_declareNew layered name opened
    have whole : (reading.declareNew o.scope name).view =
        { reading.view with
          frames := (reading.declareNew o.scope name).view.frames
          count := reading.count + 1
          declared := reading.view.declared ++ [(name.span.start, reading.count)] } := rfl
    rw [whole, frames]

/-- A name of a scope that is open moves to another one, further out. -/
theorem frames_moveName (layered : reading.Layered) (name : String)
    {inner between outer : List OpenScope} {o target : OpenScope} {binding : Nat}
    (opened : reading.opened = inner ++ o :: (between ++ target :: outer))
    (known : (reading.frameOf o).known? name = some binding) :
    (reading.moveName name o.scope target.scope).view.frames =
      inner.map reading.frameOf ++ (reading.frameOf o).remove name ::
        (between.map reading.frameOf ++ (if (lookup name (reading.frameOf o).names).isSome then
          (reading.frameOf target).assign name binding else reading.frameOf target) ::
            outer.map reading.frameOf) := by
  have named : ((reading.scope? o.scope).bind fun entry => lookup name entry.names) =
      lookup name (reading.frameOf o).names := bindingIn_eq reading o ⟨0, name, 0, false, none⟩
  unfold moveName
  rw [named]
  cases found : lookup name (reading.frameOf o).names with
  | none =>
    -- The name only passes through the scope, so nothing moves.
    have same : (reading.frameOf o).remove name = reading.frameOf o := by
      unfold Frame.remove
      have absent := lookup_eq_none_iff.mp found
      rw [List.filter_eq_self.mpr]
      intro e mem
      have other : e.1 ≠ name := fun same => absent (same ▸ List.mem_map_of_mem mem)
      simpa using other
    rw [same]
    simp [view, opened]
  | some binding' =>
    obtain rfl : binding' = binding := by
      unfold Frame.known? at known
      rw [found] at known
      exact Option.some.inj known
    -- The name goes from its scope, and then comes to the other one.
    have gone := frames_updateScope layered opened (frames_of_opened opened) (List.length_map _)
      (f := fun entry => { entry with names := entry.names.filter fun e => e.1 != name })
      (g := fun frame => frame.remove name) fun _ _ => rfl
    have shape := sameShape_updateScope reading o.scope
      (f := fun entry => { entry with names := entry.names.filter fun e => e.1 != name })
      fun _ => rfl
    have opened' : reading.opened = (inner ++ o :: between) ++ target :: outer := by
      rw [opened, List.append_assoc, List.cons_append]
    rw [List.map_append, List.map_cons, ← List.cons_append, ← List.append_assoc] at gone
    have there := frames_updateScope (layered.of_sameShape shape) opened' gone (by simp)
      (f := fun entry => { entry with names := assignName name binding' entry.names })
      (g := fun frame => frame.assign name binding') fun _ _ => rfl
    rw [Option.isSome_some, if_pos rfl, ← List.cons_append, ← List.append_assoc]
    exact there

/-- The open scopes up to the first one that holds variables. -/
theorem exists_way (well : reading.WellNested) (rooted : reading.Rooted) :
    ∃ way target outer, reading.opened = way ++ target :: outer ∧
      (∀ o ∈ way, (reading.frameOf o).holdsVars = false) ∧
      (reading.frameOf target).holdsVars = true ∧
      reading.variablePath = (way.map OpenScope.scope, target.scope) := by
  have holds (o : OpenScope) : (reading.frameOf o).holdsVars =
      ((reading.scope? o.scope).map ScopeEntry.holdsVars).getD true := by
    unfold frameOf
    cases reading.scope? o.scope <;> rfl
  let passed := fun o => !(reading.frameOf o).holdsVars
  have split := reading.opened.takeWhile_append_dropWhile (p := passed)
  have way : ∀ o ∈ reading.opened.takeWhile passed, (reading.frameOf o).holdsVars = false := by
    intro o mem
    have := List.mem_takeWhile_imp mem
    simpa [passed] using this
  cases rest : reading.opened.dropWhile passed with
  | nil =>
    -- The top scope is open, and holds variables.
    obtain ⟨entry, there, top, -⟩ := rooted.top
    obtain ⟨inner, chain, -⟩ := well.opened
    have mem : ScopeTree.root ∈ reading.opened.map OpenScope.scope := by
      rw [chain]
      simp
    obtain ⟨o, among, same⟩ := List.mem_map.mp mem
    have := List.dropWhile_eq_nil_iff.mp rest o among
    simp [passed, holds, same, there, top] at this
  | cons target outer =>
    rw [rest] at split
    have stops : (reading.frameOf target).holdsVars = true := by
      have := List.head_dropWhile_not passed (l := reading.opened) (by simp [rest])
      simpa [rest, passed] using this
    refine ⟨reading.opened.takeWhile passed, target, outer, split.symm, way, stops, ?_⟩
    unfold variablePath
    dsimp only
    rw [List.takeWhile_map, List.find?_map]
    congr 1
    · congr 2
      funext o
      simp [passed, holds]
    · have none : (reading.opened.takeWhile passed).find?
          ((fun i => ((reading.scope? i).map ScopeEntry.holdsVars).getD true) ∘
            OpenScope.scope) = none := by
        apply List.find?_eq_none.mpr
        intro o mem
        have := way o mem
        rw [holds] at this
        simp [this]
      have there : ((reading.scope? target.scope).map ScopeEntry.holdsVars).getD true = true :=
        (holds target).symm.trans stops
      rw [← split, List.find?_append, none, List.find?_cons_of_pos (by simpa using there)]
      rfl

/-- Only scopes change where a variable passes through them. -/
theorem passThrough_eq (reading : Reading) (name : String) (binding : Nat) (way : List Nat) :
    ∃ scopes, reading.passThrough name binding way =
      { reading with found := { reading.found with scopes := scopes } } := by
  unfold passThrough
  induction way generalizing reading with
  | nil => exact ⟨_, rfl⟩
  | cons i way ih =>
    obtain ⟨scopes, same⟩ := ih (reading.updateScope i fun entry =>
      { entry with passing := assignName name binding entry.passing })
    exact ⟨scopes, same⟩

/-- A variable passes through the innermost scopes. -/
theorem view_passThrough (layered : reading.Layered) (name : String) (binding : Nat)
    {way outer : List OpenScope} {inner others : List Frame}
    (opened : reading.opened = way ++ outer) (frames : reading.view.frames = inner ++ others)
    (length : inner.length = way.length) :
    (reading.passThrough name binding (way.map OpenScope.scope)).view =
      { reading.view with frames := inner.map (fun f => f.pass name binding) ++ others } := by
  have whole : way.map reading.frameOf ++ outer.map reading.frameOf = inner ++ others := by
    rw [← frames, ← List.map_append, ← opened]
    rfl
  obtain ⟨rfl, rfl⟩ := List.append_inj whole (by rw [List.length_map, length])
  have order := layered.order
  rw [opened, List.pairwise_append] at order
  have distinct : (way.map OpenScope.scope).Nodup :=
    (List.pairwise_map.mpr order.1).imp Nat.ne_of_gt
  have inside (o : OpenScope) (mem : o ∈ way ++ outer) := layered.inside o (opened ▸ mem)
  have passed : way.map (reading.passThrough name binding (way.map OpenScope.scope)).frameOf =
      (way.map reading.frameOf).map (fun f => f.pass name binding) := by
    rw [List.map_map]
    apply List.map_congr_left
    intro o mem
    rw [frameOf_passThrough name binding distinct (inside o (List.mem_append_left _ mem)),
      if_pos (List.mem_map_of_mem mem)]
    rfl
  have kept : outer.map (reading.passThrough name binding (way.map OpenScope.scope)).frameOf =
      outer.map reading.frameOf := by
    apply List.map_congr_left
    intro o mem
    rw [frameOf_passThrough name binding distinct (inside o (List.mem_append_right _ mem)), if_neg]
    intro among
    obtain ⟨p, mem', same⟩ := List.mem_map.mp among
    exact Nat.ne_of_gt (order.2.2 p mem' o mem) same
  obtain ⟨scopes, same⟩ := passThrough_eq reading name binding (way.map OpenScope.scope)
  have after : (reading.passThrough name binding (way.map OpenScope.scope)).view.frames =
      (way.map reading.frameOf).map (fun f => f.pass name binding) ++
        outer.map reading.frameOf := by
    have still : (reading.passThrough name binding (way.map OpenScope.scope)).opened =
        way ++ outer := by
      rw [same, ← opened]
    unfold view
    dsimp only
    rw [still, List.map_append, passed, kept]
  rw [← after, same]
  rfl

theorem view_moveName (reading : Reading) (name : String) (source target : Nat) :
    (reading.moveName name source target).view =
      { reading.view with frames := (reading.moveName name source target).view.frames } := by
  unfold moveName
  split <;> rfl

/-- The declaration of a variable, after which it passes through the scopes on the way. -/
theorem declareVariable_eq {name : Name} {way : List Nat} {target binding : Nat} {last : Nat}
    {others : List (Nat × Nat)} (path : reading.variablePath = (way, target))
    (recorded : (reading.declareThrough name way target).found.declarations =
      others ++ [(last, binding)]) :
    reading.declareVariable name =
      (reading.declareThrough name way target).passThrough name.text binding way := by
  unfold declareVariable
  simp only [path, recorded, List.getLast?_concat]

theorem view_declareVariable (layered : reading.Layered) (well : reading.WellNested)
    (rooted : reading.Rooted) (name : Name) :
    (reading.declareVariable name).view = reading.view.declare name hoist := by
  obtain ⟨way, target, outer, opened, inner, holds, path⟩ := exists_way well rooted
  have frames := frames_of_opened opened
  have inner' : ∀ f ∈ way.map reading.frameOf, f.holdsVars = false := by simpa using inner
  have shape := sameShape_declareThrough reading name (way.map OpenScope.scope) target.scope
  have layered' := layered.of_sameShape shape
  have opened' := shape.opened.trans opened
  unfold Stack.declare
  dsimp only
  rw [frames]
  cases first : way.find? fun o => (reading.known? name.text o.scope).isSome with
  | none =>
    have unknown : ∀ f ∈ way.map reading.frameOf, f.known? name.text = none := by
      simpa [known?_eq] using first
    have declared : reading.declareThrough name (way.map OpenScope.scope) target.scope =
        reading.declareIn target.scope name := by
      unfold declareThrough
      rw [List.find?_map]
      simp only [Function.comp_def, first, Option.map_none]
    have seen := view_declareIn layered name opened
    rw [← declared] at seen
    rw [declareVariable_eq path (congrArg Stack.declared seen),
      view_passThrough layered' name.text _ opened' (congrArg Stack.frames seen)
        (List.length_map _),
      seen, hoist_of_unknown inner' unknown holds]
    rfl
  | some o =>
    obtain ⟨known, before, between, rfl, unknown⟩ := List.find?_eq_some_iff_append.mp first
    rw [known?_eq] at known
    obtain ⟨binding, known⟩ := Option.isSome_iff_exists.mp known
    have unknown' : ∀ f ∈ before.map reading.frameOf, f.known? name.text = none := by
      simpa [known?_eq] using unknown
    have declared : reading.declareThrough name ((before ++ o :: between).map OpenScope.scope)
        target.scope =
          (reading.moveName name.text o.scope target.scope).record name.span.start binding := by
      unfold declareThrough
      rw [List.find?_map]
      simp only [Function.comp_def, first, Option.map_some]
      rw [known?_eq, known]
    rw [List.append_assoc, List.cons_append] at opened
    have moved := frames_moveName layered name.text opened known
    have seen := view_record (reading.moveName name.text o.scope target.scope) name.span.start
      binding
    rw [view_moveName, moved, ← declared] at seen
    rw [declareVariable_eq path (congrArg Stack.declared seen)]
    have frames' := congrArg Stack.frames seen
    have split : ∀ a b c : List Frame, ∀ f, a ++ f :: (b ++ c) = (a ++ f :: b) ++ c := by simp
    dsimp only at frames'
    rw [split] at frames'
    rw [List.map_append, List.map_cons] at inner'
    have hoisted := hoist_of_known reading.view.count (outer.map reading.frameOf)
      inner' unknown' known holds
    rw [view_passThrough layered' name.text _ opened' frames' (by simp), seen]
    simp only [List.map_append, List.map_cons, List.append_assoc, List.cons_append, hoisted]

/-- **One step of a reading** is one step on the stack. -/
theorem view_step (layered : reading.Layered) (well : reading.WellNested)
    (rooted : reading.Rooted) (occurrence : Occurrence) :
    (reading.step occurrence).view = reading.view.step occurrence := by
  cases occurrence with
  | enter holdsVars => exact view_enter layered holdsVars
  | leave => exact view_leave layered
  | settle => exact view_settle layered
  | refer offset name writes => exact view_refer reading offset name writes
  | word offset => rfl
  | declare rule name =>
    obtain ⟨o, outer, opened⟩ : ∃ o outer, reading.opened = o :: outer := by
      obtain ⟨inner, chain, -⟩ := well.opened
      cases opened : reading.opened with
      | nil => simp [opened] at chain
      | cons o outer => exact ⟨o, outer, rfl⟩
    have current : reading.current = o.scope := by
      unfold current
      rw [opened]
    have frames : reading.view.frames = (o :: outer).map reading.frameOf := by
      rw [← opened]
      rfl
    cases rule with
    | here =>
      have declared := view_declareIn layered name (show reading.opened = [] ++ o :: outer from opened)
      show (reading.declareIn reading.current name).view = reading.view.declare name declareHere
      rw [current, declared, Stack.declare, frames]
      rfl
    | hoisted => exact view_declareVariable layered well rooted name
    | shadowing =>
      have declared := frames_declareNew layered name
        (show reading.opened = [] ++ o :: outer from opened)
      show (reading.declareNew reading.current name).view =
        reading.view.declare name Scope.declareNew
      rw [current, Stack.declare, frames]
      show { reading.view with
        frames := (reading.declareNew o.scope name).view.frames
        count := reading.count + 1
        declared := reading.view.declared ++ [(name.span.start, reading.count)] } = _
      rw [declared]
      rfl

theorem Layered.step (layered : reading.Layered) (occurrence : Occurrence) :
    (reading.step occurrence).Layered := by
  cases occurrence with
  | enter holdsVars => exact layered.enter holdsVars
  | leave => exact layered.leave
  | settle => exact layered.settle
  | refer offset name writes => exact layered.refer offset name writes
  | word offset => exact ⟨layered.order, layered.inside, layered.unbound⟩
  | declare rule name =>
    cases rule with
    | here => exact layered.of_sameShape (sameShape_declareIn reading _ name)
    | hoisted => exact layered.of_sameShape (sameShape_declareVariable reading name)
    | shadowing => exact layered.of_sameShape (sameShape_declareNew reading _ name)

/-- **A run of a reading** is a run on the stack. -/
theorem view_foldl (occurrences : List Occurrence) (layered : reading.Layered)
    (rooted : reading.Rooted)
    (well : ∀ read, read <+: occurrences → (read.foldl Reading.step reading).WellNested) :
    (occurrences.foldl Reading.step reading).view = occurrences.foldl Stack.step reading.view ∧
      (occurrences.foldl Reading.step reading).Layered := by
  induction occurrences generalizing reading with
  | nil => exact ⟨rfl, layered⟩
  | cons occurrence others ih =>
    have here := view_step layered (well [] List.nil_prefix) rooted occurrence
    rw [List.foldl_cons, List.foldl_cons, ← here]
    exact ih (layered.step occurrence) (rooted.step occurrence).rooted fun read before =>
      well (occurrence :: read) (List.cons_prefix_cons.mpr ⟨rfl, before⟩)

end Reading

/-- The stack after all occurrences of a module, when nothing waits any more. -/
def Stack.ofOccurrences (occurrences : List Occurrence) : Stack :=
  (occurrences.foldl Stack.step .start).settle

/-- **The declarations and references of a module** are those that are found on the stack. -/
theorem view_ofOccurrences {occurrences : List Occurrence} (balanced : Balanced occurrences) :
    (Bindings.ofOccurrences occurrences).declarations =
        (Stack.ofOccurrences occurrences).declared ∧
      (Bindings.ofOccurrences occurrences).references.map
          (fun r => ((r.offset, r.name), r.binding)) =
        (Stack.ofOccurrences occurrences).resolved := by
  obtain ⟨run, layered⟩ := Reading.view_foldl occurrences Reading.layered_start
    Reading.rooted_start fun read before => Reading.wellNested_start.of_prefix balanced before
  rw [Reading.view_start] at run
  have settled := Reading.view_settle layered
  rw [run] at settled
  unfold Stack.ofOccurrences
  rw [← settled]
  exact ⟨rfl, rfl⟩

end ModuleInterop.Scope
