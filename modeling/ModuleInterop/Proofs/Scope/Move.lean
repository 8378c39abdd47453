import ModuleInterop.Proofs.Scope.Stack

/-!
# Bindings that move into a function

A run over the occurrences of a module is compared with a run over the occurrences of a function that
the module has been put into, where some variables of its top scope are left out.  Scopes inside the top
scope are the same in both, up to the numbers of bindings; the scope of the function has its parameters
in addition, and lacks what has been left out (`Move.Frames`).  Each step keeps this up (`Move.Hosts`),
and bindings that differ stay different (`Move.Numbers`).
-/

set_option autoImplicit false

namespace ModuleInterop.Scope

open ModuleInterop.Syntax

/-! ## What a declaration does to the stack -/

/-- The names that a scope knows, with their bindings. -/
def Frame.entries (frame : Frame) : List (String × Nat) := frame.names ++ frame.passing

section Entries

variable {frame : Frame} {name : String} {binding : Nat} {e : String × Nat}

theorem Frame.mem_entries_assign (mem : e ∈ (frame.assign name binding).entries) :
    e = (name, binding) ∨ e ∈ frame.entries := by
  rcases List.mem_append.mp mem with mem | mem
  · rcases mem_assignName mem with mem | rfl
    · exact .inr (List.mem_append_left _ mem)
    · exact .inl rfl
  · exact .inr (List.mem_append_right _ mem)

theorem Frame.mem_entries_pass (mem : e ∈ (frame.pass name binding).entries) :
    e = (name, binding) ∨ e ∈ frame.entries := by
  rcases List.mem_append.mp mem with mem | mem
  · exact .inr (List.mem_append_left _ mem)
  · rcases mem_assignName mem with mem | rfl
    · exact .inr (List.mem_append_right _ mem)
    · exact .inl rfl

theorem Frame.mem_entries_remove (mem : e ∈ (frame.remove name).entries) : e ∈ frame.entries := by
  rcases List.mem_append.mp mem with mem | mem
  · exact List.mem_append_left _ (List.mem_filter.mp mem).1
  · exact List.mem_append_right _ mem

theorem Frame.mem_entries_of_known? (known : frame.known? name = some binding) :
    (name, binding) ∈ frame.entries := by
  rcases Option.or_eq_some_iff.mp known with own | ⟨-, passing⟩
  · exact List.mem_append_left _ (mem_of_lookup own)
  · exact List.mem_append_right _ (mem_of_lookup passing)

end Entries

/-- What a declaration does: its binding is new, or one that a scope knows by the name; and scopes get
no other entries. -/
structure Declares (name : String) (count : Nat) (frames : List Frame) (result : Declaring) :
    Prop where
  binding : result.count = count ∧ (∃ f ∈ frames, (name, result.binding) ∈ f.entries) ∨
    result.count = count + 1 ∧ result.binding = count
  entries : ∀ f ∈ result.frames, ∀ e ∈ f.entries,
    e = (name, result.binding) ∨ ∃ g ∈ frames, e ∈ g.entries

section Declaring

variable {name : String} {count binding : Nat} {frames : List Frame}

theorem declares_declareNew (name : String) (count : Nat) (frames : List Frame) :
    Declares name count frames (declareNew name count frames) := by
  cases frames with
  | nil => exact ⟨.inr ⟨rfl, rfl⟩, nofun⟩
  | cons frame others =>
    refine ⟨.inr ⟨rfl, rfl⟩, List.forall_mem_cons.mpr ⟨fun e mem => ?_, fun f mem e mem' => ?_⟩⟩
    · exact (Frame.mem_entries_assign mem).imp_right fun mem => ⟨frame, List.mem_cons_self, mem⟩
    · exact .inr ⟨f, List.mem_cons_of_mem _ mem, mem'⟩

theorem declares_declareHere (name : String) (count : Nat) (frames : List Frame) :
    Declares name count frames (declareHere name count frames) := by
  cases frames with
  | nil => exact ⟨.inr ⟨rfl, rfl⟩, nofun⟩
  | cons frame others =>
    dsimp only [declareHere]
    split
    · rename_i binding known
      exact ⟨.inl ⟨rfl, frame, List.mem_cons_self, Frame.mem_entries_of_known? known⟩,
        fun f mem e mem' => .inr ⟨f, mem, mem'⟩⟩
    · exact declares_declareNew name count (frame :: others)

theorem mem_entries_carry {moves : Bool} {f : Frame} {e : String × Nat}
    (mem : f ∈ carry name binding moves frames) (mem' : e ∈ f.entries) :
    e = (name, binding) ∨ ∃ g ∈ frames, e ∈ g.entries := by
  induction frames with
  | nil => contradiction
  | cons frame others ih =>
    unfold carry at mem
    split at mem
    · rcases List.mem_cons.mp mem with rfl | mem
      · split at mem'
        · exact (Frame.mem_entries_assign mem').imp_right fun mem => ⟨_, List.mem_cons_self, mem⟩
        · exact .inr ⟨_, List.mem_cons_self, mem'⟩
      · exact .inr ⟨f, List.mem_cons_of_mem _ mem, mem'⟩
    · rcases List.mem_cons.mp mem with rfl | mem
      · exact (Frame.mem_entries_pass mem').imp_right fun mem => ⟨_, List.mem_cons_self, mem⟩
      · refine (ih mem).imp_right ?_
        rintro ⟨g, mem, mem'⟩
        exact ⟨g, List.mem_cons_of_mem _ mem, mem'⟩

theorem declares_hoist (name : String) (count : Nat) (frames : List Frame) :
    Declares name count frames (hoist name count frames) := by
  induction frames with
  | nil => exact ⟨.inr ⟨rfl, rfl⟩, nofun⟩
  | cons frame others ih =>
    have later {e : String × Nat} {b : Nat} (h : e = (name, b) ∨ ∃ g ∈ others, e ∈ g.entries) :
        e = (name, b) ∨ ∃ g ∈ frame :: others, e ∈ g.entries :=
      h.imp_right fun ⟨g, mem, mem'⟩ => ⟨g, List.mem_cons_of_mem _ mem, mem'⟩
    unfold hoist
    split
    · exact declares_declareHere name count (frame :: others)
    · split
      · rename_i binding known
        have here := Frame.mem_entries_of_known? known
        refine ⟨.inl ⟨rfl, frame, List.mem_cons_self, here⟩,
          List.forall_mem_cons.mpr ⟨fun e mem => ?_, fun f mem e mem' => ?_⟩⟩
        · exact (Frame.mem_entries_pass mem).imp_right fun mem =>
            ⟨frame, List.mem_cons_self, Frame.mem_entries_remove mem⟩
        · exact later (mem_entries_carry mem mem')
      · obtain ⟨binding, entries⟩ := ih
        refine ⟨binding.imp_left ?_, List.forall_mem_cons.mpr ⟨fun e mem => ?_, ?_⟩⟩
        · exact fun ⟨same, f, mem, known⟩ => ⟨same, f, List.mem_cons_of_mem _ mem, known⟩
        · exact (Frame.mem_entries_pass mem).imp_right fun mem => ⟨frame, List.mem_cons_self, mem⟩
        · exact fun f mem e mem' => later (entries f mem e mem')

theorem declares_declaring (rule : DeclarationRule) (name : String) (count : Nat)
    (frames : List Frame) : Declares name count frames (rule.declaring name count frames) := by
  cases rule with
  | here => exact declares_declareHere name count frames
  | hoisted => exact declares_hoist name count frames
  | shadowing => exact declares_declareNew name count frames

end Declaring

namespace Stack

/-- The name at a position of a declaration is given by `text`: a binding that a scope knows has been
declared by that name, and so has one that a reference has found.  Bindings are numbered. -/
structure Sound (text : Nat → String) (stack : Stack) : Prop where
  known : ∀ f ∈ stack.frames, ∀ e ∈ f.entries, ∃ d ∈ stack.declared, d.2 = e.2 ∧ text d.1 = e.1
  found : ∀ e ∈ stack.resolved, ∀ binding, e.2 = some binding →
    ∃ d ∈ stack.declared, d.2 = binding ∧ text d.1 = e.1.2
  below : ∀ d ∈ stack.declared, d.2 < stack.count

variable {stack : Stack} {text : Nat → String}

theorem sound_start (text : Nat → String) : start.Sound text where
  known := by simp [start, Frame.new, Frame.entries]
  found := nofun
  below := by simp [start]

/-- Other references wait, or other scopes are open that know no more. -/
theorem Sound.of_entries {after : Stack} (sound : stack.Sound text)
    (declared : after.declared = stack.declared) (count : after.count = stack.count)
    (resolved : ∀ e ∈ after.resolved, e ∈ stack.resolved ∨ e.2 = none ∨
      ∃ f ∈ stack.frames, e ∈ f.found)
    (frames : ∀ f ∈ after.frames, f.entries = [] ∨ ∃ g ∈ stack.frames, f.entries = g.entries) :
    after.Sound text where
  known := by
    intro f mem e mem'
    rw [declared]
    rcases frames f mem with none | ⟨g, mem, same⟩
    · rw [none] at mem'
      contradiction
    · exact sound.known g mem e (same ▸ mem')
  found := by
    intro e mem binding bound
    rw [declared]
    rcases resolved e mem with mem | none | ⟨f, among, found⟩
    · exact sound.found e mem binding bound
    · rw [none] at bound
      contradiction
    · obtain ⟨r, -, here⟩ := List.mem_filterMap.mp found
      obtain ⟨binding', looked, rfl⟩ := Option.map_eq_some_iff.mp here
      obtain rfl := Option.some.inj bound
      exact sound.known f among _ (List.mem_append_left _ (mem_of_lookup looked))
  below := by
    rw [declared, count]
    exact sound.below

theorem Sound.declare (sound : stack.Sound text) {name : Name} (rule : DeclarationRule)
    (named : text name.span.start = name.text) : (stack.declare name rule.declaring).Sound text := by
  obtain ⟨binding, entries⟩ := declares_declaring rule name.text stack.count stack.frames
  constructor
  · intro f mem e mem'
    rcases entries f mem e mem' with rfl | ⟨g, mem, mem'⟩
    · exact ⟨_, List.mem_append_right _ (List.mem_singleton_self _), rfl, named⟩
    · obtain ⟨d, declared, same⟩ := sound.known g mem e mem'
      exact ⟨d, List.mem_append_left _ declared, same⟩
  · intro e mem b bound
    obtain ⟨d, declared, same⟩ := sound.found e mem b bound
    exact ⟨d, List.mem_append_left _ declared, same⟩
  · intro d mem
    show d.2 < (rule.declaring name.text stack.count stack.frames).count
    rcases List.mem_append.mp mem with mem | mem
    · have := sound.below d mem
      rcases binding with ⟨count, -⟩ | ⟨count, -⟩ <;> omega
    · rw [List.mem_singleton.mp mem]
      rcases binding with ⟨count, f, mem, known⟩ | ⟨count, same⟩
      · obtain ⟨d, declared, same, -⟩ := sound.known f mem _ known
        have := sound.below d declared
        dsimp only at same ⊢
        omega
      · dsimp only
        omega

theorem Sound.settle (sound : stack.Sound text) : stack.settle.Sound text := by
  unfold Stack.settle
  split
  · exact sound
  · rename_i inner frames
    refine sound.of_entries rfl rfl (fun e mem => ?_) fun f mem => .inr ?_
    · rcases List.mem_append.mp mem with mem | mem
      · exact .inl mem
      rcases List.mem_append.mp mem with mem | mem
      · exact .inr (.inr ⟨inner, frames ▸ List.mem_cons_self, mem⟩)
      · obtain ⟨r, -, rfl⟩ := List.mem_map.mp mem
        exact .inr (.inl rfl)
    · rw [List.mem_singleton.mp mem, frames]
      exact ⟨inner, List.mem_cons_self, rfl⟩
  · rename_i inner next others frames
    refine sound.of_entries rfl rfl (fun e mem => ?_) fun f mem => .inr ?_
    · rcases List.mem_append.mp mem with mem | mem
      · exact .inl mem
      · exact .inr (.inr ⟨inner, frames ▸ List.mem_cons_self, mem⟩)
    · rw [frames]
      rcases List.mem_cons.mp mem with rfl | mem
      · exact ⟨inner, List.mem_cons_self, rfl⟩
      · rcases List.mem_cons.mp mem with rfl | mem
        · exact ⟨next, List.mem_cons_of_mem _ List.mem_cons_self, rfl⟩
        · exact ⟨f, List.mem_cons_of_mem _ (List.mem_cons_of_mem _ mem), rfl⟩

theorem Sound.step (sound : stack.Sound text) {occurrence : Occurrence}
    (named : ∀ rule name, occurrence = .declare rule name → text name.span.start = name.text) :
    (stack.step occurrence).Sound text := by
  cases occurrence with
  | enter holdsVars =>
    refine sound.of_entries rfl rfl (fun e mem => .inl mem) fun f mem => ?_
    rcases List.mem_cons.mp mem with rfl | mem
    · exact .inl rfl
    · exact .inr ⟨f, mem, rfl⟩
  | leave =>
    exact sound.settle.of_entries rfl rfl (fun e mem => .inl mem) fun f mem =>
      .inr ⟨f, List.mem_of_mem_drop mem, rfl⟩
  | settle => exact sound.settle
  | declare rule name => exact sound.declare rule (named rule name rfl)
  | refer offset name writes =>
    show (stack.refer offset name).Sound text
    unfold refer
    split
    · exact sound
    · rename_i inner outer frames
      refine sound.of_entries rfl rfl (fun e mem => .inl mem) fun f mem => .inr ?_
      rw [frames]
      rcases List.mem_cons.mp mem with rfl | mem
      · exact ⟨inner, List.mem_cons_self, rfl⟩
      · exact ⟨f, List.mem_cons_of_mem _ mem, rfl⟩
  | word offset => exact sound

theorem Sound.foldl (sound : stack.Sound text) {occurrences : List Occurrence}
    (named : ∀ rule name, .declare rule name ∈ occurrences → text name.span.start = name.text) :
    (occurrences.foldl Stack.step stack).Sound text := by
  induction occurrences generalizing stack with
  | nil => exact sound
  | cons occurrence others ih =>
    refine ih (sound.step ?_) fun rule name mem => named rule name (List.mem_cons_of_mem _ mem)
    rintro rule name rfl
    exact named rule name List.mem_cons_self

theorem settle_of_single {inner : Frame} (alone : stack.frames = [inner]) :
    stack.settle = { stack with
      frames := [inner.clear]
      resolved := stack.resolved ++ (inner.found ++ inner.left.map fun r => (r, none)) } := by
  unfold settle
  rw [alone]

theorem declared_settle (stack : Stack) : stack.settle.declared = stack.declared := by
  unfold settle
  split <;> rfl

theorem count_settle (stack : Stack) : stack.settle.count = stack.count := by
  unfold settle
  split <;> rfl

theorem declared_refer (stack : Stack) (offset : Nat) (name : String) :
    (stack.refer offset name).declared = stack.declared := by
  unfold refer
  split <;> rfl

theorem count_refer (stack : Stack) (offset : Nat) (name : String) :
    (stack.refer offset name).count = stack.count := by
  unfold refer
  split <;> rfl

/-- Declarations stay. -/
theorem declared_step (stack : Stack) (occurrence : Occurrence) :
    stack.declared <+: (stack.step occurrence).declared := by
  cases occurrence with
  | enter | word => exact List.prefix_rfl
  | leave | settle => exact (declared_settle stack).symm ▸ List.prefix_rfl
  | declare rule name => exact List.prefix_append _ _
  | refer offset name writes => exact (declared_refer stack offset name).symm ▸ List.prefix_rfl

theorem declared_foldl (stack : Stack) (occurrences : List Occurrence) :
    stack.declared <+: (occurrences.foldl step stack).declared := by
  induction occurrences generalizing stack with
  | nil => exact List.prefix_rfl
  | cons occurrence others ih => exact (declared_step stack occurrence).trans (ih _)

/-- What has been declared on the way is declared in the end. -/
theorem declared_ofOccurrences (read rest : List Occurrence) :
    (read.foldl step start).declared <+: (ofOccurrences (read ++ rest)).declared := by
  unfold ofOccurrences
  rw [declared_settle, List.foldl_append]
  exact declared_foldl _ rest

end Stack

/-! ## Scopes inside the function -/

theorem lookup_assignName (other name : String) (binding : Nat) (entries : List (String × Nat)) :
    lookup other (assignName name binding entries) =
      if other = name then some binding else lookup other entries := by
  have kept : (entries.filter fun e => e.1 != name).find? (fun e => e.1 == other) =
      if other = name then none else entries.find? fun e => e.1 == other := by
    induction entries with
    | nil => simp
    | cons e entries ih => grind
  unfold lookup assignName
  rw [List.find?_append, kept]
  by_cases same : other = name
  · simp [same]
  · simp [same, Ne.symm same]

/-- The names that the outermost of some scopes declares. -/
def rootNames (frames : List Frame) : List String :=
  match frames.getLast? with
  | some frame => frame.names.map Prod.fst
  | none => []

/-- How the bindings of a module become bindings in a function around it: the positions and the
bindings that go, what the others become, and the parameters of the function. -/
structure Move where
  gone : Nat → Bool
  goes : Nat → Bool
  becomes : Nat → Nat
  parameters : List (String × Nat)

namespace Move

variable {m : Move} {name : String} {count count' binding : Nat} {f g : Frame}
  {frames frames' others : List Frame}

/-- Names with what their bindings become. -/
def image (m : Move) (entries : List (String × Nat)) : List (String × Nat) :=
  entries.map fun e => (e.1, m.becomes e.2)

/-- What a name with a binding in the top scope, or without one, is bound to in the function. -/
def target? (m : Move) (name : String) : Option Nat → Option Nat
  | some binding => if m.goes binding then lookup name m.parameters else some (m.becomes binding)
  | none => lookup name m.parameters

theorem lookup_image (name : String) (entries : List (String × Nat)) :
    lookup name (m.image entries) = (lookup name entries).map m.becomes := by
  unfold lookup image
  rw [List.find?_map, Option.map_map, Option.map_map]
  rfl

theorem image_assignName (name : String) (binding : Nat) (entries : List (String × Nat)) :
    m.image (assignName name binding entries) =
      assignName name (m.becomes binding) (m.image entries) := by
  unfold image assignName
  rw [List.map_append, List.filter_map]
  rfl

/-- A scope inside the top scope is the same in the function. -/
structure Inner (m : Move) (f g : Frame) : Prop where
  holdsVars : g.holdsVars = f.holdsVars
  names : g.names = m.image f.names
  passing : g.passing = m.image f.passing
  pending : ∀ r ∈ f.pending, m.gone r.1 = false → r ∈ g.pending
  stay : ∀ e ∈ f.names, m.goes e.2 = false

/-- The top scope is in the scope of the function. -/
structure Outer (m : Move) (f g : Frame) : Prop where
  holdsVars : f.holdsVars = true ∧ g.holdsVars = true
  passing : f.passing = [] ∧ g.passing = []
  names : ∀ name, lookup name g.names = m.target? name (lookup name f.names)
  pending : ∀ r ∈ f.pending, m.gone r.1 = false → r ∈ g.pending

/-- Open scopes are the same in the function, around which others are open. -/
inductive Frames (m : Move) (others : List Frame) : List Frame → List Frame → Prop
  | top {f g : Frame} : m.Outer f g → Frames m others [f] (g :: others)
  | inner {f g : Frame} {frames frames' : List Frame} : m.Inner f g →
    Frames m others frames frames' → Frames m others (f :: frames) (g :: frames')

theorem Inner.known? (inner : m.Inner f g) (name : String) :
    g.known? name = (f.known? name).map m.becomes := by
  unfold Frame.known?
  rw [inner.names, inner.passing, lookup_image, lookup_image]
  cases lookup name f.names <;> rfl

theorem Inner.assign (inner : m.Inner f g) (name : String) (stays : m.goes binding = false) :
    m.Inner (f.assign name binding) (g.assign name (m.becomes binding)) where
  holdsVars := inner.holdsVars
  names := by
    show assignName _ _ g.names = _
    rw [inner.names, ← image_assignName]
    rfl
  passing := inner.passing
  pending := inner.pending
  stay := by
    intro e mem
    rcases mem_assignName mem with mem | rfl
    · exact inner.stay e mem
    · exact stays

theorem Inner.pass (inner : m.Inner f g) (name : String) (binding : Nat) :
    m.Inner (f.pass name binding) (g.pass name (m.becomes binding)) where
  holdsVars := inner.holdsVars
  names := inner.names
  passing := by
    show assignName _ _ g.passing = _
    rw [inner.passing, ← image_assignName]
    rfl
  pending := inner.pending
  stay := inner.stay

theorem Inner.remove (inner : m.Inner f g) (name : String) :
    m.Inner (f.remove name) (g.remove name) where
  holdsVars := inner.holdsVars
  names := by
    show g.names.filter _ = _
    rw [inner.names]
    unfold image
    rw [List.filter_map]
    rfl
  passing := inner.passing
  pending := inner.pending
  stay := fun e mem => inner.stay e (List.mem_filter.mp mem).1

theorem Outer.assign (outer : m.Outer f g) (name : String) (stays : m.goes binding = false) :
    m.Outer (f.assign name binding) (g.assign name (m.becomes binding)) where
  holdsVars := outer.holdsVars
  passing := outer.passing
  names := by
    intro other
    show lookup other (assignName _ _ _) = m.target? other (lookup other (assignName _ _ _))
    rw [lookup_assignName, lookup_assignName]
    split
    · simp [target?, stays]
    · exact outer.names other
  pending := outer.pending

/-- Other references wait. -/
theorem Inner.withPending (inner : m.Inner f g) {pending pending' : List (Nat × String)}
    (stays : ∀ r ∈ pending, m.gone r.1 = false → r ∈ pending') :
    m.Inner { f with pending := pending } { g with pending := pending' } :=
  ⟨inner.holdsVars, inner.names, inner.passing, stays, inner.stay⟩

theorem Outer.withPending (outer : m.Outer f g) {pending pending' : List (Nat × String)}
    (stays : ∀ r ∈ pending, m.gone r.1 = false → r ∈ pending') :
    m.Outer { f with pending := pending } { g with pending := pending' } :=
  ⟨outer.holdsVars, outer.passing, outer.names, stays⟩

/-- More references wait in the innermost scope. -/
theorem Frames.wait {more more' : List (Nat × String)}
    (matched : m.Frames others (f :: frames) (g :: frames'))
    (stays : ∀ r ∈ more, m.gone r.1 = false → r ∈ more') :
    m.Frames others (f.wait more :: frames) (g.wait more' :: frames') := by
  have both {pending pending' : List (Nat × String)}
      (before : ∀ r ∈ pending, m.gone r.1 = false → r ∈ pending') :
      ∀ r ∈ pending ++ more, m.gone r.1 = false → r ∈ pending' ++ more' := by
    intro r mem kept
    rcases List.mem_append.mp mem with mem | mem
    · exact List.mem_append_left _ (before r mem kept)
    · exact List.mem_append_right _ (stays r mem kept)
  cases matched with
  | top outer => exact .top (outer.withPending (both outer.pending))
  | inner inner matched => exact .inner (inner.withPending (both inner.pending)) matched

/-- There is an innermost scope. -/
theorem Frames.exists_cons (matched : m.Frames others frames frames') :
    ∃ f fs g gs, frames = f :: fs ∧ frames' = g :: gs := by
  cases matched <;> exact ⟨_, _, _, _, rfl, rfl⟩

/-- How a declaration counts in the module and in the function: a name that is new in both, in
neither, or that is a parameter of the function. -/
inductive Counts (m : Move) (name : String) (count count' : Nat) (frames : List Frame)
    (result result' : Declaring) : Prop
  | known : result.count = count → result'.count = count' → Counts m name count count' frames _ _
  | new : result.binding = count → result'.binding = count' → result'.count = count' + 1 →
    Counts m name count count' frames _ _
  | parameter : result.binding = count → lookup name m.parameters = some result'.binding →
    result'.count = count' → name ∉ rootNames frames → name ∈ rootNames result.frames →
    Counts m name count count' frames _ _

/-- What a declaration does in the function: it is the same, where the binding that results is the one
that the other becomes. -/
structure Matches (m : Move) (others : List Frame) (name : String) (count count' : Nat)
    (frames : List Frame) (result result' : Declaring) : Prop where
  hosted : m.Frames others result.frames result'.frames
  binding : result'.binding = m.becomes result.binding
  counts : m.Counts name count count' frames result result'

theorem Frames.declareNew (matched : m.Frames others frames frames')
    (stays : m.goes count = false) (becomes : m.becomes count = count') :
    m.Matches others name count count' frames (declareNew name count frames)
      (declareNew name count' frames') := by
  subst becomes
  cases matched with
  | top outer => exact ⟨.top (outer.assign name stays), rfl, .new rfl rfl rfl⟩
  | inner inner matched => exact ⟨.inner (inner.assign name stays) matched, rfl, .new rfl rfl rfl⟩

/-- A declaration in the innermost scope. -/
theorem Frames.declareHere (matched : m.Frames others frames frames')
    (stays : m.goes (declareHere name count frames).binding = false)
    (new : (declareHere name count frames).binding = count →
      m.becomes count = (declareHere name count' frames').binding) :
    m.Matches others name count count' frames (declareHere name count frames)
      (declareHere name count' frames') := by
  cases matched with
  | @top f g outer =>
    have known : f.known? name = lookup name f.names := by
      unfold Frame.known?
      rw [outer.passing.1]
      exact Option.or_none
    have known' : g.known? name = m.target? name (lookup name f.names) := by
      unfold Frame.known?
      rw [outer.passing.2, outer.names]
      exact Option.or_none
    simp only [Scope.declareHere, known, known'] at stays new ⊢
    cases found : lookup name f.names with
    | some binding =>
      simp only [found, target?] at stays ⊢
      rw [stays]
      exact ⟨.top outer, rfl, .known rfl rfl⟩
    | none =>
      simp only [found, target?, true_implies] at stays new ⊢
      have assigned := outer.assign name stays
      cases parameter : lookup name m.parameters with
      | none =>
        simp only [parameter] at new ⊢
        rw [new] at assigned
        exact ⟨.top assigned, new.symm, .new rfl rfl rfl⟩
      | some binding =>
        -- The function has the name already, as a parameter.
        simp only [parameter] at new ⊢
        refine ⟨.top { assigned with names := fun other => ?_ }, new.symm,
          .parameter rfl parameter rfl (lookup_eq_none_iff.mp found)
            (mem_map_assignName.mpr (.inl rfl))⟩
        rw [← assigned.names]
        show _ = lookup other (assignName _ _ _)
        rw [lookup_assignName]
        split
        · rename_i same
          rw [same, outer.names, found, new]
          exact parameter
        · rfl
  | @inner f g frames frames' inner matched =>
    simp only [Scope.declareHere, inner.known?] at stays new ⊢
    cases known : f.known? name with
    | some binding =>
      simp only [known, Option.map_some] at stays ⊢
      exact ⟨.inner inner matched, rfl, .known rfl rfl⟩
    | none =>
      simp only [known, Option.map_none, true_implies] at stays new ⊢
      have assigned := inner.assign name stays
      rw [new] at assigned
      exact ⟨.inner assigned matched, new.symm, .new rfl rfl rfl⟩

theorem Frames.carry (matched : m.Frames others frames frames') (moves : Bool)
    (stays : m.goes binding = false) :
    m.Frames others (carry name binding moves frames)
      (carry name (m.becomes binding) moves frames') := by
  induction matched with
  | top outer =>
    unfold Scope.carry
    rw [if_pos outer.holdsVars.1, if_pos outer.holdsVars.2]
    cases moves with
    | true => exact .top (outer.assign name stays)
    | false => exact .top outer
  | inner inner matched ih =>
    unfold Scope.carry
    rw [inner.holdsVars]
    split
    · cases moves with
      | true => exact .inner (inner.assign name stays) matched
      | false => exact .inner inner matched
    · exact .inner (inner.pass name binding) ih

theorem Frames.rootNames_cons (matched : m.Frames others frames frames') (f : Frame) :
    rootNames (f :: frames) = rootNames frames := by
  cases matched <;> simp [rootNames, List.getLast?_cons_cons]

/-- The declaration of a variable. -/
theorem Frames.hoist (matched : m.Frames others frames frames')
    (stays : m.goes (hoist name count frames).binding = false)
    (new : (hoist name count frames).binding = count →
      m.becomes count = (hoist name count' frames').binding) :
    m.Matches others name count count' frames (hoist name count frames)
      (hoist name count' frames') := by
  induction matched with
  | @top f g outer =>
    simp only [Scope.hoist, outer.holdsVars, if_true] at stays new ⊢
    exact (Frames.top outer).declareHere stays new
  | @inner f g frames frames' inner matched ih =>
    cases holds : f.holdsVars with
    | true =>
      simp only [Scope.hoist, inner.holdsVars, holds, if_true] at stays new ⊢
      exact (Frames.inner inner matched).declareHere stays new
    | false =>
      simp only [Scope.hoist, inner.holdsVars, holds, Bool.false_eq_true, if_false,
        inner.known?] at stays new ⊢
      cases known : f.known? name with
      | some binding =>
        simp only [known, Option.map_some] at stays ⊢
        have named : (lookup name g.names).isSome = (lookup name f.names).isSome := by
          rw [inner.names, lookup_image, Option.isSome_map]
        rw [named]
        exact ⟨.inner ((inner.remove name).pass name binding) (matched.carry _ stays), rfl,
          .known rfl rfl⟩
      | none =>
        simp only [known, Option.map_none] at stays new ⊢
        obtain ⟨hoisted, same, counts⟩ := ih stays new
        have passed := inner.pass name (Scope.hoist name count frames).binding
        rw [← same] at passed
        refine ⟨.inner passed hoisted, same, ?_⟩
        cases counts with
        | known => exact .known ‹_› ‹_›
        | new => exact .new ‹_› ‹_› ‹_›
        | parameter _ _ _ absent present =>
          refine .parameter ‹_› ‹_› ‹_› ?_ ?_
          · rwa [matched.rootNames_cons]
          · rwa [hoisted.rootNames_cons]

/-- A declaration by a rule. -/
theorem Frames.declaring (matched : m.Frames others frames frames') (rule : DeclarationRule)
    (stays : m.goes (rule.declaring name count frames).binding = false)
    (new : (rule.declaring name count frames).binding = count →
      m.becomes count = (rule.declaring name count' frames').binding) :
    m.Matches others name count count' frames (rule.declaring name count frames)
      (rule.declaring name count' frames') := by
  cases rule with
  | here => exact matched.declareHere stays new
  | hoisted => exact matched.hoist stays new
  | shadowing =>
    have newest (frames : List Frame) (count : Nat) :
        (Scope.declareNew name count frames).binding = count := by
      cases frames <;> rfl
    simp only [DeclarationRule.declaring, newest, true_implies] at stays new ⊢
    exact matched.declareNew stays new

/-- A reference with some binding in the module, or none, has its binding in the function, or waits in
the scope around the function. -/
def Answers (m : Move) (resolved : List ((Nat × String) × Option Nat)) (waiting : List (Nat × String))
    (e : (Nat × String) × Option Nat) : Prop :=
  match m.target? e.1.2 e.2 with
  | some binding => (e.1, some binding) ∈ resolved
  | none => e.1 ∈ waiting

theorem Answers.mono {resolved resolved' : List ((Nat × String) × Option Nat)}
    {waiting waiting' : List (Nat × String)} {e : (Nat × String) × Option Nat}
    (answers : m.Answers resolved waiting e) (more : resolved ⊆ resolved')
    (more' : waiting ⊆ waiting') : m.Answers resolved' waiting' e := by
  unfold Answers at answers ⊢
  split at answers
  · exact more answers
  · exact more' answers

/-- What a run over a module and a run over the function around it have in common; `top` is the scope
around the function. -/
structure Hosts (m : Move) (stack stack' : Stack) (top : Frame) : Prop where
  frames : m.Frames [top] stack.frames stack'.frames
  declared : ∀ d ∈ stack.declared, m.gone d.1 = false → (d.1, m.becomes d.2) ∈ stack'.declared
  resolved : ∀ e ∈ stack.resolved, m.gone e.1.1 = false → m.Answers stack'.resolved top.pending e

namespace Hosts

variable {stack stack' : Stack} {top : Frame}

theorem enter (hosts : m.Hosts stack stack' top) (holdsVars : Bool) :
    m.Hosts (stack.step (.enter holdsVars)) (stack'.step (.enter holdsVars)) top where
  frames := .inner ⟨rfl, rfl, rfl, nofun, nofun⟩ hosts.frames
  declared := hosts.declared
  resolved := hosts.resolved

/-- A reference that is read, in the module alone if it goes. -/
theorem refer (hosts : m.Hosts stack stack' top) (offset : Nat) (name : String) :
    m.Hosts (stack.refer offset name)
      (if m.gone offset then stack' else stack'.refer offset name) top := by
  obtain ⟨matched, declared, resolved⟩ := hosts
  obtain ⟨f, fs, g, gs, same, same'⟩ := matched.exists_cons
  rw [same, same'] at matched
  simp only [Stack.refer, same, same']
  cases gone : m.gone offset with
  | true =>
    have nothing : g.wait [] = g := by simp [Frame.wait]
    have waits := matched.wait (show ∀ r ∈ [(offset, name)], m.gone r.1 = false → r ∈ [] from fun r mem kept => by
      rw [List.mem_singleton.mp mem, gone] at kept
      contradiction)
    rw [nothing, ← same'] at waits
    exact ⟨waits, declared, resolved⟩
  | false => exact ⟨matched.wait fun r mem _ => mem, declared, resolved⟩

/-- A scope's references are resolved.  What the top scope does not resolve waits around the
function. -/
theorem settle (hosts : m.Hosts stack stack' top) :
    ∃ waiting, m.Hosts stack.settle stack'.settle { top with pending := waiting } := by
  obtain ⟨matched, declared, resolved⟩ := hosts
  unfold Stack.settle
  generalize same : stack.frames = frames, same' : stack'.frames = frames' at matched ⊢
  cases matched with
  | @top f g outer =>
    -- A reference that waits in the top scope waits in the function, which knows the name as well.
    have answers (r : Nat × String) (mem : r ∈ f.pending) (kept : m.gone r.1 = false) :
        m.Answers (stack'.resolved ++ g.found) (top.pending ++ g.left)
          (r, lookup r.2 f.names) := by
      have waits := outer.pending r mem kept
      have known := outer.names r.2
      unfold Answers
      dsimp only
      rw [← known]
      split
      · rename_i binding found
        exact List.mem_append_right _ (List.mem_filterMap.mpr ⟨r, waits, by rw [found]; rfl⟩)
      · rename_i none
        exact List.mem_append_right _ (List.mem_filter.mpr ⟨waits, by rw [none]; rfl⟩)
    refine ⟨top.pending ++ g.left, .top (outer.withPending nofun), declared, ?_⟩
    intro e mem kept
    rcases List.mem_append.mp mem with mem | mem
    · exact (resolved e mem kept).mono (List.subset_append_left _ _) (List.subset_append_left _ _)
    rcases List.mem_append.mp mem with mem | mem
    · obtain ⟨r, among, here⟩ := List.mem_filterMap.mp mem
      obtain ⟨binding, found, rfl⟩ := Option.map_eq_some_iff.mp here
      have := answers r among kept
      rwa [found] at this
    · obtain ⟨r, among, rfl⟩ := List.mem_map.mp mem
      obtain ⟨among, none⟩ := List.mem_filter.mp among
      have := answers r among kept
      rwa [Option.isNone_iff_eq_none.mp none] at this
  | @inner f g frames frames' inner matched =>
    obtain ⟨next, rest, next', rest', rfl, rfl⟩ := matched.exists_cons
    have known (name : String) := congrArg (lookup name) inner.names
    have left : ∀ r ∈ f.left, m.gone r.1 = false → r ∈ g.left := by
      intro r mem kept
      obtain ⟨mem, none⟩ := List.mem_filter.mp mem
      refine List.mem_filter.mpr ⟨inner.pending r mem kept, ?_⟩
      rw [known, lookup_image, Option.isNone_map]
      exact none
    refine ⟨top.pending, .inner (inner.withPending nofun) (matched.wait left), declared, ?_⟩
    intro e mem kept
    rcases List.mem_append.mp mem with mem | mem
    · exact (resolved e mem kept).mono (List.subset_append_left _ _) (List.Subset.refl _)
    obtain ⟨r, among, here⟩ := List.mem_filterMap.mp mem
    obtain ⟨binding, found, rfl⟩ := Option.map_eq_some_iff.mp here
    have stays := inner.stay _ (mem_of_lookup found)
    unfold Answers target?
    dsimp only at stays ⊢
    rw [stays]
    refine List.mem_append_right _ (List.mem_filterMap.mpr ⟨r, inner.pending r among kept, ?_⟩)
    rw [known, lookup_image, found]
    rfl

/-- A scope inside the top scope ends. -/
theorem leave (hosts : m.Hosts stack stack' top) (isOpen : stack.leave.frames ≠ []) :
    ∃ waiting, m.Hosts stack.leave stack'.leave { top with pending := waiting } := by
  obtain ⟨waiting, matched, declared, resolved⟩ := hosts.settle
  refine ⟨waiting, ?_, declared, resolved⟩
  unfold Stack.leave at isOpen ⊢
  generalize stack.settle.frames = frames, stack'.settle.frames = frames' at matched isOpen ⊢
  cases matched with
  | top => exact absurd rfl isOpen
  | inner _ matched => exact matched

/-- A declaration in the module and in the function. -/
theorem declare (hosts : m.Hosts stack stack' top) {name : Name} {rule : DeclarationRule}
    (matched : m.Matches [top] name.text stack.count stack'.count stack.frames
      (rule.declaring name.text stack.count stack.frames)
      (rule.declaring name.text stack'.count stack'.frames)) :
    m.Hosts (stack.step (.declare rule name)) (stack'.step (.declare rule name)) top where
  frames := matched.hosted
  declared := by
    intro d mem kept
    rcases List.mem_append.mp mem with mem | mem
    · exact List.mem_append_left _ (hosts.declared d mem kept)
    · rw [List.mem_singleton.mp mem, ← matched.binding]
      exact List.mem_append_right _ (List.mem_singleton_self _)
  resolved := hosts.resolved

/-- A declaration at the top that goes: the function does not have it. -/
theorem skip_declare (hosts : m.Hosts stack stack' top) {name : Name} {f : Frame}
    {rule : DeclarationRule} (alone : stack.frames = [f]) (joins : rule ≠ .shadowing)
    (new : name.text ∉ rootNames stack.frames) (gone : m.gone name.span.start = true)
    (goes : ∀ d ∈ (stack.step (.declare rule name)).declared, m.gone d.1 = true →
      m.goes d.2 = true) :
    m.Hosts (stack.step (.declare rule name)) stack' top := by
  obtain ⟨matched, declared, resolved⟩ := hosts
  rw [alone] at matched new
  have unknown : lookup name.text f.names = none := lookup_eq_none_iff.mpr new
  generalize same' : stack'.frames = frames' at matched
  cases matched with
  | inner _ matched => nomatch matched
  | @top _ g outer =>
    have known : f.known? name.text = none := by
      unfold Frame.known?
      rw [outer.passing.1, unknown]
      rfl
    have here : declareHere name.text stack.count [f] =
        ⟨[f.assign name.text stack.count], stack.count, stack.count + 1⟩ := by
      simp only [Scope.declareHere, known]
    have same : stack.step (.declare rule name) = stack.declare name declareHere := by
      cases rule with
      | here => rfl
      | hoisted =>
        show stack.declare name Scope.hoist = _
        simp only [Stack.declare, alone, Scope.hoist, outer.holdsVars, if_true]
      | shadowing => contradiction
    rw [same] at goes ⊢
    simp only [Stack.declare, alone, here] at goes ⊢
    have goes : m.goes stack.count = true :=
      goes _ (List.mem_append_right _ (List.mem_singleton_self _)) gone
    refine ⟨?_, ?_, resolved⟩
    · rw [same']
      refine .top ⟨outer.holdsVars, outer.passing, fun other => ?_, outer.pending⟩
      show _ = m.target? other (lookup other (assignName _ _ _))
      rw [lookup_assignName, outer.names]
      split
      · rename_i same
        rw [same, unknown]
        simp [target?, goes]
      · rfl
    · intro d mem kept
      rcases List.mem_append.mp mem with mem | mem
      · exact declared d mem kept
      · rw [List.mem_singleton.mp mem, gone] at kept
        contradiction

end Hosts

/-! ## The numbers of bindings -/

/-- The bindings that stay become different ones: parameters of the function that the top scope
declares as `names`, or bindings from `limit` on. -/
structure Numbers (m : Move) (limit : Nat) (names : List String) (stack stack' : Stack) : Prop where
  limit_le : limit ≤ stack'.count
  below : ∀ d ∈ stack.declared, m.gone d.1 = false → m.becomes d.2 < stack'.count
  apart : ∀ d ∈ stack.declared, m.gone d.1 = false → limit ≤ m.becomes d.2 ∨
    ∃ name ∈ names, lookup name m.parameters = some (m.becomes d.2)
  injective : ∀ d ∈ stack.declared, m.gone d.1 = false → ∀ d' ∈ stack.declared,
    m.gone d'.1 = false → m.becomes d.2 = m.becomes d'.2 → d.2 = d'.2

/-- The parameters have different bindings, which come before a limit. -/
structure Parameters (m : Move) (limit : Nat) : Prop where
  below : ∀ {name binding}, lookup name m.parameters = some binding → binding < limit
  injective : ∀ {name name' binding}, lookup name m.parameters = some binding →
    lookup name' m.parameters = some binding → name = name'

namespace Numbers

variable {limit : Nat} {names names' : List String} {stack stack' : Stack}

/-- Nothing is declared. -/
theorem of_declared (numbers : m.Numbers limit names stack stack') {after after' : Stack}
    (same : after.declared = stack.declared) (count : after'.count = stack'.count)
    (more : names ⊆ names') : m.Numbers limit names' after after' where
  limit_le := count ▸ numbers.limit_le
  below := by
    rw [same, count]
    exact numbers.below
  apart := by
    rw [same]
    exact fun d mem kept => (numbers.apart d mem kept).imp_right fun ⟨name, mem, here⟩ =>
      ⟨name, more mem, here⟩
  injective := by
    rw [same]
    exact numbers.injective

/-- What is declared at a position that goes does not count. -/
theorem skip (numbers : m.Numbers limit names stack stack') {after : Stack} {d : Nat × Nat}
    (added : after.declared = stack.declared ++ [d]) (gone : m.gone d.1 = true)
    (more : names ⊆ names') : m.Numbers limit names' after stack' := by
  have old : ∀ e ∈ after.declared, m.gone e.1 = false → e ∈ stack.declared := by
    intro e mem kept
    rw [added] at mem
    rcases List.mem_append.mp mem with mem | mem
    · exact mem
    · rw [List.mem_singleton.mp mem, gone] at kept
      contradiction
  exact ⟨numbers.limit_le, fun e mem kept => numbers.below e (old e mem kept) kept,
    fun e mem kept => (numbers.apart e (old e mem kept) kept).imp_right fun ⟨name, mem, here⟩ =>
      ⟨name, more mem, here⟩,
    fun e mem kept e' mem' kept' => numbers.injective e (old e mem kept) kept e' (old e' mem' kept')
      kept'⟩

/-- A declaration in the module and in the function. -/
theorem declare (numbers : m.Numbers limit names stack stack') (parameters : m.Parameters limit)
    {text : Nat → String} (sound : stack.Sound text) {name : Name} {rule : DeclarationRule}
    (matched : m.Matches others name.text stack.count stack'.count stack.frames
      (rule.declaring name.text stack.count stack.frames)
      (rule.declaring name.text stack'.count stack'.frames))
    (stays : ∀ d ∈ stack.declared,
      d.2 = (rule.declaring name.text stack.count stack.frames).binding → m.gone d.1 = false)
    (top : rootNames stack.frames = names)
    (top' : rootNames (rule.declaring name.text stack.count stack.frames).frames = names')
    (more : names ⊆ names') :
    m.Numbers limit names' (stack.step (.declare rule name))
      (stack'.step (.declare rule name)) := by
  obtain ⟨-, same, counts⟩ := matched
  have declares := declares_declaring rule name.text stack.count stack.frames
  -- The binding has all that is asked for, and the bindings that were there before keep it.
  have new : stack'.count ≤ (rule.declaring name.text stack'.count stack'.frames).count ∧
      m.becomes (rule.declaring name.text stack.count stack.frames).binding <
        (rule.declaring name.text stack'.count stack'.frames).count ∧
      (limit ≤ m.becomes (rule.declaring name.text stack.count stack.frames).binding ∨
        ∃ name' ∈ names', lookup name' m.parameters =
          some (m.becomes (rule.declaring name.text stack.count stack.frames).binding)) ∧
      ∀ d ∈ stack.declared, m.gone d.1 = false →
        m.becomes d.2 = m.becomes (rule.declaring name.text stack.count stack.frames).binding →
          d.2 = (rule.declaring name.text stack.count stack.frames).binding := by
    generalize rule.declaring name.text stack.count stack.frames = result at *
    generalize rule.declaring name.text stack'.count stack'.frames = result' at *
    have limit_le := numbers.limit_le
    cases counts with
    | known count count' =>
      obtain ⟨d, mem, here⟩ : ∃ d ∈ stack.declared, d.2 = result.binding := by
        rcases declares.binding with ⟨-, f, among, known⟩ | ⟨count, -⟩
        · obtain ⟨d, mem, same, -⟩ := sound.known f among _ known
          exact ⟨d, mem, same⟩
        · omega
      have kept := stays d mem here
      rw [count', ← here]
      exact ⟨Nat.le_refl _, numbers.below d mem kept,
        (numbers.apart d mem kept).imp_right fun ⟨name, mem, here⟩ => ⟨name, more mem, here⟩,
        fun e mem' kept' => numbers.injective e mem' kept' d mem kept⟩
    | new _ binding' count' =>
      rw [count', ← same, binding']
      refine ⟨Nat.le_succ _, Nat.lt_succ_self _, .inl limit_le, fun d mem kept other => ?_⟩
      exact absurd other (Nat.ne_of_lt (numbers.below d mem kept))
    | parameter _ parameter count' absent present =>
      have below := parameters.below parameter
      rw [count', ← same]
      refine ⟨Nat.le_refl _, Nat.lt_of_lt_of_le below limit_le,
        .inr ⟨name.text, top' ▸ present, parameter⟩, fun d mem kept other => ?_⟩
      rcases numbers.apart d mem kept with past | ⟨name', mem', here⟩
      · omega
      · rw [other] at here
        rw [top, parameters.injective parameter here] at absent
        exact absurd mem' absent
  obtain ⟨grows, below, apart, injective⟩ := new
  have either {d : Nat × Nat} (mem : d ∈ (stack.step (.declare rule name)).declared) :
      d ∈ stack.declared ∨
        d.2 = (rule.declaring name.text stack.count stack.frames).binding := by
    rcases List.mem_append.mp mem with mem | mem
    · exact .inl mem
    · exact .inr (by rw [List.mem_singleton.mp mem])
  refine ⟨Nat.le_trans numbers.limit_le grows, fun d mem kept => ?_, fun d mem kept => ?_,
    fun d mem kept d' mem' kept' equal => ?_⟩
  · rcases either mem with mem | here
    · exact Nat.lt_of_lt_of_le (numbers.below d mem kept) grows
    · rw [here]
      exact below
  · rcases either mem with mem | here
    · exact (numbers.apart d mem kept).imp_right fun ⟨name, mem, here⟩ => ⟨name, more mem, here⟩
    · rw [here]
      exact apart
  · rcases either mem with mem | here <;> rcases either mem' with mem' | here'
    · exact numbers.injective d mem kept d' mem' kept' equal
    · rw [here'] at equal ⊢
      exact injective d mem kept equal
    · rw [here] at equal ⊢
      exact (injective d' mem' kept' equal.symm).symm
    · rw [here, here']

end Numbers

end Move

end ModuleInterop.Scope
