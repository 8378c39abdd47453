import ModuleInterop.Proofs.Scope.Hosted

/-!
# Stacks of scopes that are alike

Whether a name is free depends on the names that the scopes around it declare, and neither on the numbers
of their bindings nor on the references that wait in them besides.  Two stacks are alike if their scopes
have the same names, and of related references the same wait and the same are free (`Stack.Like`).  A step
that both take keeps them alike (`Stack.Like.step`).

Occurrences that declare names only in scopes which begin and end among them leave no trace on a stack
but references of their own (`Stack.Like.foldl_left`).  So they can be left out: what stays is free in
the rest if and only if it is free in the whole (`Thinned.isFreeAt_eq`).
-/

set_option autoImplicit false

namespace ModuleInterop.Syntax

/-- A span with its ends moved. -/
def Span.moved (move : Nat → Nat) (span : Span) : Span := ⟨move span.start, move span.stop⟩

/-- A name at a moved place. -/
def Name.moved (move : Nat → Nat) (name : Name) : Name := ⟨name.span.moved move, name.text⟩

end ModuleInterop.Syntax

namespace ModuleInterop.Scope

open ModuleInterop.Syntax

variable {related : Nat → Nat → Prop} {name : String} {count count' binding binding' : Nat}
  {f g : Frame} {frames frames' : List Frame}

/-! ## Scopes that are alike -/

/-- Two scopes have the same names, and of related references the same wait in them. -/
structure Frame.Like (related : Nat → Nat → Prop) (f g : Frame) : Prop where
  holdsVars : g.holdsVars = f.holdsVars
  names : g.names.map Prod.fst = f.names.map Prod.fst
  passing : g.passing.map Prod.fst = f.passing.map Prod.fst
  pending : ∀ a b name, related a b → ((b, name) ∈ g.pending ↔ (a, name) ∈ f.pending)

/-- What a list has for a name depends, as far as it has anything, on its names. -/
theorem isSome_lookup_congr {entries entries' : List (String × Nat)} (name : String)
    (same : entries'.map Prod.fst = entries.map Prod.fst) :
    (lookup name entries').isSome = (lookup name entries).isSome := by
  rw [Bool.eq_iff_iff, Option.isSome_iff_ne_none, Option.isSome_iff_ne_none, Ne, Ne,
    lookup_eq_none_iff, lookup_eq_none_iff, same]

theorem map_fst_assignName (name : String) (binding : Nat) (entries : List (String × Nat)) :
    (assignName name binding entries).map Prod.fst =
      ((entries.map Prod.fst).filter fun n => n != name) ++ [name] := by
  rw [assignName, List.map_append, List.filter_map]
  rfl

namespace Frame.Like

theorem new (holdsVars : Bool) : (Frame.new holdsVars).Like related (.new holdsVars) where
  holdsVars := rfl
  names := rfl
  passing := rfl
  pending := fun _ _ _ _ => by simp [Frame.new]

variable (like : f.Like related g)

include like

theorem isSome_known? (name : String) : (g.known? name).isSome = (f.known? name).isSome := by
  rw [known?, known?, Option.isSome_or, Option.isSome_or, isSome_lookup_congr name like.names,
    isSome_lookup_congr name like.passing]

/-- Both scopes have a binding for a name, or neither has. -/
theorem known?_cases (name : String) :
    (f.known? name = none ∧ g.known? name = none) ∨
      ∃ binding binding', f.known? name = some binding ∧ g.known? name = some binding' := by
  have same := like.isSome_known? name
  cases known : f.known? name with
  | none =>
    rw [known, Option.isSome_none, Option.isSome_eq_false_iff, Option.isNone_iff_eq_none] at same
    exact .inl ⟨rfl, same⟩
  | some binding =>
    rw [known, Option.isSome_some, Option.isSome_iff_exists] at same
    obtain ⟨binding', same⟩ := same
    exact .inr ⟨binding, binding', rfl, same⟩

theorem assign (name : String) (binding binding' : Nat) :
    (f.assign name binding).Like related (g.assign name binding') :=
  { like with names := by rw [Frame.assign, Frame.assign, map_fst_assignName, map_fst_assignName, like.names] }

theorem pass (name : String) (binding binding' : Nat) :
    (f.pass name binding).Like related (g.pass name binding') :=
  { like with
    passing := by rw [Frame.pass, Frame.pass, map_fst_assignName, map_fst_assignName, like.passing] }

theorem remove (name : String) : (f.remove name).Like related (g.remove name) := by
  have kept (entries : List (String × Nat)) :
      (entries.filter fun e => e.1 != name).map Prod.fst =
        (entries.map Prod.fst).filter fun n => n != name := by
    rw [List.filter_map]
    rfl
  exact { like with names := by rw [Frame.remove, Frame.remove, kept, kept, like.names] }

theorem clear : f.clear.Like related g.clear :=
  { like with pending := fun _ _ _ _ => by simp [Frame.clear] }

/-- Of related references the same are left. -/
theorem mem_left (a b : Nat) (name : String) (pair : related a b) :
    (b, name) ∈ g.left ↔ (a, name) ∈ f.left := by
  rw [left, left, List.mem_filter, List.mem_filter, like.pending a b name pair,
    ← Option.not_isSome, ← Option.not_isSome, isSome_lookup_congr name like.names]

theorem wait {references references' : List (Nat × String)}
    (same : ∀ a b name, related a b → ((b, name) ∈ references' ↔ (a, name) ∈ references)) :
    (f.wait references).Like related (g.wait references') :=
  { like with
    pending := by
      intro a b name pair
      rw [Frame.wait, Frame.wait, List.mem_append, List.mem_append, like.pending a b name pair,
        same a b name pair] }

end Frame.Like

/-! ## Declarations -/

/-- Scopes that are open are alike one by one. -/
def FramesLike (related : Nat → Nat → Prop) : List Frame → List Frame → Prop :=
  List.Forall₂ (Frame.Like related)

namespace FramesLike

theorem declareNew (like : FramesLike related frames frames') (name : String) (count count' : Nat) :
    FramesLike related (Scope.declareNew name count frames).frames
      (Scope.declareNew name count' frames').frames := by
  cases like with
  | nil => exact .nil
  | cons first others => exact .cons (first.assign name count count') others

theorem declareHere (like : FramesLike related frames frames') (name : String) (count count' : Nat) :
    FramesLike related (Scope.declareHere name count frames).frames
      (Scope.declareHere name count' frames').frames := by
  cases like with
  | nil => exact .nil
  | @cons f g fs gs first others =>
    unfold Scope.declareHere
    obtain ⟨known, known'⟩ | ⟨binding, binding', known, known'⟩ := first.known?_cases name
    · simp only [known, known']
      exact .cons (first.assign name count count') others
    · simp only [known, known']
      exact .cons first others

theorem carry (like : FramesLike related frames frames') (name : String) (binding binding' : Nat)
    (moves : Bool) :
    FramesLike related (Scope.carry name binding moves frames)
      (Scope.carry name binding' moves frames') := by
  induction like with
  | nil => exact .nil
  | cons first others ih =>
    unfold Scope.carry
    rw [first.holdsVars]
    split
    · cases moves with
      | true => exact .cons (first.assign name binding binding') others
      | false => exact .cons first others
    · exact .cons (first.pass name binding binding') ih

theorem hoist (like : FramesLike related frames frames') (name : String) (count count' : Nat) :
    FramesLike related (Scope.hoist name count frames).frames
      (Scope.hoist name count' frames').frames := by
  induction like with
  | nil => exact .nil
  | @cons f g fs gs first others ih =>
    unfold Scope.hoist
    rw [first.holdsVars]
    split
    · exact declareHere (.cons first others) name count count'
    · obtain ⟨known, known'⟩ | ⟨binding, binding', known, known'⟩ := first.known?_cases name
      · simp only [known, known']
        exact .cons (first.pass name _ _) ih
      · simp only [known, known']
        rw [isSome_lookup_congr name first.names]
        exact .cons ((first.remove name).pass name _ _) (carry others name binding binding' _)

/-- **A declaration** keeps scopes alike, whatever the numbers of bindings. -/
theorem declaring (like : FramesLike related frames frames') (rule : DeclarationRule) (name : String)
    (count count' : Nat) :
    FramesLike related (rule.declaring name count frames).frames
      (rule.declaring name count' frames').frames := by
  cases rule with
  | here => exact declareHere like name count count'
  | hoisted => exact hoist like name count count'
  | shadowing => exact declareNew like name count count'

end FramesLike

/-! ## Stacks that are alike -/

/-- The position that an occurrence is at, moved. -/
def Occurrence.moved (move : Nat → Nat) : Occurrence → Occurrence
  | .declare rule name => .declare rule (name.moved move)
  | .refer offset name writes => .refer (move offset) name writes
  | .word offset => .word (move offset)
  | .enter holdsVars => .enter holdsVars
  | .leave => .leave
  | .settle => .settle

namespace Stack

variable {stack stack' : Stack}

/-- The scopes of two stacks are alike, and of related references the same are free. -/
structure Like (related : Nat → Nat → Prop) (stack stack' : Stack) : Prop where
  frames : FramesLike related stack.frames stack'.frames
  free : ∀ a b name, related a b →
    (((b, name), none) ∈ stack'.resolved ↔ ((a, name), none) ∈ stack.resolved)

theorem like_start : start.Like related start where
  frames := .cons (.new true) .nil
  free := by simp [start]

/-- A reference that finds its binding is not free. -/
theorem none_not_mem_found (frame : Frame) (reference : Nat × String) :
    (reference, none) ∉ frame.found := by
  intro mem
  obtain ⟨_, -, found⟩ := List.mem_filterMap.mp mem
  obtain ⟨_, -, same⟩ := Option.map_eq_some_iff.mp found
  exact Option.some_ne_none _ (Prod.mk.inj same).2

theorem Like.settle (like : stack.Like related stack') : stack.settle.Like related stack'.settle := by
  have frames := like.frames
  unfold Stack.settle
  cases first : stack.frames with
  | nil =>
    rw [first] at frames
    rw [List.forall₂_nil_left_iff.mp frames]
    exact like
  | cons f fs =>
    rw [first] at frames
    obtain ⟨g, gs, inner, others, second⟩ := List.forall₂_cons_left_iff.mp frames
    rw [second]
    cases others with
    | nil =>
      refine ⟨.cons inner.clear .nil, ?_⟩
      intro a b name pair
      have left := inner.mem_left a b name pair
      simp only [List.mem_append, like.free a b name pair, none_not_mem_found, false_or,
        List.mem_map, Prod.mk.injEq, and_true, exists_eq_right, left]
    | cons next others =>
      refine ⟨.cons inner.clear (.cons (next.wait inner.mem_left) others), ?_⟩
      intro a b name pair
      simp only [List.mem_append, like.free a b name pair, none_not_mem_found, or_false]

theorem Like.leave (like : stack.Like related stack') : stack.leave.Like related stack'.leave where
  frames := List.forall₂_drop 1 like.settle.frames
  free := like.settle.free

/-- **One step** that both stacks take. -/
theorem Like.step (like : stack.Like related stack') (move : Nat → Nat) (occurrence : Occurrence)
    (own : ∀ offset ∈ occurrence.referred?, ∀ a b, related a b → (b = move offset ↔ a = offset)) :
    (stack.step occurrence).Like related (stack'.step (occurrence.moved move)) := by
  cases occurrence with
  | enter holdsVars => exact ⟨.cons (.new holdsVars) like.frames, like.free⟩
  | leave => exact like.leave
  | settle => exact like.settle
  | declare rule name =>
    exact ⟨like.frames.declaring rule name.text stack.count stack'.count, like.free⟩
  | word offset => exact like
  | refer offset name writes =>
    have frames := like.frames
    have free := like.free
    show (stack.refer offset name).Like related (stack'.refer (move offset) name)
    unfold Stack.refer
    cases first : stack.frames with
    | nil =>
      rw [first] at frames
      rw [List.forall₂_nil_left_iff.mp frames]
      exact like
    | cons f fs =>
      rw [first] at frames
      obtain ⟨g, gs, inner, others, second⟩ := List.forall₂_cons_left_iff.mp frames
      rw [second]
      refine ⟨.cons (inner.wait ?_) others, free⟩
      intro a b other pair
      rw [List.mem_singleton, List.mem_singleton, Prod.mk.injEq, Prod.mk.injEq,
        own offset rfl a b pair]

end Stack

/-! ## Occurrences that leave no trace -/

/-- What an occurrence does to the scopes that have begun, where it is told of each whether it holds
variables: nothing, if the occurrence would settle or change a scope that has begun before them. -/
def Occurrence.track (begun : List Bool) : Occurrence → Option (List Bool)
  | .enter holdsVars => some (holdsVars :: begun)
  | .leave =>
    match begun with
    | [] => none
    | _ :: outer => some outer
  | .declare .hoisted _ => if begun.any id then some begun else none
  | .settle | .declare .here _ | .declare .shadowing _ => if begun.isEmpty then none else some begun
  | .refer _ _ _ | .word _ => some begun

/-- Whether each name that is declared among some occurrences belongs to a scope that begins and ends
among them. -/
def declaresLocally (occurrences : List Occurrence) : Bool :=
  occurrences.foldlM Occurrence.track [] == some []

/-- No reference is related to any other. -/
def Apart (related : Nat → Nat → Prop) (references : List (Nat × String)) : Prop :=
  ∀ r ∈ references, ∀ b, ¬ related r.1 b

/-- References that are not related to any make no difference. -/
theorem Frame.Like.wait_left (like : f.Like related g)
    {references : List (Nat × String)} (apart : Apart related references) :
    (f.wait references).Like related g :=
  { like with
    pending := by
      intro a b name pair
      rw [like.pending a b name pair, Frame.wait, List.mem_append, or_iff_left]
      exact fun mem => apart _ mem b pair }

theorem Apart.left {frame : Frame} (apart : Apart related frame.pending) : Apart related frame.left :=
  fun r mem => apart r (List.mem_filter.mp mem).1

theorem Apart.append {first second : List (Nat × String)} (apart : Apart related first)
    (apart' : Apart related second) : Apart related (first ++ second) :=
  List.forall_mem_append.mpr ⟨apart, apart'⟩

/-- What does not change in a scope when names are declared. -/
def Frame.bearing (frame : Frame) : Bool × List (Nat × String) := (frame.holdsVars, frame.pending)

section Declaring

variable {inner : List Frame}

theorem exists_declareHere (name : String) (count : Nat) (outer : List Frame) (begun : inner ≠ []) :
    ∃ inner', (declareHere name count (inner ++ outer)).frames = inner' ++ outer ∧
      inner'.map Frame.bearing = inner.map Frame.bearing := by
  obtain ⟨f, fs, rfl⟩ := List.exists_cons_of_ne_nil begun
  cases known : f.known? name with
  | none => exact ⟨f.assign name count :: fs, by simp [declareHere, known], rfl⟩
  | some binding => exact ⟨f :: fs, by simp [declareHere, known], rfl⟩

theorem exists_carry (name : String) (binding : Nat) (moves : Bool) (outer : List Frame)
    (holds : inner.any Frame.holdsVars = true) :
    ∃ inner', carry name binding moves (inner ++ outer) = inner' ++ outer ∧
      inner'.map Frame.bearing = inner.map Frame.bearing := by
  induction inner with
  | nil => contradiction
  | cons f fs ih =>
    rw [List.cons_append]
    unfold carry
    cases here : f.holdsVars with
    | true =>
      cases moves with
      | true => exact ⟨f.assign name binding :: fs, rfl, rfl⟩
      | false => exact ⟨f :: fs, rfl, rfl⟩
    | false =>
      rw [List.any_cons, here, Bool.false_or] at holds
      obtain ⟨inner', frames, same⟩ := ih holds
      exact ⟨f.pass name binding :: inner', by simp [frames], by simp [same, Frame.bearing, Frame.pass]⟩

theorem exists_hoist (name : String) (count : Nat) (outer : List Frame)
    (holds : inner.any Frame.holdsVars = true) :
    ∃ inner', (hoist name count (inner ++ outer)).frames = inner' ++ outer ∧
      inner'.map Frame.bearing = inner.map Frame.bearing := by
  induction inner with
  | nil => contradiction
  | cons f fs ih =>
    rw [List.cons_append]
    unfold hoist
    cases here : f.holdsVars with
    | true => exact exists_declareHere name count outer (List.cons_ne_nil f fs)
    | false =>
      rw [List.any_cons, here, Bool.false_or] at holds
      cases f.known? name with
      | none =>
        obtain ⟨inner', frames, same⟩ := ih holds
        exact ⟨f.pass name (hoist name count (fs ++ outer)).binding :: inner', by simp [frames],
          by simp [same, Frame.bearing, Frame.pass]⟩
      | some binding =>
        obtain ⟨inner', frames, same⟩ :=
          exists_carry name binding (lookup name f.names).isSome outer holds
        exact ⟨(f.remove name).pass name binding :: inner', by simp [frames],
          by simp [same, Frame.bearing, Frame.pass, Frame.remove]⟩

/-- A name that belongs to a scope among the innermost ones is declared there. -/
theorem exists_declaring (rule : DeclarationRule) (name : Name) (count : Nat) (outer : List Frame)
    (tracked : (Occurrence.declare rule name).track (inner.map Frame.holdsVars) ≠ none) :
    ∃ inner', (rule.declaring name.text count (inner ++ outer)).frames = inner' ++ outer ∧
      inner'.map Frame.bearing = inner.map Frame.bearing := by
  have begun (some : (if (inner.map Frame.holdsVars).isEmpty = true then none
      else some (inner.map Frame.holdsVars)) ≠ none) : inner ≠ [] := by
    rintro rfl
    exact some rfl
  cases rule with
  | here => exact exists_declareHere name.text count outer (begun tracked)
  | hoisted =>
    refine exists_hoist name.text count outer ?_
    by_contra none
    exact tracked (by simp_all [Occurrence.track])
  | shadowing =>
    obtain ⟨f, fs, rfl⟩ := List.exists_cons_of_ne_nil (begun tracked)
    exact ⟨f.assign name.text count :: fs, rfl, rfl⟩

end Declaring

namespace Stack

variable {stack stack' : Stack} {begun begun' : List Bool} {occurrence : Occurrence}

/-- Two stacks are alike but for scopes that have begun on the first one alone; of each of these it is
told whether it holds variables. -/
structure Inside (related : Nat → Nat → Prop) (begun : List Bool) (stack stack' : Stack) : Prop where
  frames : ∃ inner outer, stack.frames = inner ++ outer ∧ inner.map Frame.holdsVars = begun ∧
    (∀ f ∈ inner, Apart related f.pending) ∧ FramesLike related outer stack'.frames
  free : ∀ a b name, related a b →
    (((b, name), none) ∈ stack'.resolved ↔ ((a, name), none) ∈ stack.resolved)

theorem Like.inside (like : stack.Like related stack') : stack.Inside related [] stack' :=
  ⟨⟨[], stack.frames, rfl, rfl, by simp, like.frames⟩, like.free⟩

theorem Inside.like (inside : stack.Inside related [] stack') : stack.Like related stack' := by
  obtain ⟨⟨inner, outer, frames, none, -, alike⟩, free⟩ := inside
  rw [List.map_eq_nil_iff.mp none, List.nil_append] at frames
  exact ⟨frames ▸ alike, free⟩

theorem Inside.settle (inside : stack.Inside related begun stack') (some : begun ≠ []) :
    stack.settle.Inside related begun stack' := by
  obtain ⟨⟨inner, outer, frames, rfl, apart, alike⟩, free⟩ := inside
  obtain ⟨f, fs, rfl⟩ := List.exists_cons_of_ne_nil fun none => some (List.map_eq_nil_iff.mpr none)
  rw [List.forall_mem_cons] at apart
  have cleared : Apart related f.clear.pending := by simp [Apart, Frame.clear]
  -- Of what is resolved, only what no scope is left for is free.
  have unchanged (a b : Nat) (name : String) (pair : related a b) :
      ((b, name), none) ∈ stack'.resolved ↔ ((a, name), none) ∈ stack.resolved ++ f.found := by
    rw [List.mem_append, or_iff_left (none_not_mem_found _ _), free a b name pair]
  cases fs with
  | nil =>
    cases outer with
    | nil =>
      have settled : stack.settle = { stack with
          frames := [f.clear]
          resolved := stack.resolved ++ (f.found ++ f.left.map fun r => (r, none)) } := by
        simp [Stack.settle, frames]
      rw [settled]
      refine ⟨⟨[f.clear], [], rfl, rfl, by simpa using cleared, alike⟩, ?_⟩
      intro a b name pair
      rw [unchanged a b name pair]
      show _ ↔ _ ∈ stack.resolved ++ (f.found ++ f.left.map fun r => (r, none))
      rw [← List.append_assoc, List.mem_append (s := stack.resolved ++ f.found), or_iff_left]
      intro mem
      obtain ⟨r, among, same⟩ := List.mem_map.mp mem
      obtain ⟨rfl, -⟩ := Prod.mk.inj same
      exact apart.1.left _ among b pair
    | cons next outer =>
      obtain ⟨g, gs, like, others, second⟩ := List.forall₂_cons_left_iff.mp alike
      have settled : stack.settle = { stack with
          frames := f.clear :: next.wait f.left :: outer
          resolved := stack.resolved ++ f.found } := by
        simp [Stack.settle, frames]
      rw [settled]
      refine ⟨⟨[f.clear], next.wait f.left :: outer, rfl, rfl, by simpa using cleared, ?_⟩, unchanged⟩
      rw [second]
      exact .cons (like.wait_left apart.1.left) others
  | cons next fs =>
    have settled : stack.settle = { stack with
        frames := f.clear :: next.wait f.left :: (fs ++ outer)
        resolved := stack.resolved ++ f.found } := by
      simp [Stack.settle, frames]
    rw [settled]
    rw [List.forall_mem_cons] at apart
    refine ⟨⟨f.clear :: next.wait f.left :: fs, outer, rfl, rfl, ?_, alike⟩, unchanged⟩
    rw [List.forall_mem_cons, List.forall_mem_cons]
    exact ⟨cleared, apart.2.1.append apart.1.left, apart.2.2⟩

theorem Inside.leave {holdsVars : Bool} (inside : stack.Inside related (holdsVars :: begun) stack') :
    stack.leave.Inside related begun stack' := by
  obtain ⟨⟨inner, outer, frames, flags, apart, alike⟩, free⟩ := inside.settle (List.cons_ne_nil _ _)
  obtain ⟨f, fs, rfl, -, rfl⟩ := List.map_eq_cons_iff.mp flags
  refine ⟨⟨fs, outer, ?_, rfl, fun f mem => apart f (List.mem_cons_of_mem _ mem), alike⟩, free⟩
  unfold Stack.leave
  rw [frames]
  rfl

theorem Inside.refer (inside : stack.Inside related begun stack') {offset : Nat} (name : String)
    (apart : ∀ b, ¬ related offset b) : (stack.refer offset name).Inside related begun stack' := by
  obtain ⟨⟨inner, outer, frames, rfl, apart', alike⟩, free⟩ := inside
  have alone : Apart related [(offset, name)] := by simpa [Apart] using apart
  unfold Stack.refer
  cases inner with
  | nil =>
    cases outer with
    | nil =>
      rw [frames]
      exact ⟨⟨[], [], frames, rfl, apart', alike⟩, free⟩
    | cons next outer =>
      obtain ⟨g, gs, like, others, second⟩ := List.forall₂_cons_left_iff.mp alike
      rw [frames]
      refine ⟨⟨[], next.wait [(offset, name)] :: outer, rfl, rfl, by simp, ?_⟩, free⟩
      rw [second]
      exact .cons (like.wait_left alone) others
  | cons f fs =>
    rw [frames]
    refine ⟨⟨f.wait [(offset, name)] :: fs, outer, rfl, rfl, ?_, alike⟩, free⟩
    rw [List.forall_mem_cons] at apart' ⊢
    exact ⟨apart'.1.append alone, apart'.2⟩

theorem Inside.declare (inside : stack.Inside related begun stack') {rule : DeclarationRule}
    {name : Name} (tracked : (Occurrence.declare rule name).track begun ≠ none) :
    (stack.declare name rule.declaring).Inside related begun stack' := by
  obtain ⟨⟨inner, outer, frames, rfl, apart, alike⟩, free⟩ := inside
  obtain ⟨inner', declared, bearing⟩ := exists_declaring rule name stack.count outer tracked
  rw [← frames] at declared
  have flags : inner'.map Frame.holdsVars = inner.map Frame.holdsVars := by
    have same := congrArg (List.map Prod.fst) bearing
    rwa [List.map_map, List.map_map] at same
  refine ⟨⟨inner', outer, declared, flags, ?_, alike⟩, free⟩
  intro f mem
  obtain ⟨f', among, same⟩ := List.mem_map.mp (bearing ▸ List.mem_map_of_mem (f := Frame.bearing) mem)
  have pending : f'.pending = f.pending := congrArg Prod.snd same
  exact pending ▸ apart f' among

/-- **One step** that only the first stack takes. -/
theorem Inside.step (inside : stack.Inside related begun stack')
    (tracked : occurrence.track begun = some begun')
    (apart : ∀ offset ∈ occurrence.referred?, ∀ b, ¬ related offset b) :
    (stack.step occurrence).Inside related begun' stack' := by
  cases occurrence with
  | enter holdsVars =>
    obtain rfl := Option.some.inj tracked
    obtain ⟨⟨inner, outer, frames, rfl, apart', alike⟩, free⟩ := inside
    refine ⟨⟨.new holdsVars :: inner, outer, congrArg _ frames, rfl, ?_, alike⟩, free⟩
    rw [List.forall_mem_cons]
    exact ⟨by simp [Apart, Frame.new], apart'⟩
  | leave =>
    cases begun with
    | nil => contradiction
    | cons holdsVars outer =>
      obtain rfl := Option.some.inj tracked
      exact inside.leave
  | settle =>
    cases begun with
    | nil => contradiction
    | cons holdsVars outer =>
      obtain rfl := Option.some.inj tracked
      exact inside.settle (List.cons_ne_nil _ _)
  | declare rule name =>
    have same : begun' = begun := by
      cases rule <;> unfold Occurrence.track at tracked <;> split at tracked <;> simp_all
    subst same
    exact inside.declare (by simp [tracked])
  | refer offset name writes =>
    obtain rfl := Option.some.inj tracked
    exact inside.refer name (apart offset rfl)
  | word offset =>
    obtain rfl := Option.some.inj tracked
    exact inside

theorem Inside.foldl {occurrences : List Occurrence} (inside : stack.Inside related begun stack')
    (tracked : occurrences.foldlM Occurrence.track begun = some begun')
    (apart : ∀ offset ∈ referredOffsets occurrences, ∀ b, ¬ related offset b) :
    (occurrences.foldl Stack.step stack).Inside related begun' stack' := by
  induction occurrences generalizing begun stack with
  | nil =>
    obtain rfl := Option.some.inj tracked
    exact inside
  | cons occurrence others ih =>
    rw [List.foldlM_cons, Option.bind_eq_bind, Option.bind_eq_some_iff] at tracked
    obtain ⟨next, first, rest⟩ := tracked
    rw [referredOffsets_cons, List.forall_mem_append] at apart
    have own : ∀ offset ∈ occurrence.referred?, ∀ b, ¬ related offset b := fun offset mem =>
      apart.1 offset (Option.mem_toList.mpr mem)
    exact ih (inside.step first own) rest apart.2

/-- **Occurrences that declare names for themselves alone** leave no trace but their references. -/
theorem Like.foldl_left (like : stack.Like related stack') {occurrences : List Occurrence}
    (within : declaresLocally occurrences = true)
    (apart : ∀ offset ∈ referredOffsets occurrences, ∀ b, ¬ related offset b) :
    (occurrences.foldl Stack.step stack).Like related stack' :=
  (like.inside.foldl (eq_of_beq within) apart).like

end Stack

/-! ## Occurrences that are left out -/

/-- Stretches that declare names for themselves alone are left out: what stays, the whole, and what stays
with its positions moved. -/
inductive Thinned (move : Nat → Nat) : List Occurrence → List Occurrence → List Occurrence → Prop
  | nil : Thinned move [] [] []
  | keep {kept whole thin : List Occurrence} (occurrence : Occurrence) : Thinned move kept whole thin →
      Thinned move (occurrence :: kept) (occurrence :: whole) (occurrence.moved move :: thin)
  | drop {kept whole thin gone : List Occurrence} : declaresLocally gone = true →
      Thinned move kept whole thin → Thinned move kept (gone ++ whole) thin

namespace Thinned

variable {move : Nat → Nat} {kept whole thin kept' whole' thin' : List Occurrence}

theorem append (h : Thinned move kept whole thin) (h' : Thinned move kept' whole' thin') :
    Thinned move (kept ++ kept') (whole ++ whole') (thin ++ thin') := by
  induction h with
  | nil => exact h'
  | keep occurrence _ ih => exact .keep occurrence ih
  | drop within _ ih =>
    rw [List.append_assoc]
    exact .drop within ih

theorem single (occurrence : Occurrence) :
    Thinned move [occurrence] [occurrence] [occurrence.moved move] := .keep occurrence .nil

theorem scope (holdsVars : Bool) (h : Thinned move kept whole thin) :
    Thinned move (enclosed holdsVars kept) (enclosed holdsVars whole) (enclosed holdsVars thin) :=
  .keep (.enter holdsVars) (h.append (.single .leave))

theorem left {occurrences : List Occurrence} (within : declaresLocally occurrences = true) :
    Thinned move [] occurrences [] := by
  rw [← List.append_nil occurrences]
  exact .drop within .nil

theorem sublist (h : Thinned move kept whole thin) : kept.Sublist whole := by
  induction h with
  | nil => exact .slnil
  | keep occurrence _ ih => exact ih.cons_cons occurrence
  | drop _ _ ih => exact ih.trans (List.sublist_append_right _ _)

theorem thin_eq (h : Thinned move kept whole thin) : thin = kept.map (Occurrence.moved move) := by
  induction h with
  | nil => rfl
  | keep occurrence _ ih => rw [ih, List.map_cons]
  | drop _ _ ih => exact ih

theorem referredOffsets_thin (h : Thinned move kept whole thin) :
    referredOffsets thin = (referredOffsets kept).map move := by
  rw [h.thin_eq, referredOffsets, referredOffsets, List.filterMap_map, List.map_filterMap]
  refine List.filterMap_congr fun occurrence _ => ?_
  cases occurrence <;> rfl

/-- **A run over all occurrences and one over those that stay** keep stacks alike. -/
theorem foldl {stack stack' : Stack} (h : Thinned move kept whole thin)
    (distinct : (referredOffsets whole).Nodup) (like : stack.Like related stack')
    (own : ∀ offset ∈ referredOffsets kept, ∀ a b, related a b → (b = move offset ↔ a = offset))
    (apart : ∀ offset ∈ referredOffsets whole, offset ∉ referredOffsets kept →
      ∀ b, ¬ related offset b) :
    (whole.foldl Stack.step stack).Like related (thin.foldl Stack.step stack') := by
  induction h generalizing stack stack' with
  | nil => exact like
  | @keep kept whole thin occurrence rest ih =>
    rw [referredOffsets_cons] at distinct own apart
    rw [referredOffsets_cons] at apart
    obtain ⟨-, distinct', once⟩ := List.nodup_append.mp distinct
    rw [List.forall_mem_append] at own
    refine ih distinct' (like.step move occurrence fun offset mem =>
      own.1 offset (Option.mem_toList.mpr mem)) own.2 ?_
    intro offset mem new
    refine apart offset (List.mem_append_right _ mem) ?_
    rw [List.mem_append]
    rintro (here | there)
    · exact once offset here offset mem rfl
    · exact new there
  | @drop kept whole thin gone within rest ih =>
    rw [referredOffsets_append] at distinct apart
    obtain ⟨-, distinct', once⟩ := List.nodup_append.mp distinct
    rw [List.foldl_append]
    refine ih distinct' (like.foldl_left within fun offset mem => ?_) own fun offset mem new =>
      apart offset (List.mem_append_right _ mem) new
    refine apart offset (List.mem_append_left _ mem) fun there => ?_
    exact once offset mem offset ((rest.sublist.filterMap _).subset there) rfl

end Thinned

/-- A name is free if and only if its reference is on the stack without a binding. -/
theorem isFreeAt_iff {occurrences : List Occurrence} (balanced : Balanced occurrences)
    (distinct : (referredOffsets occurrences).Nodup) {offset : Nat}
    (mem : offset ∈ referredOffsets occurrences) :
    (Bindings.ofOccurrences occurrences).isFreeAt offset = true ↔
      ∃ name, ((offset, name), none) ∈ (Stack.ofOccurrences occurrences).resolved := by
  obtain ⟨-, resolved⟩ := view_ofOccurrences balanced
  have same := offsets_ofOccurrences balanced
  have found {r : Reference} (mem : r ∈ (Bindings.ofOccurrences occurrences).references) :
      (Bindings.ofOccurrences occurrences).referenceAt? r.offset = some r :=
    find?_of_nodup (same.nodup_iff.mpr distinct) mem
  rw [← resolved]
  constructor
  · intro free
    obtain ⟨r, among, rfl⟩ := List.mem_map.mp (same.symm.subset mem)
    rw [Bindings.isFreeAt, found among, Option.isNone_iff_eq_none] at free
    exact ⟨r.name, List.mem_map.mpr ⟨r, among, by rw [free]⟩⟩
  · rintro ⟨name, unbound⟩
    obtain ⟨r, among, here⟩ := List.mem_map.mp unbound
    obtain ⟨place, none⟩ := Prod.mk.inj here
    obtain ⟨rfl, -⟩ := Prod.mk.inj place
    rw [Bindings.isFreeAt, found among]
    exact Option.isNone_iff_eq_none.mpr none

/-- **A name that stays is free in what is left** if and only if it is free in the whole. -/
theorem Thinned.isFreeAt_eq {move : Nat → Nat} {kept whole thin : List Occurrence}
    (h : Thinned move kept whole thin) (balanced : Balanced whole) (balanced' : Balanced thin)
    (distinct : (referredOffsets whole).Nodup) (distinct' : (referredOffsets thin).Nodup)
    {offset : Nat} (mem : offset ∈ referredOffsets kept) :
    (Bindings.ofOccurrences thin).isFreeAt (move offset) =
      (Bindings.ofOccurrences whole).isFreeAt offset := by
  have once : ((referredOffsets kept).map move).Nodup := h.referredOffsets_thin ▸ distinct'
  have like : (Stack.ofOccurrences whole).Like (fun a b => a ∈ referredOffsets kept ∧ b = move a)
      (Stack.ofOccurrences thin) := by
    refine (h.foldl distinct Stack.like_start ?_ ?_).settle
    · rintro offset mem a b ⟨mem', rfl⟩
      exact ⟨fun same => List.inj_on_of_nodup_map once mem' mem same, fun same => by rw [same]⟩
    · rintro offset - new b ⟨mem, -⟩
      exact new mem
  have there : move offset ∈ referredOffsets thin := by
    rw [h.referredOffsets_thin]
    exact List.mem_map_of_mem mem
  rw [Bool.eq_iff_iff, isFreeAt_iff balanced' distinct' there,
    isFreeAt_iff balanced distinct ((h.sublist.filterMap _).subset mem)]
  exact exists_congr fun name => like.free offset (move offset) name ⟨mem, rfl⟩

end ModuleInterop.Scope
