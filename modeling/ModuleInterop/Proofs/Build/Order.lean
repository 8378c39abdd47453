import ModuleInterop.Proofs.Build.Answers

/-!
# The order of a build does not matter

A build transforms some modules, each of them once, and loads some virtual modules.  A module is
then settled and recorded by one request at most, so it does not matter which request comes first:
in all orders the modules end with the same classifications and records, and since the end of a load
depends on nothing else (`Run.ends_of_wanted`), it ends in the same way.  What a transformation
answers depends on its own text alone.
-/

set_option autoImplicit false

namespace ModuleInterop.Build

/-- The transformation of a module. -/
structure TransformCall where
  code : String
  id : String
  isEntry : Bool

def TransformCall.request (call : TransformCall) : Request :=
  .transform call.code call.id call.isEntry

/-- The requests of a build that transforms and loads modules. -/
def buildRequests (transforms : List TransformCall) (loads : List String) : List Request :=
  transforms.map TransformCall.request ++ loads.map Request.load

section Lists

variable {α β : Type} {f : α → Option β} {xs ys : List α}

/-- Lists of one element at most do not have another order. -/
theorem findSome?_eq_of_perm (perm : xs.Perm ys) (single : (ys.filterMap f).length ≤ 1) :
    xs.findSome? f = ys.findSome? f := by
  rw [← List.head?_filterMap, ← List.head?_filterMap]
  have found := perm.filterMap f
  cases given : ys.filterMap f with
  | nil =>
    rw [given] at found
    rw [found.eq_nil]
  | cons b others =>
    rw [given] at found single
    obtain rfl := List.eq_nil_of_length_eq_zero (Nat.le_zero.mp (Nat.le_of_succ_le_succ single))
    rw [List.perm_singleton.mp found]

end Lists

namespace Session

variable {session : Session} {transforms : List TransformCall} {loads : List String} {id : String}

/-- Of the requests of a build, those that do something for a module are at most one, if only its
transformation does. -/
theorem length_filterMap_le_one {β : Type} {f : Request → Option β}
    (distinct : (transforms.map TransformCall.id).Nodup)
    (elsewhere : ∀ call : TransformCall, call.id ≠ id → f call.request = none)
    (load : ∀ target, f (.load target) = none) :
    ((buildRequests transforms loads).filterMap f).length ≤ 1 := by
  have none_of_loads : (loads.map Request.load).filterMap f = [] := by
    refine List.filterMap_eq_nil_iff.mpr fun request mem => ?_
    obtain ⟨target, -, rfl⟩ := List.mem_map.mp mem
    exact load target
  rw [buildRequests, List.filterMap_append, none_of_loads, List.append_nil, List.filterMap_map]
  induction transforms with
  | nil => exact Nat.zero_le 1
  | cons call transforms ih =>
    obtain ⟨other, distinct'⟩ := List.nodup_cons.mp distinct
    rw [List.filterMap_cons]
    split
    · exact ih distinct'
    · rename_i value does
      have same : call.id = id := Decidable.byContradiction fun ne => by
        rw [Function.comp_apply, elsewhere call ne] at does
        contradiction
      have rest : transforms.filterMap (f ∘ TransformCall.request) = [] := by
        refine List.filterMap_eq_nil_iff.mpr fun call' mem => elsewhere call' ?_
        rintro rfl
        exact other (same ▸ List.mem_map_of_mem mem)
      rw [rest]
      exact Nat.le_refl 1

theorem settles?_single (session : Session) (loads : List String) (id : String)
    (distinct : (transforms.map TransformCall.id).Nodup) :
    ((buildRequests transforms loads).filterMap (session.settles? id)).length ≤ 1 :=
  length_filterMap_le_one distinct (fun _ ne => if_neg ne) fun _ => rfl

theorem records?_single (session : Session) (loads : List String) (id : String)
    (distinct : (transforms.map TransformCall.id).Nodup) :
    ((buildRequests transforms loads).filterMap (session.records? id)).length ≤ 1 :=
  length_filterMap_le_one distinct (fun _ ne => if_neg ne) fun _ => rfl

variable {requests : List Request}

/-- **What is known after a build** does not depend on the order of its requests. -/
theorem known_of_perm (session : Session) (distinct : (transforms.map TransformCall.id).Nodup)
    (perm : requests.Perm (buildRequests transforms loads)) (id : String) :
    ((Run.start session).after requests).known id = (session.registry.peek id).or
      ((buildRequests transforms loads).findSome? (session.settles? id)) := by
  rw [Run.known_after,
    findSome?_eq_of_perm perm ((Run.start session).session.settles?_single loads id distinct)]
  rfl

/-- **The records after a build** do not depend on the order of its requests. -/
theorem record?_of_perm (session : Session) (distinct : (transforms.map TransformCall.id).Nodup)
    (perm : requests.Perm (buildRequests transforms loads)) (id : String) :
    ((Run.start session).after requests).session.record? id =
      ((buildRequests transforms loads).findSome? (session.records? id)).or
        (session.record? id) := by
  have reversed := (List.reverse_perm requests).trans perm
  rw [Run.record?_after,
    findSome?_eq_of_perm reversed ((Run.start session).session.records?_single loads id distinct)]
  rfl

theorem reply_transform (run : Run) (call : TransformCall) :
    (run.step call.request).1 = .transformed
      ((run.session.outcomeOf call.code call.id call.isEntry).answer call.id) := rfl

/-- How a load ends, if a classification decides on it. -/
theorem ends_of_load {target : String} (session : Session)
    (distinct : (transforms.map TransformCall.id).Nodup)
    (perm : requests.Perm (buildRequests transforms loads)) {asked : Nat}
    (found : requests[asked]? = some (.load id)) (proxy : loaded id = .proxy target) :
    (Run.start session).Ends requests asked
      (((session.registry.peek target).or
        ((buildRequests transforms loads).findSome? (session.settles? target))).map
          fun c => (Wanted.proxy target).answer c) := by
  have asks : (Request.load id).wanted? = some (.proxy target) := by
    simp [Request.wanted?, proxy]
  have ends := Run.ends_of_wanted (Run.sound_start session) found asks
  rwa [show (Wanted.proxy target).subject = target from rfl,
    known_of_perm session distinct perm target] at ends

/-- **The order of a build does not matter.**  Whatever a session has found out, for transformations
of different modules, any loads, and two orders of all of them:

* a transformation gets the same answer in both;
* every module ends with the same classification and record;
* a load ends in the same way, waiting or with the same text;
* a transformation changes neither the classification nor the record of another module. -/
theorem order_does_not_matter (session : Session) {transforms : List TransformCall}
    {loads : List String} {xs ys : List Request}
    (distinct : (transforms.map TransformCall.id).Nodup)
    (one : xs.Perm (buildRequests transforms loads))
    (two : ys.Perm (buildRequests transforms loads)) :
    (∀ (call : TransformCall) (i j : Nat),
      xs[i]? = some call.request → ys[j]? = some call.request →
        ∃ answer answers answers',
          ((Run.start session).trace xs)[i]? = some (.transformed answer, answers) ∧
          ((Run.start session).trace ys)[j]? = some (.transformed answer, answers')) ∧
    (∀ id : String,
      ((Run.start session).after xs).known id = ((Run.start session).after ys).known id ∧
      ((Run.start session).after xs).session.record? id =
        ((Run.start session).after ys).session.record? id) ∧
    (∀ (id : String) (i j : Nat),
      xs[i]? = some (.load id) → ys[j]? = some (.load id) →
        ∃ text?, (Run.start session).Ends xs i text? ∧ (Run.start session).Ends ys j text?) ∧
    ∀ (run : Run) (call : TransformCall) (other : String), other ≠ call.id →
      (run.step call.request).2.2.known other = run.known other ∧
      (run.step call.request).2.2.session.record? other = run.session.record? other := by
  refine ⟨?_, ?_, ?_, ?_⟩
  · intro call i j found found'
    have heard := Run.getElem?_trace_of found (Run.start session)
    have heard' := Run.getElem?_trace_of found' (Run.start session)
    rw [reply_transform, Run.outcomeOf_after] at heard heard'
    exact ⟨_, _, _, heard, heard'⟩
  · intro id
    rw [known_of_perm session distinct one, known_of_perm session distinct two,
      record?_of_perm session distinct one, record?_of_perm session distinct two]
    exact ⟨rfl, rfl⟩
  · intro id i j found found'
    cases content : loaded id with
    | ready text =>
      exact ⟨some (.text text), Run.ends_of_ready found content _,
        Run.ends_of_ready found' content _⟩
    | proxy target =>
      exact ⟨_, ends_of_load session distinct one found content,
        ends_of_load session distinct two found' content⟩
  · intro run call other ne
    have elsewhere : call.request.subject? ≠ some other := fun same =>
      ne (Option.some.inj same).symm
    refine ⟨Run.known_step_of_elsewhere elsewhere run, ?_⟩
    have records := Run.record?_answer run call.request other
    rw [show run.session.records? other call.request = none from if_neg ne.symm,
      Option.none_or] at records
    exact records

/-- Two modules of a build. -/
def twoModules : List TransformCall :=
  [⟨"module.exports = 1;", "a.js", false⟩, ⟨"export default 1;", "b.js", false⟩]

/-- The proxy of the first one. -/
def firstProxy : String := Virtual.proxyPrefix ++ "a.js"

/-- Whether the proxy of the first module is loaded after both modules are transformed, or before
the first one is, it gets the same text. -/
theorem proxy_first_or_last :
    (twoModules.map TransformCall.id).Nodup ∧
      (∀ id : String,
        ((Run.start fresh).after (buildRequests twoModules [firstProxy])).known id =
          ((Run.start fresh).after (buildRequests twoModules [firstProxy]).reverse).known id) ∧
      ∃ text?, (Run.start fresh).Ends (buildRequests twoModules [firstProxy]) 2 text? ∧
        (Run.start fresh).Ends (buildRequests twoModules [firstProxy]).reverse 0 text? := by
  have distinct : (twoModules.map TransformCall.id).Nodup := by decide
  obtain ⟨-, same, loads, -⟩ := order_does_not_matter fresh distinct
    (List.Perm.refl (buildRequests twoModules [firstProxy]))
    (List.reverse_perm (buildRequests twoModules [firstProxy]))
  exact ⟨distinct, fun id => (same id).1, loads firstProxy 2 0 rfl rfl⟩

end Session

end ModuleInterop.Build
