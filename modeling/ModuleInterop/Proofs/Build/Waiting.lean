import ModuleInterop.Proofs.Build.Settlement

/-!
# Who waits, and who is answered

Who asks for the classification of a module that is not known waits under a number.  Waiters are
numbered in the order of arrival and wait only for what is not known (`Run.Sound`, kept by every
request).  A step answers those whose module has just become known (`Run.mem_answers_iff`) and keeps
the others, so somebody who has joined waits until their module is known
(`Run.Sound.mem_waiters_of_joined`); a request about another module does not touch them
(`Run.Sound.waitersFor_step`).
-/

set_option autoImplicit false

namespace ModuleInterop.Build

/-- What a request asks for, if a classification decides on it. -/
def Request.wanted? : Request → Option Wanted
  | .wait id => some (.classification id)
  | .load id =>
    match Session.loaded id with
    | .proxy target => some (.proxy target)
    | .ready _ => none
  | .transform _ _ _ | .publish _ _ | .peek _ | .record _ | .resolve _ _ => none

/-- The module that a request is about, if its classification is asked for or settled. -/
def Request.subject? : Request → Option String
  | .transform _ id _ | .wait id | .publish id _ | .peek id => some id
  | .load id => (Request.load id).wanted?.map Wanted.subject
  | .record _ | .resolve _ _ => none

/-- Who asks for a classification does not settle one. -/
theorem Session.settles?_of_wanted? {request : Request} {wanted : Wanted}
    (asks : request.wanted? = some wanted) (session : Session) (id : String) :
    session.settles? id request = none := by
  cases request with
  | load target => rfl
  | wait target => rfl
  | _ => contradiction

/-- A request settles only the module that it is about. -/
theorem Session.settles?_of_subject?_ne {request : Request} {id : String}
    (elsewhere : request.subject? ≠ some id) (session : Session) :
    session.settles? id request = none := by
  cases request with
  | transform code target isEntry => exact if_neg fun same => elsewhere (congrArg some same)
  | publish target c => exact if_neg fun same => elsewhere (congrArg some same)
  | _ => rfl

theorem Request.subject?_of_wanted? {request : Request} {wanted : Wanted}
    (asks : request.wanted? = some wanted) : request.subject? = some wanted.subject := by
  cases request with
  | load target => exact congrArg (Option.map Wanted.subject) asks
  | wait target =>
    obtain rfl := Option.some.inj asks
    rfl
  | _ => contradiction

namespace Run

variable {run : Run} {request : Request} {requests : List Request} {wanted : Wanted}
  {asked place number : Nat} {value : Got} {id : String} {c : Classification}

/-! ## What is heard of a run -/

/-- What the host hears while a run takes requests: the reply to each, and the answers that those
who have waited get with it. -/
def trace (run : Run) : List Request → List (Reply × List (Nat × Got))
  | [] => []
  | request :: requests =>
    let (reply, answers, next) := run.step request
    (reply, answers) :: next.trace requests

theorem getElem?_trace (run : Run) (requests : List Request) (place : Nat) :
    (run.trace requests)[place]? = requests[place]?.map fun request =>
      (((run.after (requests.take place)).step request).1,
        ((run.after (requests.take place)).step request).2.1) := by
  induction requests generalizing run place with
  | nil => rfl
  | cons request requests ih =>
    cases place with
    | zero => rfl
    | succ place => exact ih (run.step request).2.2 place

theorem getElem?_trace_of (found : requests[place]? = some request) (run : Run) :
    (run.trace requests)[place]? =
      some (((run.after (requests.take place)).step request).1,
        ((run.after (requests.take place)).step request).2.1) := by
  rw [getElem?_trace, found]
  rfl

theorem after_take_succ (found : requests[place]? = some request) (run : Run) :
    run.after (requests.take (place + 1)) =
      ((run.after (requests.take place)).step request).2.2 := by
  rw [List.take_add_one, found, after_append]
  rfl

/-- A later state of a run comes from an earlier one. -/
theorem exists_after_take {early late : Nat} (le : early ≤ late) (run : Run)
    (requests : List Request) : ∃ between, run.after (requests.take late) =
      (run.after (requests.take early)).after between := by
  obtain ⟨more, rfl⟩ := Nat.exists_eq_add_of_le le
  exact ⟨(requests.drop early).take more, by rw [List.take_add, after_append]⟩

/-- The states after a request come from the one right after it. -/
theorem exists_after_step {late : Nat} (found : requests[asked]? = some request) (lt : asked < late)
    (run : Run) : ∃ between, run.after (requests.take late) =
      ((run.after (requests.take asked)).step request).2.2.after between := by
  rw [← after_take_succ found]
  exact exists_after_take (Nat.succ_le_of_lt lt) run requests

/-- What is known after some of the requests is known after all of them. -/
theorem known_of_known_take (known : (run.after (requests.take place)).known id = some c) :
    (run.after requests).known id = some c := by
  rw [← List.take_append_drop place requests, after_append]
  exact known_of_known known _

theorem known_take_of_known {early late : Nat} (le : early ≤ late)
    (known : (run.after (requests.take early)).known id = some c) :
    (run.after (requests.take late)).known id = some c := by
  obtain ⟨between, comes⟩ := exists_after_take le run requests
  rw [comes]
  exact known_of_known known between

/-! ## Those who wait -/

theorem answer_of_wanted (asks : request.wanted? = some wanted) (run : Run) :
    run.answer request = run.want wanted := by
  cases request with
  | load id =>
    cases content : Session.loaded id with
    | ready text => simp [Request.wanted?, content] at asks
    | proxy target =>
      have same : Wanted.proxy target = wanted := by simpa [Request.wanted?, content] using asks
      simp only [answer, content, same]
  | wait id =>
    obtain rfl := Option.some.inj asks
    rfl
  | _ => contradiction

/-- What a request does to those who wait. -/
inductive Arrival (run : Run) (request : Request) : Prop
  /-- What is asked for is not known, so one more waits. -/
  | joins {wanted : Wanted} (asks : request.wanted? = some wanted)
    (unknown : run.known wanted.subject = none)
    (reply : (run.answer request).1 = .waiting run.arrivals)
    (waiters : (run.answer request).2.waiters = run.waiters ++ [⟨run.arrivals, wanted⟩])
    (arrivals : (run.answer request).2.arrivals = run.arrivals + 1)
  /-- What is asked for is known. -/
  | told {wanted : Wanted} {c : Classification} (asks : request.wanted? = some wanted)
    (known : run.known wanted.subject = some c)
    (reply : (run.answer request).1 = .got (wanted.answer c))
    (waiters : (run.answer request).2.waiters = run.waiters)
    (arrivals : (run.answer request).2.arrivals = run.arrivals)
  /-- Nothing is asked for that a classification decides on. -/
  | passes (asks : request.wanted? = none)
    (waiters : (run.answer request).2.waiters = run.waiters)
    (arrivals : (run.answer request).2.arrivals = run.arrivals)

theorem want_of_unknown (unknown : run.known wanted.subject = none) :
    run.want wanted = (.waiting run.arrivals,
      ⟨{ run.session with registry := run.session.registry.ensure wanted.subject },
        run.waiters ++ [⟨run.arrivals, wanted⟩], run.arrivals + 1⟩) := by
  unfold known at unknown
  unfold want Registry.await
  dsimp only
  rw [unknown]

theorem want_of_known (known : run.known wanted.subject = some c) :
    run.want wanted = (.got (wanted.answer c),
      { run with session :=
        { run.session with registry := run.session.registry.ensure wanted.subject } }) := by
  unfold Run.known at known
  unfold want Registry.await
  dsimp only
  rw [known]

theorem arrival (run : Run) (request : Request) : run.Arrival request := by
  cases asks : request.wanted? with
  | some wanted =>
    have wants := answer_of_wanted asks run
    cases known : run.known wanted.subject with
    | none =>
      have joins := wants.trans (want_of_unknown known)
      exact .joins asks known (by rw [joins]) (by rw [joins]) (by rw [joins])
    | some c =>
      have told := wants.trans (want_of_known known)
      exact .told asks known (by rw [told]) (by rw [told]) (by rw [told])
  | none =>
    cases request with
    | load id =>
      cases content : Session.loaded id with
      | proxy target => simp [Request.wanted?, content] at asks
      | ready text =>
        exact .passes asks (by simp only [answer, content]) (by simp only [answer, content])
    | wait id => contradiction
    | _ => exact .passes asks rfl rfl

/-- Those who wait are numbered in the order of arrival, and wait for what is not known. -/
structure Sound (run : Run) : Prop where
  ordered : run.waiters.Pairwise fun a b => a.number < b.number
  below : ∀ w ∈ run.waiters, w.number < run.arrivals
  unknown : ∀ w ∈ run.waiters, run.known w.wanted.subject = none

theorem sound_start (session : Session) : (start session).Sound :=
  ⟨List.Pairwise.nil, fun _ mem => absurd mem List.not_mem_nil,
    fun _ mem => absurd mem List.not_mem_nil⟩

theorem mem_release {w : Waiter} :
    w ∈ run.release.waiters ↔ w ∈ run.waiters ∧ run.known w.wanted.subject = none := by
  simp [release, got?, known]

theorem mem_settled : (number, value) ∈ run.settled ↔
    ∃ w ∈ run.waiters, w.number = number ∧
      ∃ c, run.known w.wanted.subject = some c ∧ value = w.wanted.answer c := by
  simp only [settled, got?, known, List.mem_filterMap, Option.map_map, Option.map_eq_some_iff,
    Function.comp_apply, Prod.mk.injEq]
  constructor
  · rintro ⟨w, mem, c, settled, same, rfl⟩
    exact ⟨w, mem, same, c, settled, rfl⟩
  · rintro ⟨w, mem, same, c, settled, rfl⟩
    exact ⟨w, mem, c, settled, same, rfl⟩

theorem arrivals_le_step (run : Run) (request : Request) :
    run.arrivals ≤ (run.step request).2.2.arrivals := by
  change run.arrivals ≤ (run.answer request).2.arrivals
  cases arrival run request with
  | joins asks unknown reply waiters arrivals => omega
  | told asks known reply waiters arrivals => exact Nat.le_of_eq arrivals.symm
  | passes asks waiters arrivals => exact Nat.le_of_eq arrivals.symm

/-- Who joins takes a number. -/
theorem arrivals_lt_of_unknown (asks : request.wanted? = some wanted)
    (unknown : run.known wanted.subject = none) :
    run.arrivals < (run.step request).2.2.arrivals := by
  have joins := (answer_of_wanted asks run).trans (want_of_unknown unknown)
  change run.arrivals < (run.answer request).2.arrivals
  rw [joins]
  exact Nat.lt_succ_self _

theorem arrivals_le_after (run : Run) (requests : List Request) :
    run.arrivals ≤ (run.after requests).arrivals := by
  induction requests generalizing run with
  | nil => exact Nat.le_refl _
  | cons request requests ih => exact Nat.le_trans (arrivals_le_step run request) (ih _)

/-- **Who waits after a request:** those who waited and who has joined, unless their module is known
now. -/
theorem mem_waiters_step {w : Waiter} : w ∈ (run.step request).2.2.waiters ↔
    (w ∈ run.waiters ∨ w.number = run.arrivals ∧ request.wanted? = some w.wanted ∧
      run.known w.wanted.subject = none) ∧
    (run.step request).2.2.known w.wanted.subject = none := by
  change w ∈ (run.answer request).2.release.waiters ↔ _
  rw [mem_release]
  refine and_congr_left fun _ => ?_
  cases arrival run request with
  | joins asks unknown reply waiters arrivals =>
    rw [waiters, List.mem_append, List.mem_singleton, asks]
    refine or_congr_right ⟨?_, ?_⟩
    · rintro rfl
      exact ⟨rfl, rfl, unknown⟩
    · rintro ⟨number, same, -⟩
      obtain rfl := Option.some.inj same
      cases w
      exact congrArg (Waiter.mk · _) number
  | told asks known reply waiters arrivals =>
    rw [waiters, asks]
    refine (or_iff_left ?_).symm
    rintro ⟨-, same, unknown⟩
    obtain rfl := Option.some.inj same
    exact Option.some_ne_none _ (known.symm.trans unknown)
  | passes asks waiters arrivals =>
    rw [waiters, asks]
    exact (or_iff_left fun joined => Option.some_ne_none _ joined.2.1.symm).symm

/-- **Who is answered with a request:** those who waited and whose module is known now. -/
theorem mem_answers_iff : (number, value) ∈ (run.step request).2.1 ↔
    ∃ w ∈ run.waiters, w.number = number ∧
      ∃ c, (run.step request).2.2.known w.wanted.subject = some c ∧
        value = w.wanted.answer c := by
  change (number, value) ∈ (run.answer request).2.settled ↔ _
  rw [mem_settled]
  cases arrival run request with
  | joins asks unknown reply waiters arrivals =>
    rw [waiters]
    refine ⟨?_, fun ⟨w, mem, rest⟩ => ⟨w, List.mem_append_left _ mem, rest⟩⟩
    rintro ⟨w, mem, same, c, settled, answer⟩
    rcases List.mem_append.mp mem with waited | joined
    · exact ⟨w, waited, same, c, settled, answer⟩
    · obtain rfl := List.mem_singleton.mp joined
      rw [known_answer, unknown, Session.settles?_of_wanted? asks] at settled
      contradiction
  | told asks known reply waiters arrivals =>
    rw [waiters]
    exact Iff.rfl
  | passes asks waiters arrivals =>
    rw [waiters]
    exact Iff.rfl

/-- Who joins comes last in the order of those who wait. -/
theorem Sound.ordered_answer (h : run.Sound) (request : Request) :
    (run.answer request).2.waiters.Pairwise fun a b => a.number < b.number := by
  cases arrival run request with
  | joins asks unknown reply waiters arrivals =>
    rw [waiters]
    refine List.pairwise_append.mpr ⟨h.ordered, List.pairwise_singleton _ _, ?_⟩
    intro a mem b joined
    obtain rfl := List.mem_singleton.mp joined
    exact h.below a mem
  | told asks known reply waiters arrivals => exact waiters ▸ h.ordered
  | passes asks waiters arrivals => exact waiters ▸ h.ordered

/-- A request keeps the order of those who wait. -/
theorem Sound.step (h : run.Sound) (request : Request) : (run.step request).2.2.Sound := by
  refine ⟨(h.ordered_answer request).filter _, ?_, fun w mem => (mem_waiters_step.mp mem).2⟩
  intro w mem
  rcases (mem_waiters_step.mp mem).1 with waited | ⟨number, asks, unknown⟩
  · exact Nat.lt_of_lt_of_le (h.below w waited) (arrivals_le_step run request)
  · rw [number]
    exact arrivals_lt_of_unknown asks unknown

theorem Sound.after (h : run.Sound) (requests : List Request) : (run.after requests).Sound := by
  induction requests generalizing run with
  | nil => exact h
  | cons request requests ih => exact ih (h.step request)

/-- Those who are answered together are answered once each, in the order of arrival. -/
theorem Sound.answers_ordered (h : run.Sound) (request : Request) :
    (run.step request).2.1.Pairwise fun a b => a.1 < b.1 := by
  refine List.pairwise_filterMap.mpr ((h.ordered_answer request).imp ?_)
  intro a b lt x given y given'
  obtain ⟨-, -, rfl⟩ := Option.map_eq_some_iff.mp given
  obtain ⟨-, -, rfl⟩ := Option.map_eq_some_iff.mp given'
  exact lt

/-- Who waits goes on waiting as long as their module is not known. -/
theorem Sound.mem_waiters_after (h : run.Sound) {w : Waiter} (below : w.number < run.arrivals)
    (requests : List Request) : w ∈ (run.after requests).waiters ↔
      w ∈ run.waiters ∧ (run.after requests).known w.wanted.subject = none := by
  induction requests generalizing run with
  | nil => exact (and_iff_left_of_imp fun mem => h.unknown w mem).symm
  | cons request requests ih =>
    have below' := Nat.lt_of_lt_of_le below (arrivals_le_step run request)
    rw [after_cons, ih (h.step request) below', mem_waiters_step, and_assoc]
    constructor
    · rintro ⟨waited | joined, -, unknown⟩
      · exact ⟨waited, unknown⟩
      · exact absurd joined.1 (Nat.ne_of_lt below)
    · rintro ⟨waited, unknown⟩
      exact ⟨.inl waited, unknown_of_unknown unknown, unknown⟩

/-- **Who joins waits until their module is known**, and nobody else has their number. -/
theorem Sound.mem_waiters_of_joined (h : run.Sound) (asks : request.wanted? = some wanted)
    (unknown : run.known wanted.subject = none) {w : Waiter} (number : w.number = run.arrivals)
    (later : List Request) : w ∈ ((run.step request).2.2.after later).waiters ↔
      w.wanted = wanted ∧ ((run.step request).2.2.after later).known wanted.subject = none := by
  have joins := arrivals_lt_of_unknown asks unknown
  rw [(h.step request).mem_waiters_after (number ▸ joins), mem_waiters_step, and_assoc]
  constructor
  · rintro ⟨waited | ⟨-, asks', -⟩, -, unknown'⟩
    · exact absurd number (Nat.ne_of_lt (h.below w waited))
    · obtain rfl := Option.some.inj (asks'.symm.trans asks)
      exact ⟨rfl, unknown'⟩
  · rintro ⟨rfl, unknown'⟩
    exact ⟨.inr ⟨number, asks, unknown⟩, unknown_of_unknown unknown', unknown'⟩

/-- Who has the number of somebody who has joined waits in the states after that only. -/
theorem Sound.lt_of_number (h : run.Sound) {w : Waiter}
    (waits : w ∈ (run.after (requests.take place)).waiters)
    (number : w.number = (run.after (requests.take asked)).arrivals) : asked < place := by
  refine Nat.lt_of_not_le fun le => ?_
  obtain ⟨between, comes⟩ := exists_after_take le run requests
  have early := (h.after (requests.take place)).below w waits
  have grows := arrivals_le_after (run.after (requests.take place)) between
  rw [← comes] at grows
  omega

/-! ## Requests about other modules -/

/-- Those who wait for a module. -/
def waitersFor (run : Run) (id : String) : List Waiter :=
  run.waiters.filter fun w => w.wanted.subject = id

theorem known_step_of_elsewhere (elsewhere : request.subject? ≠ some id) (run : Run) :
    (run.step request).2.2.known id = run.known id := by
  rw [known_step, Session.settles?_of_subject?_ne elsewhere, Option.or_none]

/-- **A request about another module leaves alone who waits for a module.** -/
theorem Sound.waitersFor_step (h : run.Sound) (elsewhere : request.subject? ≠ some id) :
    (run.step request).2.2.waitersFor id = run.waitersFor id := by
  have same := known_step_of_elsewhere elsewhere run
  have kept : (run.waiters.filter fun w => ((run.answer request).2.got? w).isNone).filter
      (fun w => w.wanted.subject = id) = run.waiters.filter fun w => w.wanted.subject = id := by
    rw [List.filter_filter]
    refine List.filter_congr fun w mem => ?_
    by_cases about : w.wanted.subject = id
    · have unknown : (run.answer request).2.known w.wanted.subject = none := by
        rw [about]
        exact same.trans (about ▸ h.unknown w mem)
      simp [about, got?, show (run.answer request).2.session.registry.peek id = none from
        about ▸ unknown]
    · simp [about]
  change ((run.answer request).2.waiters.filter fun w =>
    ((run.answer request).2.got? w).isNone).filter (fun w => w.wanted.subject = id) = _
  cases arrival run request with
  | @joins wanted asks unknown reply waiters arrivals =>
    have other : wanted.subject ≠ id := by
      rintro rfl
      exact elsewhere (Request.subject?_of_wanted? asks)
    have skipped : ([⟨run.arrivals, wanted⟩].filter fun w =>
        ((run.answer request).2.got? w).isNone).filter (fun w => w.wanted.subject = id) = [] := by
      refine List.filter_eq_nil_iff.mpr fun w mem => ?_
      obtain rfl := List.mem_singleton.mp (List.mem_filter.mp mem).1
      simpa using other
    rw [waiters, List.filter_append, List.filter_append, skipped, List.append_nil]
    exact kept
  | told asks known reply waiters arrivals =>
    rw [waiters]
    exact kept
  | passes asks waiters arrivals =>
    rw [waiters]
    exact kept

end Run

end ModuleInterop.Build
