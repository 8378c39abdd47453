import ModuleInterop.Build.Run
import ModuleInterop.Proofs.Build.Registry

/-!
# What a run finds out

A request can settle the classification of one module and make a record of it; which classification
and which record does not depend on what the run has found out before (`Session.settles?`,
`Session.records?`).  So after a list of requests the classification of a module is the one that was
settled first (`peek_after`), and its record the one that was made last (`record?_after`).
-/

set_option autoImplicit false

namespace ModuleInterop.Build

namespace Session

/-- The classification that an outcome settles. -/
def Outcome.classification : Outcome → Classification
  | .unseen | .failed _ => .unknown
  | .unchanged record | .converted record _ | .mismatch record => record.classification

/-- The record that is kept with an outcome. -/
def Outcome.record? : Outcome → Option ModuleRecord
  | .unseen | .failed _ => none
  | .unchanged record | .converted record _ | .mismatch record => some record

/-- The classification that is settled is that of the record. -/
theorem Outcome.classification_of_record? {result : Outcome} {record : ModuleRecord}
    (kept : result.record? = some record) : result.classification = record.classification := by
  cases result with
  | unseen => contradiction
  | failed failure => contradiction
  | unchanged own => exact congrArg ModuleRecord.classification (Option.some.inj kept)
  | converted own output => exact congrArg ModuleRecord.classification (Option.some.inj kept)
  | mismatch own => exact congrArg ModuleRecord.classification (Option.some.inj kept)

/-- A session of a build without source maps that has found out nothing yet. -/
def fresh : Session :=
  ⟨{ Build.Options.default with sourceMap := false }, ⟨[], [], [".js"]⟩, [], .empty, []⟩

/-- What becomes of a module in a session. -/
def outcomeOf (session : Session) (code id : String) (isEntry : Bool) : Outcome :=
  outcome session.options session.filter code.toList id isEntry

section Absorb

variable (session : Session) (id : String) (result : Outcome)

/-- What is done with an outcome settles its classification, unless there is one. -/
theorem known_absorb (other : String) :
    (session.absorb id result).registry.peek other =
      (session.registry.peek other).or
        (if id = other then some result.classification else none) := by
  cases result with
  | _ => exact Registry.peek_settle session.registry id _ other

/-- The record of an outcome takes the place of the one that there was. -/
theorem record?_absorb (other : String) :
    (session.absorb id result).record? other =
      (if id = other then result.record? else none).or (session.record? other) := by
  have kept (record : ModuleRecord) : (session.keep id record).record? other =
      (if id = other then some record else none).or (session.record? other) := by
    by_cases same : id = other <;> simp [keep, publish, record?, same]
  cases result with
  | unseen => by_cases same : id = other <;> simp [absorb, publish, record?, Outcome.record?]
  | failed failure =>
    by_cases same : id = other <;> simp [absorb, publish, record?, Outcome.record?]
  | unchanged record => exact kept record
  | converted record output => exact kept record
  | mismatch record => exact kept record

theorem options_absorb : (session.absorb id result).options = session.options := by
  cases result <;> rfl

theorem filter_absorb : (session.absorb id result).filter = session.filter := by
  cases result <;> rfl

end Absorb

/-- The classification that a request settles a module to, unless the module is settled already. -/
def settles? (session : Session) (id : String) : Request → Option Classification
  | .transform code target isEntry =>
    if target = id then some (session.outcomeOf code target isEntry).classification else none
  | .publish target c => if target = id then some c else none
  | .load _ | .wait _ | .peek _ | .record _ | .resolve _ _ => none

/-- The record that a request makes of a module. -/
def records? (session : Session) (id : String) : Request → Option ModuleRecord
  | .transform code target isEntry =>
    if target = id then (session.outcomeOf code target isEntry).record? else none
  | .load _ | .wait _ | .publish _ _ | .peek _ | .record _ | .resolve _ _ => none

/-- With a record its classification is settled. -/
theorem settles?_of_records? {session : Session} {id : String} {request : Request}
    {record : ModuleRecord} (makes : session.records? id request = some record) :
    session.settles? id request = some record.classification := by
  cases request with
  | transform code target isEntry =>
    simp only [records?] at makes
    split at makes
    · rename_i same
      exact (if_pos same).trans (congrArg some (Outcome.classification_of_record? makes))
    · contradiction
  | _ => contradiction

end Session

namespace Run

/-- The run after a list of requests. -/
def after (run : Run) (requests : List Request) : Run :=
  requests.foldl (fun run request => (run.step request).2.2) run

/-- What a run knows of a module. -/
def known (run : Run) (id : String) : Option Classification := run.session.registry.peek id

variable {run : Run} {request : Request} {requests : List Request} {id : String}

/-! ## What a request does -/

/-- Who asks for something makes a slot at most. -/
theorem session_want (run : Run) (wanted : Wanted) :
    (run.want wanted).2.session =
      { run.session with registry := run.session.registry.ensure wanted.subject } := by
  unfold want Registry.await
  dsimp only
  split <;> rfl

theorem known_want (run : Run) (wanted : Wanted) (id : String) :
    (run.want wanted).2.known id = run.known id := by
  unfold known
  rw [session_want]
  exact Registry.peek_ensure _ _ _

/-- What a request does to the session. -/
inductive Effect (run : Run) (request : Request) : Prop
  | transforms {code id : String} {isEntry : Bool} (same : request = .transform code id isEntry)
    (session : (run.answer request).2.session =
      run.session.absorb id (run.session.outcomeOf code id isEntry))
  | publishes {id : String} {c : Classification} (same : request = .publish id c)
    (session : (run.answer request).2.session =
      { run.session with registry := (run.session.registry.settle id c).2 })
  /-- Nothing is settled or recorded; there may be a new slot. -/
  | asks {registry : Registry} (settles : ∀ id, run.session.settles? id request = none)
    (records : ∀ id, run.session.records? id request = none)
    (known : ∀ id, (run.answer request).2.known id = run.known id)
    (session : (run.answer request).2.session = { run.session with registry })

theorem effect (run : Run) (request : Request) : run.Effect request := by
  cases request with
  | transform code target isEntry => exact .transforms rfl rfl
  | publish target c => exact .publishes rfl rfl
  | load target =>
    cases content : Session.loaded target with
    | ready text =>
      have answers : (run.answer (.load target)).2 = run := by
        simp only [answer, content]
      exact .asks (fun _ => rfl) (fun _ => rfl) (fun id => congrArg (Run.known · id) answers)
        (congrArg Run.session answers)
    | proxy target' =>
      have answers : run.answer (.load target) = run.want (.proxy target') := by
        simp only [answer, content]
      exact .asks (fun _ => rfl) (fun _ => rfl) (fun id => answers ▸ known_want run _ id)
        (answers ▸ session_want run _)
  | wait target => exact .asks (fun _ => rfl) (fun _ => rfl) (known_want run _) (session_want run _)
  | _ => exact .asks (fun _ => rfl) (fun _ => rfl) (fun _ => rfl) rfl

/-- **What a run knows after a request.** -/
theorem known_answer (run : Run) (request : Request) (id : String) :
    (run.answer request).2.known id = (run.known id).or (run.session.settles? id request) := by
  cases effect run request with
  | @transforms code target isEntry same session =>
    unfold known
    rw [session, same]
    exact Session.known_absorb run.session target _ id
  | @publishes target c same session =>
    unfold known
    rw [session, same]
    exact Registry.peek_settle run.session.registry target c id
  | asks settles records known session => rw [known, settles, Option.or_none]

/-- The record of a module after a request. -/
theorem record?_answer (run : Run) (request : Request) (id : String) :
    (run.answer request).2.session.record? id =
      (run.session.records? id request).or (run.session.record? id) := by
  cases effect run request with
  | @transforms code target isEntry same session =>
    rw [session, same]
    exact Session.record?_absorb run.session target _ id
  | publishes same session =>
    rw [session, same]
    rfl
  | asks settles records known session =>
    rw [records, Option.none_or, session]
    rfl

/-- Requests leave the options and the filter as they are, so they do not change what the next ones
settle and record. -/
theorem options_answer (run : Run) (request : Request) :
    (run.answer request).2.session.options = run.session.options ∧
      (run.answer request).2.session.filter = run.session.filter := by
  cases effect run request with
  | transforms same session =>
    rw [session]
    exact ⟨Session.options_absorb _ _ _, Session.filter_absorb _ _ _⟩
  | publishes same session =>
    rw [session]
    exact ⟨rfl, rfl⟩
  | asks settles records known session =>
    rw [session]
    exact ⟨rfl, rfl⟩

theorem known_step (run : Run) (request : Request) (id : String) :
    (run.step request).2.2.known id = (run.known id).or (run.session.settles? id request) :=
  known_answer run request id

theorem outcomeOf_step (run : Run) (request : Request) :
    (run.step request).2.2.session.outcomeOf = run.session.outcomeOf := by
  obtain ⟨options, filter⟩ := options_answer run request
  funext code id isEntry
  change Session.outcome (run.answer request).2.session.options
    (run.answer request).2.session.filter _ _ _ = _
  rw [options, filter]
  rfl

theorem settles?_step (run : Run) (request : Request) :
    (run.step request).2.2.session.settles? = run.session.settles? := by
  funext id next
  cases next <;> simp only [Session.settles?, outcomeOf_step]

theorem records?_step (run : Run) (request : Request) :
    (run.step request).2.2.session.records? = run.session.records? := by
  funext id next
  cases next <;> simp only [Session.records?, outcomeOf_step]

/-! ## What many requests do -/

theorem after_cons (run : Run) (request : Request) (requests : List Request) :
    run.after (request :: requests) = (run.step request).2.2.after requests := rfl

theorem after_append (run : Run) (requests others : List Request) :
    run.after (requests ++ others) = (run.after requests).after others :=
  List.foldl_append

theorem outcomeOf_after (run : Run) (requests : List Request) :
    (run.after requests).session.outcomeOf = run.session.outcomeOf := by
  induction requests generalizing run with
  | nil => rfl
  | cons request requests ih => rw [after_cons, ih, outcomeOf_step]

/-- **The classification that is settled first is the one that is known.** -/
theorem known_after (run : Run) (requests : List Request) (id : String) :
    (run.after requests).known id =
      (run.known id).or (requests.findSome? (run.session.settles? id)) := by
  induction requests generalizing run with
  | nil => exact Option.or_none.symm
  | cons request requests ih =>
    rw [after_cons, ih, known_step, settles?_step, Option.or_assoc, List.findSome?_cons]
    cases run.session.settles? id request <;> rfl

/-- **The record that is made last is the one that is kept.** -/
theorem record?_after (run : Run) (requests : List Request) (id : String) :
    (run.after requests).session.record? id =
      (requests.reverse.findSome? (run.session.records? id)).or (run.session.record? id) := by
  induction requests generalizing run with
  | nil => rfl
  | cons request requests ih =>
    have stepped := record?_answer run request id
    change (run.step request).2.2.session.record? id = _ at stepped
    rw [after_cons, ih, stepped, records?_step, List.reverse_cons, List.findSome?_append,
      Option.or_assoc, List.findSome?_singleton]

/-- What is known stays known. -/
theorem known_of_known {c : Classification} (h : run.known id = some c)
    (requests : List Request) : (run.after requests).known id = some c := by
  rw [known_after, h]
  rfl

theorem unknown_of_unknown (h : (run.after requests).known id = none) : run.known id = none := by
  rw [known_after] at h
  exact (Option.or_eq_none_iff.mp h).1

end Run

end ModuleInterop.Build
