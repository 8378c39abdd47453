import ModuleInterop.Build.Session

/-!
# Runs of a build

A run is a session together with those who wait for a classification.  The host makes one request
after another; after each one, everybody who waits is asked in the order of arrival, and those whose
module has been settled get their answer.
-/

set_option autoImplicit false

namespace ModuleInterop.Build

/-- What is waited for: the classification of a module, or the text of its proxy. -/
inductive Wanted where
  | classification (id : String)
  | proxy (target : String)
  deriving DecidableEq, Repr

/-- The module whose classification decides. -/
def Wanted.subject : Wanted → String
  | .classification id => id
  | .proxy target => target

/-- What is got. -/
inductive Got where
  | classification (value : Classification)
  | text (value : Option String)
  deriving DecidableEq, Repr

/-- What is got once the classification is known. -/
def Wanted.answer (classification : Classification) : Wanted → Got
  | .classification _ => .classification classification
  | .proxy target => .text (some (Virtual.proxyModule target classification))

/-- Somebody who waits, with a number in the order of arrival. -/
structure Waiter where
  number : Nat
  wanted : Wanted
  deriving DecidableEq, Repr

/-- What the host can ask for. -/
inductive Request where
  | transform (code id : String) (isEntry : Bool)
  | load (id : String)
  | wait (id : String)
  | publish (id : String) (classification : Classification)
  | peek (id : String)
  | record (id : String)
  | resolve (importee : String) (importer : Option String)

/-- What the host is told at once. -/
inductive Reply where
  | transformed (result : Except Failure (Option TransformOutput))
  | got (value : Got)
  | waiting (number : Nat)
  | published (first : Bool)
  | state (classification : Option Classification)
  | record (record : Option ModuleRecord)
  | resolved (id : Option String) (asked : List Consultation)

/-- A session, those who wait in the order of arrival, and the number of the next one. -/
structure Run where
  session : Session
  waiters : List Waiter
  arrivals : Nat

namespace Run

/-- A run in which nothing has been asked for. -/
def start (session : Session) : Run := ⟨session, [], 0⟩

/-- Asks for what depends on a classification. -/
def want (run : Run) (wanted : Wanted) : Reply × Run :=
  let (known, registry) := run.session.registry.await wanted.subject
  let session := { run.session with registry }
  match known with
  | some classification => (.got (wanted.answer classification), { run with session })
  | none =>
    (.waiting run.arrivals,
      ⟨session, run.waiters ++ [⟨run.arrivals, wanted⟩], run.arrivals + 1⟩)

/-- Answers a request. -/
def answer (run : Run) : Request → Reply × Run
  | .transform code id isEntry =>
    let (result, session) := run.session.transform code id isEntry
    (.transformed result, { run with session })
  | .load id =>
    match Session.loaded id with
    | .ready text => (.got (.text text), run)
    | .proxy target => run.want (.proxy target)
  | .wait id => run.want (.classification id)
  | .publish id classification =>
    let (first, registry) := run.session.registry.settle id classification
    (.published first, { run with session := { run.session with registry } })
  | .peek id => (.state (run.session.registry.peek id), run)
  | .record id => (.record (run.session.record? id), run)
  | .resolve importee importer =>
    let (id, asked) := run.session.resolve importee importer
    (.resolved id asked, run)

/-- What a waiter gets, if the classification it waits for is known. -/
def got? (run : Run) (waiter : Waiter) : Option Got :=
  (run.session.registry.peek waiter.wanted.subject).map fun c => waiter.wanted.answer c

/-- Those who wait and can have their answer, with the answers. -/
def settled (run : Run) : List (Nat × Got) :=
  run.waiters.filterMap fun w => (run.got? w).map fun value => (w.number, value)

/-- A run without those who can have their answer. -/
def release (run : Run) : Run :=
  { run with waiters := run.waiters.filter fun w => (run.got? w).isNone }

/-- Takes a request: the reply, the answers for those who have waited, and the run after it. -/
def step (run : Run) (request : Request) : Reply × List (Nat × Got) × Run :=
  let (reply, next) := run.answer request
  (reply, next.settled, next.release)

end Run

end ModuleInterop.Build
