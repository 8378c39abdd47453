import ModuleInterop.Proofs.Build.Waiting

/-!
# Who asks gets the first classification

Who asks for something that a classification decides on gets it at once, if the classification is
known, and otherwise in the one step that settles it (`Run.gets_iff`); if it is never settled, they
wait to the end (`Run.pending_iff`).  What is known is what was settled first, so
`Session.settled_once` says for every module, however many ask for it and settle it in whatever
order: the first settlement counts, and everybody gets it, in the step that makes it or, who asks
later, at once.
-/

set_option autoImplicit false

namespace ModuleInterop.Build

namespace Run

variable {run : Run} {request : Request} {requests : List Request} {wanted : Wanted}
  {asked place number : Nat} {value : Got} {id : String} {c : Classification}

/-! ## The answer to a request -/

/-- Whoever has asked with the request at one place gets a value in the step at another one. -/
inductive Gets (run : Run) (requests : List Request) (asked : Nat) : Nat → Got → Prop
  /-- The reply to the request is the value. -/
  | atOnce {value : Got} {answers : List (Nat × Got)}
    (told : (run.trace requests)[asked]? = some (.got value, answers)) :
    Gets run requests asked asked value
  /-- The reply to the request is a number, and the value is an answer to that number. -/
  | later {number place : Nat} {value : Got} {reply : Reply} {with' answers : List (Nat × Got)}
    (waits : (run.trace requests)[asked]? = some (.waiting number, with'))
    (heard : (run.trace requests)[place]? = some (reply, answers))
    (mem : (number, value) ∈ answers) : Gets run requests asked place value

/-- Whoever has asked with the request at a place still waits after all requests. -/
def Pending (run : Run) (requests : List Request) (asked : Nat) : Prop :=
  ∃ number answers, (run.trace requests)[asked]? = some (.waiting number, answers) ∧
    ∃ w ∈ (run.after requests).waiters, w.number = number

/-- How it ends for whoever has asked with the request at a place: they still wait and have got
nothing, or they have got one value and nothing else. -/
def Ends (run : Run) (requests : List Request) (asked : Nat) : Option Got → Prop
  | none => run.Pending requests asked ∧ ∀ place value, ¬ run.Gets requests asked place value
  | some value => ¬ run.Pending requests asked ∧
    ∀ other, (∃ place, run.Gets requests asked place other) ↔ other = value

theorem reply_of_known (asks : request.wanted? = some wanted)
    (known : run.known wanted.subject = some c) :
    (run.step request).1 = .got (wanted.answer c) := by
  have told := (answer_of_wanted asks run).trans (want_of_known known)
  exact congrArg Prod.fst told

theorem reply_of_unknown (asks : request.wanted? = some wanted)
    (unknown : run.known wanted.subject = none) :
    (run.step request).1 = .waiting run.arrivals := by
  have joins := (answer_of_wanted asks run).trans (want_of_unknown unknown)
  exact congrArg Prod.fst joins

theorem reply_publish (run : Run) (id : String) (c : Classification) :
    (run.step (.publish id c)).1 = .published (run.known id).isNone :=
  congrArg Reply.published (Registry.settle_first run.session.registry id c)

/-- Nothing more is known after a question. -/
theorem known_step_of_wanted (asks : request.wanted? = some wanted) (run : Run) (id : String) :
    (run.step request).2.2.known id = run.known id := by
  rw [known_step, Session.settles?_of_wanted? asks, Option.or_none]

/-- The number of somebody who waits is answered in the step after which their module is known for
the first time, and in no other one. -/
theorem gets_of_unknown (h : run.Sound) (found : requests[asked]? = some request)
    (asks : request.wanted? = some wanted)
    (unknown : (run.after (requests.take asked)).known wanted.subject = none) :
    run.Gets requests asked place value ↔
      ∃ c, (run.after (requests.take (place + 1))).known wanted.subject = some c ∧
        value = wanted.answer c ∧ asked < place ∧
        (run.after (requests.take place)).known wanted.subject = none := by
  have before := h.after (requests.take asked)
  have waits := getElem?_trace_of found run
  rw [reply_of_unknown asks unknown] at waits
  constructor
  · intro gets
    cases gets with
    | atOnce told => cases waits.symm.trans told
    | @later number _ _ reply others answers waits' heard mem =>
      obtain ⟨same, -⟩ := Prod.mk.inj (Option.some.inj (waits.symm.trans waits'))
      obtain rfl := Reply.waiting.inj same
      rw [getElem?_trace] at heard
      obtain ⟨settling, there, heard⟩ := Option.map_eq_some_iff.mp heard
      obtain ⟨-, rfl⟩ := Prod.mk.inj heard
      obtain ⟨w, waited, number, c, settled, rfl⟩ := mem_answers_iff.mp mem
      have lt := h.lt_of_number waited number
      obtain ⟨between, comes⟩ := exists_after_step found lt run
      rw [comes] at waited
      obtain ⟨rfl, unknown'⟩ := (before.mem_waiters_of_joined asks unknown number _).mp waited
      exact ⟨c, after_take_succ there run ▸ settled, rfl, lt, comes ▸ unknown'⟩
  · rintro ⟨c, settled, rfl, lt, unknown'⟩
    cases there : requests[place]? with
    | none =>
      have whole := List.getElem?_eq_none_iff.mp there
      rw [List.take_of_length_le whole] at unknown'
      rw [List.take_of_length_le (Nat.le_succ_of_le whole), unknown'] at settled
      contradiction
    | some settling =>
      refine .later waits (getElem?_trace_of there run) (mem_answers_iff.mpr ?_)
      obtain ⟨between, comes⟩ := exists_after_step found lt run
      refine ⟨⟨_, wanted⟩, ?_, rfl, c, after_take_succ there run ▸ settled, rfl⟩
      rw [comes] at unknown' ⊢
      exact (before.mem_waiters_of_joined asks unknown rfl between).mpr ⟨rfl, unknown'⟩

/-- **Who asks gets the answer of the classification**, at once if it is known, and otherwise in the
step that settles it. -/
theorem gets_iff (h : run.Sound) (found : requests[asked]? = some request)
    (asks : request.wanted? = some wanted) : run.Gets requests asked place value ↔
      ∃ c, (run.after (requests.take (place + 1))).known wanted.subject = some c ∧
        value = wanted.answer c ∧ (place = asked ∨ asked < place ∧
          (run.after (requests.take place)).known wanted.subject = none) := by
  have same : (run.after (requests.take (asked + 1))).known wanted.subject =
      (run.after (requests.take asked)).known wanted.subject := by
    rw [after_take_succ found, known_step_of_wanted asks]
  cases known : (run.after (requests.take asked)).known wanted.subject with
  | none =>
    rw [gets_of_unknown h found asks known]
    refine exists_congr fun c => and_congr_right fun settled => and_congr_right fun _ =>
      (or_iff_right ?_).symm
    rintro rfl
    rw [same, known] at settled
    contradiction
  | some first =>
    have told := getElem?_trace_of found run
    rw [reply_of_known asks known] at told
    constructor
    · intro gets
      cases gets with
      | atOnce told' =>
        obtain ⟨got, -⟩ := Prod.mk.inj (Option.some.inj (told.symm.trans told'))
        obtain rfl := Reply.got.inj got
        exact ⟨first, same.trans known, rfl, .inl rfl⟩
      | later waits heard mem => cases told.symm.trans waits
    · rintro ⟨c, settled, rfl, rfl | ⟨lt, unknown⟩⟩
      · obtain rfl := Option.some.inj ((same.trans known).symm.trans settled)
        exact .atOnce told
      · rw [known_take_of_known (Nat.le_of_lt lt) known] at unknown
        contradiction

/-- **Who asks still waits after all requests if nothing is known then.** -/
theorem pending_iff (h : run.Sound) (found : requests[asked]? = some request)
    (asks : request.wanted? = some wanted) :
    run.Pending requests asked ↔ (run.after requests).known wanted.subject = none := by
  obtain ⟨short, -⟩ := List.getElem?_eq_some_iff.mp found
  have heard := getElem?_trace_of found run
  cases known : (run.after (requests.take asked)).known wanted.subject with
  | none =>
    rw [reply_of_unknown asks known] at heard
    obtain ⟨later, comes⟩ := exists_after_step found short run
    rw [List.take_length] at comes
    have joined (w : Waiter) (number : w.number = (run.after (requests.take asked)).arrivals) :=
      (h.after (requests.take asked)).mem_waiters_of_joined asks known number later
    rw [← comes] at joined
    constructor
    · rintro ⟨number, answers, waits, w, mem, same⟩
      obtain ⟨reply, -⟩ := Prod.mk.inj (Option.some.inj (heard.symm.trans waits))
      obtain rfl := Reply.waiting.inj reply
      exact ((joined w same).mp mem).2
    · intro unknown
      exact ⟨_, _, heard, ⟨_, wanted⟩, (joined _ rfl).mpr ⟨rfl, unknown⟩, rfl⟩
  | some c =>
    rw [reply_of_known asks known] at heard
    rw [known_of_known_take known]
    refine iff_of_false ?_ (Option.some_ne_none c)
    rintro ⟨number, answers, waits, -⟩
    cases heard.symm.trans waits

/-- A classification that is known in the end has been settled in some step. -/
theorem exists_place_of_known (asked : Nat) (settled : (run.after requests).known id = some c) :
    ∃ place, (run.after (requests.take (place + 1))).known id = some c ∧
      (place = asked ∨ asked < place ∧ (run.after (requests.take place)).known id = none) := by
  -- If nothing is known after the question, the first place after it where something is known.
  cases known : (run.after (requests.take (asked + 1))).known id with
  | some first =>
    obtain rfl := Option.some.inj ((known_of_known_take known).symm.trans settled)
    exact ⟨asked, known, .inl rfl⟩
  | none =>
    have reaches (n : Nat) : (run.after (requests.take (asked + 1 + n))).known id = none ∨
        ∃ place, (run.after (requests.take (place + 1))).known id = some c ∧ asked < place ∧
          (run.after (requests.take place)).known id = none := by
      induction n with
      | zero => exact .inl known
      | succ n ih =>
        refine ih.elim (fun unknown => ?_) .inr
        cases next : (run.after (requests.take (asked + 1 + n + 1))).known id with
        | none => exact .inl rfl
        | some first =>
          obtain rfl := Option.some.inj ((known_of_known_take next).symm.trans settled)
          exact .inr ⟨asked + 1 + n, next, by omega, unknown⟩
    rcases reaches requests.length with unknown | ⟨place, first, rest⟩
    · rw [List.take_of_length_le (by omega), settled] at unknown
      contradiction
    · exact ⟨place, first, .inr rest⟩

/-- **How it ends for whoever asks:** with the answer of the classification that is known in the
end. -/
theorem ends_of_wanted (h : run.Sound) (found : requests[asked]? = some request)
    (asks : request.wanted? = some wanted) :
    run.Ends requests asked
      (((run.after requests).known wanted.subject).map fun c => wanted.answer c) := by
  have value_eq {place : Nat} {value : Got} (gets : run.Gets requests asked place value) :
      ∃ c, (run.after requests).known wanted.subject = some c ∧ value = wanted.answer c := by
    obtain ⟨c, settled, same, -⟩ := (gets_iff h found asks).mp gets
    exact ⟨c, known_of_known_take settled, same⟩
  cases known : (run.after requests).known wanted.subject with
  | none =>
    refine ⟨(pending_iff h found asks).mpr known, fun place value gets => ?_⟩
    obtain ⟨c, settled, -⟩ := value_eq gets
    rw [known] at settled
    contradiction
  | some c =>
    refine ⟨fun pending => ?_, fun other => ⟨?_, ?_⟩⟩
    · rw [(pending_iff h found asks).mp pending] at known
      contradiction
    · rintro ⟨place, gets⟩
      obtain ⟨c', settled, same⟩ := value_eq gets
      rw [same, Option.some.inj (known.symm.trans settled)]
    · rintro rfl
      obtain ⟨place, first, step⟩ := exists_place_of_known asked known
      exact ⟨place, (gets_iff h found asks).mpr ⟨c, first, rfl, step⟩⟩

/-- Nobody who has asked for a module is answered by a request about another one. -/
theorem not_gets_of_elsewhere (h : run.Sound) {place : Nat} {other : Request}
    (here : requests[place]? = some other) (elsewhere : other.subject? ≠ some wanted.subject)
    (found : requests[asked]? = some request) (asks : request.wanted? = some wanted) (value : Got) :
    ¬ run.Gets requests asked place value := by
  intro gets
  obtain ⟨c, settled, -, now⟩ := (gets_iff h found asks).mp gets
  rw [after_take_succ here, known_step_of_elsewhere elsewhere] at settled
  rcases now with rfl | ⟨-, nothing⟩
  · obtain rfl := Option.some.inj (here.symm.trans found)
    exact elsewhere (Request.subject?_of_wanted? asks)
  · rw [nothing] at settled
    contradiction

/-- Who asks for what no classification decides on has it at once. -/
theorem ends_of_ready {text : Option String} (found : requests[asked]? = some (.load id))
    (ready : Session.loaded id = .ready text) (run : Run) :
    run.Ends requests asked (some (.text text)) := by
  have told := getElem?_trace_of found run
  have reply (run : Run) : (run.step (.load id)).1 = .got (.text text) := by
    simp only [step, answer, ready]
  rw [reply] at told
  refine ⟨?_, fun other => ⟨?_, ?_⟩⟩
  · rintro ⟨number, answers, waits, -⟩
    cases told.symm.trans waits
  · rintro ⟨place, gets⟩
    cases gets with
    | atOnce told' =>
      obtain ⟨got, -⟩ := Prod.mk.inj (Option.some.inj (told.symm.trans told'))
      exact (Reply.got.inj got).symm
    | later waits heard mem => cases told.symm.trans waits
  · rintro rfl
    exact ⟨asked, .atOnce told⟩

end Run

/-! ## The first settlement -/

/-- The request at a place is the first one that settles a module. -/
structure Session.SettledAt (session : Session) (requests : List Request) (id : String)
    (place : Nat) (c : Classification) : Prop where
  first : (requests.take place).findSome? (session.settles? id) = none
  settles : requests[place]?.bind (session.settles? id) = some c

namespace Session

variable {session : Session} {requests : List Request} {id : String} {c : Classification}

/-- What is found first is found at a place before which nothing is found. -/
theorem findSome?_take_succ_iff {place : Nat} :
    (requests.take (place + 1)).findSome? (session.settles? id) = some c ↔
      ∃ first ≤ place, session.SettledAt requests id first c := by
  have next (n : Nat) : (requests.take (n + 1)).findSome? (session.settles? id) =
      ((requests.take n).findSome? (session.settles? id)).or
        (requests[n]?.bind (session.settles? id)) := by
    rw [List.take_add_one, List.findSome?_append]
    cases requests[n]? <;> simp
  induction place with
  | zero =>
    rw [next]
    constructor
    · intro found
      exact ⟨0, Nat.le_refl _, rfl, found⟩
    · rintro ⟨first, le, settled⟩
      obtain rfl := Nat.le_zero.mp le
      exact settled.settles
  | succ place ih =>
    rw [next]
    cases earlier : (requests.take (place + 1)).findSome? (session.settles? id) with
    | some c' =>
      rw [earlier] at ih
      rw [Option.some_or]
      refine ih.trans ⟨?_, ?_⟩
      · rintro ⟨first, le, settled⟩
        exact ⟨first, Nat.le_succ_of_le le, settled⟩
      · rintro ⟨first, le, settled⟩
        refine ⟨first, Nat.le_of_lt_succ (Nat.lt_of_le_of_ne le ?_), settled⟩
        rintro rfl
        exact Option.some_ne_none c' (earlier.symm.trans settled.first)
    | none =>
      rw [Option.none_or]
      constructor
      · intro found
        exact ⟨place + 1, Nat.le_refl _, earlier, found⟩
      · rintro ⟨first, le, settled⟩
        rcases Nat.lt_or_eq_of_le le with lt | rfl
        · rw [earlier] at ih
          exact absurd (ih.mpr ⟨first, Nat.le_of_lt_succ lt, settled⟩) (Option.some_ne_none c).symm
        · exact settled.settles

/-- Of a module that is not settled at first, the first settlement is known. -/
theorem known_of_unsettled (unsettled : session.registry.peek id = none) (requests : List Request) :
    ((Run.start session).after requests).known id = requests.findSome? (session.settles? id) := by
  rw [Run.known_after, show (Run.start session).known id = none from unsettled, Option.none_or]
  rfl

/-- Whoever asks for a module gets the first settlement in the step that makes it, or at once if they
ask later. -/
theorem gets_iff_settledAt {asked place : Nat} {request : Request} {wanted : Wanted} {value : Got}
    (unsettled : session.registry.peek wanted.subject = none)
    (found : requests[asked]? = some request) (asks : request.wanted? = some wanted) :
    (Run.start session).Gets requests asked place value ↔
      ∃ first c, session.SettledAt requests wanted.subject first c ∧ place = max asked first ∧
        value = wanted.answer c := by
  rw [Run.gets_iff (Run.sound_start session) found asks]
  simp only [known_of_unsettled unsettled]
  constructor
  · rintro ⟨c, settled, rfl, now⟩
    obtain ⟨first, le, settledAt⟩ := findSome?_take_succ_iff.mp settled
    refine ⟨first, c, settledAt, ?_, rfl⟩
    rcases now with rfl | ⟨lt, nothing⟩
    · exact (Nat.max_eq_left le).symm
    · -- If the module had been settled before, that would be known before the step.
      rcases Nat.lt_or_eq_of_le le with earlier | rfl
      · obtain ⟨before, rfl⟩ := Nat.exists_eq_add_of_lt earlier
        have found' := findSome?_take_succ_iff.mpr
          ⟨first, Nat.le_add_right first before, settledAt⟩
        rw [nothing] at found'
        contradiction
      · exact (Nat.max_eq_right (Nat.le_of_lt lt)).symm
  · rintro ⟨first, c, settledAt, rfl, rfl⟩
    refine ⟨c, findSome?_take_succ_iff.mpr ⟨first, Nat.le_max_right _ _, settledAt⟩, rfl, ?_⟩
    rcases Nat.lt_or_ge asked first with lt | ge
    · rw [Nat.max_eq_right (Nat.le_of_lt lt)]
      exact .inr ⟨lt, settledAt.first⟩
    · exact .inl (Nat.max_eq_left ge)

/-- **The first settlement of a module counts, and everybody gets it.**  For a module that is not
settled at first, and any list of requests:

* publishing a classification of the module succeeds exactly if nothing has settled it before;
* after any number of the requests the first settlement among them is known, and nothing before it;
* whoever asks for the module gets the first settlement in the step that makes it, or at once if
  they ask later, and gets nothing in any other step;
* in a step everybody is answered once at most;
* a request about another module changes neither what is known of the module nor who waits for it,
  and nobody who has asked for the module is answered with it. -/
theorem settled_once (unsettled : session.registry.peek id = none) (requests : List Request) :
    (∀ (place : Nat) (c : Classification), requests[place]? = some (.publish id c) →
      ∃ answers, ((Run.start session).trace requests)[place]? =
        some (.published ((requests.take place).findSome? (session.settles? id)).isNone, answers)) ∧
    (∀ place : Nat, ((Run.start session).after (requests.take place)).known id =
      (requests.take place).findSome? (session.settles? id)) ∧
    (∀ (asked : Nat) (request : Request) (wanted : Wanted), requests[asked]? = some request →
      request.wanted? = some wanted → wanted.subject = id → ∀ (place : Nat) (value : Got),
        (Run.start session).Gets requests asked place value ↔
          ∃ first c, session.SettledAt requests id first c ∧ place = max asked first ∧
            value = wanted.answer c) ∧
    (∀ (place : Nat) (reply : Reply) (answers : List (Nat × Got)),
      ((Run.start session).trace requests)[place]? = some (reply, answers) →
        answers.Pairwise fun a b => a.1 < b.1) ∧
    ∀ (place : Nat) (request : Request), requests[place]? = some request →
      request.subject? ≠ some id →
      ((Run.start session).after (requests.take (place + 1))).known id =
          ((Run.start session).after (requests.take place)).known id ∧
        ((Run.start session).after (requests.take (place + 1))).waitersFor id =
          ((Run.start session).after (requests.take place)).waitersFor id ∧
        ∀ (asked : Nat) (asking : Request) (wanted : Wanted), requests[asked]? = some asking →
          asking.wanted? = some wanted → wanted.subject = id → ∀ value : Got,
            ¬ (Run.start session).Gets requests asked place value := by
  have sound := Run.sound_start session
  refine ⟨?_, fun place => known_of_unsettled unsettled _, ?_, ?_, ?_⟩
  · intro place c found
    have heard := Run.getElem?_trace_of found (Run.start session)
    rw [Run.reply_publish, known_of_unsettled unsettled] at heard
    exact ⟨_, heard⟩
  · rintro asked request wanted found asks rfl place value
    exact gets_iff_settledAt unsettled found asks
  · intro place reply answers heard
    rw [Run.getElem?_trace] at heard
    obtain ⟨request, -, heard⟩ := Option.map_eq_some_iff.mp heard
    obtain ⟨-, rfl⟩ := Prod.mk.inj heard
    exact (sound.after (requests.take place)).answers_ordered request
  · intro place request found elsewhere
    refine ⟨?_, ?_, ?_⟩
    · rw [Run.after_take_succ found, Run.known_step_of_elsewhere elsewhere]
    · rw [Run.after_take_succ found]
      exact (sound.after (requests.take place)).waitersFor_step elsewhere
    · rintro asked asking wanted found' asks rfl value
      exact Run.not_gets_of_elsewhere sound found elsewhere found' asks value

/-- Somebody asks for a module, two publish a classification of it, and somebody asks again. -/
def publications : List Request :=
  [.wait "m.js", .publish "m.js" .cjs, .publish "m.js" .unknown, .wait "m.js"]

/-- Both who ask get the first publication, the first with the publication and the second at once,
and the second publication is refused. -/
theorem first_publication_counts :
    fresh.registry.peek "m.js" = none ∧
      (Run.start fresh).Gets publications 0 1 (.classification .cjs) ∧
      (Run.start fresh).Gets publications 3 3 (.classification .cjs) ∧
      ∃ answers, ((Run.start fresh).trace publications)[2]? = some (.published false, answers) := by
  obtain ⟨publishes, -, gets, -⟩ := @settled_once fresh "m.js" rfl publications
  have first : fresh.SettledAt publications "m.js" 1 .cjs := ⟨rfl, rfl⟩
  exact ⟨rfl, (gets 0 _ _ rfl rfl rfl 1 _).mpr ⟨1, .cjs, first, rfl, rfl⟩,
    (gets 3 _ _ rfl rfl rfl 3 _).mpr ⟨1, .cjs, first, rfl, rfl⟩, publishes 2 .unknown rfl⟩

end Session

end ModuleInterop.Build
