import ModuleInterop.Proofs.Build.Links

/-!
# Records and classifications

A module that has a record is settled, and the record is that of the last transformation that made
one, while the classification is that of the first settlement.  So they agree exactly if what was
settled before that transformation agrees with it (`Session.record_agrees_iff`), for instance if
nothing was.  A module that is transformed twice can have a record with another classification than
its own (`Session.record_disagrees`).
-/

set_option autoImplicit false

namespace ModuleInterop.Build.Session

variable {options : Options} {resolvers : List Resolver} {session : Session} {id : String}
  {record : ModuleRecord}

/-- A new session knows nothing. -/
theorem blank_of_ofOptions (made : ofOptions options resolvers = .ok session) :
    session.registry = .empty ∧ session.records = [] := by
  unfold ofOptions at made
  split at made
  · obtain rfl := Except.ok.inj made
    exact ⟨rfl, rfl⟩
  · contradiction

/-- **When records and classifications agree.**  In every state of a session, a module with a record
is settled, and its record is the one of the last request that made one.  Its classification is that
of the record exactly if all that was settled for it before that request is the same. -/
theorem record_agrees_iff (made : ofOptions options resolvers = .ok session)
    {requests : List Request}
    (kept : ((Run.start session).after requests).session.record? id = some record) :
    ∃ before request later, requests = before ++ request :: later ∧
      session.records? id request = some record ∧
      (∀ next ∈ later, session.records? id next = none) ∧
      (∃ c, ((Run.start session).after requests).known id = some c) ∧
      (((Run.start session).after requests).known id = some record.classification ↔
        ∀ c, before.findSome? (session.settles? id) = some c → c = record.classification) := by
  obtain ⟨registry, records⟩ := blank_of_ofOptions made
  have nothing : (Run.start session).session.record? id = none := by
    change (session.records.find? fun r => r.1 == id).map (·.2) = none
    rw [records]
    rfl
  have unknown : (Run.start session).known id = none := by
    change session.registry.peek id = none
    rw [registry]
    rfl
  rw [Run.record?_after, nothing, Option.or_none] at kept
  obtain ⟨later, request, before, order, makes, last⟩ := List.findSome?_eq_some_iff.mp kept
  have order : requests = before.reverse ++ request :: later.reverse := by
    rw [← List.reverse_reverse requests, order]
    simp
  refine ⟨before.reverse, request, later.reverse, order, makes,
    fun next mem => last next (List.mem_reverse.mp mem), ?_⟩
  have settles : session.settles? id request = some record.classification :=
    settles?_of_records? makes
  have known : ((Run.start session).after requests).known id =
      some ((before.reverse.findSome? (session.settles? id)).getD record.classification) := by
    have first : (Run.start session).session.settles? id = session.settles? id := rfl
    rw [Run.known_after, unknown, Option.none_or, first, order, List.findSome?_append,
      List.findSome?_cons, settles]
    cases before.reverse.findSome? (session.settles? id) <;> rfl
  rw [known]
  refine ⟨⟨_, rfl⟩, ?_⟩
  cases before.reverse.findSome? (session.settles? id) with
  | none => exact iff_of_true rfl nofun
  | some first =>
    constructor
    · intro same c given
      exact (Option.some.inj given).symm.trans (Option.some.inj same)
    · intro same
      exact congrArg some (same first rfl)

set_option maxRecDepth 4000 in
/-- A module that is transformed once has a record with its classification. -/
theorem record_of_one_transformation :
    ofOptions fresh.options [] = .ok fresh ∧
      ∃ record, ((Run.start fresh).after [.transform assigningCode "m.js" false]).session.record?
          "m.js" = some record ∧
        ((Run.start fresh).after [.transform assigningCode "m.js" false]).known "m.js" =
          some record.classification := by
  have kept : (((Run.start fresh).after [.transform assigningCode "m.js" false]).session.record?
      "m.js").isSome = true := by decide +kernel
  obtain ⟨record, kept⟩ := Option.isSome_iff_exists.mp kept
  obtain ⟨before, request, later, order, -, -, -, agrees⟩ :=
    record_agrees_iff (show ofOptions fresh.options [] = .ok fresh from rfl) kept
  refine ⟨rfl, record, kept, agrees.mpr ?_⟩
  cases before with
  | nil => exact nofun
  | cons first before => cases before <;> cases order

/-- A module is transformed, and once more with another text. -/
def twice : List Request :=
  [.transform assigningCode "m.js" false, .transform "export default 1;" "m.js" false]

set_option maxRecDepth 4000 in
/-- The second transformation changes the record of a module, and not its classification. -/
theorem record_disagrees :
    ofOptions fresh.options [] = .ok fresh ∧
      ∃ record, ((Run.start fresh).after twice).session.record? "m.js" = some record ∧
        record.classification = .esmWithDefault ∧
        ((Run.start fresh).after twice).known "m.js" = some .cjs ∧
        ¬ ((Run.start fresh).after twice).known "m.js" = some record.classification := by
  have run : (((Run.start fresh).after twice).session.record? "m.js").map
        ModuleRecord.classification = some .esmWithDefault ∧
      ((Run.start fresh).after twice).known "m.js" = some .cjs := by decide +kernel
  obtain ⟨record, kept, classified⟩ := Option.map_eq_some_iff.mp run.1
  refine ⟨rfl, record, kept, classified, run.2, ?_⟩
  rw [run.2, classified]
  exact nofun

end ModuleInterop.Build.Session
