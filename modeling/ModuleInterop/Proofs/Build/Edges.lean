import ModuleInterop.Proofs.Build.Answers

/-!
# Proxied edges

An import of a proxy stands for an edge of the module graph: somebody requires a target.  Resolving
it always gives an id (`Edge`): the proxy of an external module, if the target is configured to be
external or no resolver answers, and otherwise the proxy of what the first resolver that answers gives.
The resolvers are asked in order up to the first answer, each one once, and none of them sees a
prefix.

The id that comes out can be loaded (`proxied_edge_resolves`): an external proxy at once, and the
proxy of a module with the classification under which the module is, or will be, settled.
-/

set_option autoImplicit false

namespace ModuleInterop.Build

open ModuleInterop.Virtual

/-! ## Who is asked -/

/-- What the first `count` resolvers of a chain, the first one having a number, are asked for. -/
def consultations (importee : String) (importer : Option String) (first count : Nat) :
    List Consultation :=
  (List.range' first count).map fun n => ⟨n, importee, importer⟩

/-- A resolver of a chain is the first one that answers. -/
structure FirstAnswer (resolvers : List Resolver) (importee : String) (importer : Option String)
    (place : Nat) (answer : String) : Prop where
  answers : resolvers[place]?.bind (fun resolver => resolver importee importer) = some answer
  before : ∀ earlier < place,
    resolvers[earlier]?.bind (fun resolver => resolver importee importer) = none

/-- No resolver of a chain answers. -/
def Unanswered (resolvers : List Resolver) (importee : String) (importer : Option String) : Prop :=
  ∀ resolver ∈ resolvers, resolver importee importer = none

section Chain

variable {importee : String} {importer : Option String} {resolvers : List Resolver}
  {place : Nat} {answer : String}

/-- With a resolver before it that does not answer, the first answer comes one place later. -/
theorem FirstAnswer.later {resolver : Resolver} (silent : resolver importee importer = none)
    (h : FirstAnswer resolvers importee importer place answer) :
    FirstAnswer (resolver :: resolvers) importee importer (place + 1) answer := by
  refine ⟨h.answers, fun earlier lt => ?_⟩
  cases earlier with
  | zero => exact silent
  | succ earlier => exact h.before earlier (Nat.lt_of_succ_lt_succ lt)

/-- A chain has a first answer or none. -/
theorem unanswered_or_firstAnswer (importee : String) (importer : Option String)
    (resolvers : List Resolver) : Unanswered resolvers importee importer ∨
      ∃ place answer, FirstAnswer resolvers importee importer place answer := by
  induction resolvers with
  | nil => exact .inl fun _ mem => absurd mem List.not_mem_nil
  | cons resolver resolvers ih =>
    cases told : resolver importee importer with
    | some answer => exact .inr ⟨0, answer, told, fun _ lt => absurd lt (Nat.not_lt_zero _)⟩
    | none =>
      rcases ih with unanswered | ⟨place, answer, first⟩
      · refine .inl fun other mem => ?_
        rcases List.mem_cons.mp mem with rfl | mem
        · exact told
        · exact unanswered other mem
      · exact .inr ⟨place + 1, answer, first.later told⟩

/-- A chain that answers does not leave the question open. -/
theorem FirstAnswer.not_unanswered (h : FirstAnswer resolvers importee importer place answer) :
    ¬ Unanswered resolvers importee importer := by
  intro unanswered
  obtain ⟨resolver, found, told⟩ := Option.bind_eq_some_iff.mp h.answers
  rw [unanswered resolver (List.mem_of_getElem? found)] at told
  contradiction

/-- **Where nobody answers, everybody is asked.** -/
theorem consultFrom_of_unanswered (unanswered : Unanswered resolvers importee importer)
    (first : Nat) : consultFrom importee importer first resolvers =
      (none, consultations importee importer first resolvers.length) := by
  induction resolvers generalizing first with
  | nil => rfl
  | cons resolver resolvers ih =>
    have silent := unanswered resolver List.mem_cons_self
    have others := ih (fun other mem => unanswered other (List.mem_cons_of_mem _ mem)) (first + 1)
    simp only [consultFrom, silent, others]
    rfl

/-- **Resolvers are asked up to the first one that answers.** -/
theorem consultFrom_of_firstAnswer (h : FirstAnswer resolvers importee importer place answer)
    (first : Nat) : consultFrom importee importer first resolvers =
      (some answer, consultations importee importer first (place + 1)) := by
  induction resolvers generalizing first place with
  | nil => cases h.answers
  | cons resolver resolvers ih =>
    cases place with
    | zero =>
      have told : resolver importee importer = some answer := h.answers
      simp only [consultFrom, told]
      rfl
    | succ place =>
      have silent : resolver importee importer = none := h.before 0 (Nat.succ_pos place)
      have rest : FirstAnswer resolvers importee importer place answer :=
        ⟨h.answers, fun earlier lt => h.before (earlier + 1) (Nat.succ_lt_succ lt)⟩
      simp only [consultFrom, silent, ih rest (first + 1)]
      rfl

end Chain

/-! ## Prefixes -/

/-- An importer is given as the id of a module, or as the id of its proxy. -/
inductive GivenFor : Option String → Option String → Prop
  | nobody : GivenFor none none
  | module {id : String} (plain : after? proxyPrefix id = none) : GivenFor (some id) (some id)
  | proxy (id : String) : GivenFor (some (proxyId id)) (some id)

/-- The prefix of a proxy is taken off an importer. -/
theorem givenFor_withoutProxy (given : Option String) :
    GivenFor given (given.map withoutProxy) := by
  cases given with
  | none => exact .nobody
  | some id =>
    cases stripped : after? proxyPrefix id with
    | none =>
      have same : withoutProxy id = id := by rw [withoutProxy, stripped]; rfl
      rw [Option.map_some, same]
      exact .module stripped
    | some plain =>
      have whole : id = proxyId plain := by
        obtain ⟨rest, drops, rfl⟩ := Option.map_eq_some_iff.mp stripped
        refine String.toList_inj.mp ?_
        rw [Text.dropLeading?_eq_some_iff.mp drops]
        simp [proxyId]
      have same : withoutProxy id = plain := by rw [withoutProxy, stripped]; rfl
      rw [Option.map_some, same, whole]
      exact .proxy plain

/-- The id of a proxy is not that of an external one. -/
theorem proxyId_ne_externalId (id target : String) : proxyId id ≠ externalId target := by
  intro same
  have drop := congrArg (fun s : String => (s.toList.drop 10).head?) same
  simp [proxyId, externalId, proxyPrefix, externalPrefix] at drop

theorem loaded_externalId (target : String) :
    Session.loaded (externalId target) = .ready (some (externalProxy target)) := by
  have other : externalId target ≠ helpersId := by
    intro same
    have drop := congrArg (fun s : String => (s.toList.drop 9).head?) same
    simp [externalId, helpersId, externalPrefix] at drop
  have target_eq : after? externalPrefix (externalId target) = some target := after?_append _ _
  rw [Session.loaded, if_neg other, target_eq]

theorem loaded_proxyId (id : String) : Session.loaded (proxyId id) = .proxy id := by
  have other : proxyId id ≠ helpersId := by
    intro same
    have drop := congrArg (fun s : String => (s.toList.drop 9).head?) same
    simp [proxyId, helpersId, proxyPrefix] at drop
  have outside : after? externalPrefix (proxyId id) = none := by
    simp [after?, proxyId, externalPrefix, proxyPrefix, Text.dropLeading?]
  have id_eq : after? proxyPrefix (proxyId id) = some id := after?_append _ _
  simp only [Session.loaded, if_neg other, outside, id_eq]

/-! ## Edges -/

namespace Session

/-- What an edge to a target resolves to, and who is asked for it. -/
inductive Edge (session : Session) (target : String) (importer : Option String) :
    String → List Consultation → Prop
  /-- The target is configured to be external, and nobody is asked. -/
  | external (configured : session.options.isExternal target = true) :
    Edge session target importer (externalId target) []
  /-- Nobody answers, and everybody has been asked. -/
  | unanswered (inside : session.options.isExternal target = false)
    (silent : Unanswered session.resolvers target importer) :
    Edge session target importer (externalId target)
      (consultations target importer 0 session.resolvers.length)
  /-- The first answer counts, and nobody after it is asked. -/
  | answered {place : Nat} {answer : String} (inside : session.options.isExternal target = false)
    (first : FirstAnswer session.resolvers target importer place answer) :
    Edge session target importer (proxyId answer) (consultations target importer 0 (place + 1))

/-- What becomes of the request at a place, which loads the id of an edge to a target. -/
inductive Loads (session : Session) (target : String) (requests : List Request) (place : Nat) :
    String → Prop
  /-- The external proxy is there at once. -/
  | external
    (now : (Run.start session).Gets requests place place (.text (some (externalProxy target))))
    (ends : (Run.start session).Ends requests place
      (some (.text (some (externalProxy target))))) :
    Loads session target requests place (externalId target)
  /-- The proxy of a module is there at once, if the module is settled, and otherwise in the step that
  settles it; it waits as long as nothing does. -/
  | proxy {id : String}
    (gets : ∀ (step : Nat) (value : Got), (Run.start session).Gets requests place step value ↔
      ∃ c, ((Run.start session).after (requests.take (step + 1))).known id = some c ∧
        value = .text (some (proxyModule id c)) ∧ (step = place ∨ place < step ∧
          ((Run.start session).after (requests.take step)).known id = none))
    (ends : (Run.start session).Ends requests place
      ((((Run.start session).after requests).known id).map fun c =>
        .text (some (proxyModule id c)))) :
    Loads session target requests place (proxyId id)

variable {session : Session} {target id : String} {importer : Option String}
  {asked : List Consultation} {requests : List Request} {place : Nat}

/-- Every edge leads somewhere. -/
theorem exists_edge (session : Session) (target : String) (given : Option String) :
    ∃ id asked, session.resolve (proxyId target) given = (some id, asked) ∧
      session.Edge target (given.map withoutProxy) id asked := by
  have target_eq : after? proxyPrefix (proxyId target) = some target := after?_append _ _
  simp only [resolve, resolveId, target_eq, resolveProxied]
  cases configured : session.options.isExternal target with
  | true => exact ⟨_, _, rfl, .external configured⟩
  | false =>
    rcases unanswered_or_firstAnswer target (given.map withoutProxy) session.resolvers with
      silent | ⟨place, answer, first⟩
    · rw [consultFrom_of_unanswered silent]
      exact ⟨_, _, rfl, .unanswered configured silent⟩
    · rw [consultFrom_of_firstAnswer first]
      exact ⟨_, _, rfl, .answered configured first⟩

/-- An edge leads out of the build if its target is configured to be external, or nobody answers. -/
theorem Edge.eq_externalId_iff (h : session.Edge target importer id asked) :
    id = externalId target ↔
      session.options.isExternal target = true ∨ Unanswered session.resolvers target importer := by
  cases h with
  | external configured => exact iff_of_true rfl (.inl configured)
  | unanswered inside silent => exact iff_of_true rfl (.inr silent)
  | answered inside first =>
    refine iff_of_false (proxyId_ne_externalId _ _) fun leaves => leaves.elim (fun configured => ?_)
      first.not_unanswered
    rw [inside] at configured
    contradiction

theorem loads_externalId (found : requests[place]? = some (.load (externalId target))) :
    session.Loads target requests place (externalId target) := by
  have ends := Run.ends_of_ready found (loaded_externalId target) (Run.start session)
  obtain ⟨step, gets⟩ := (ends.2 _).mpr rfl
  refine .external ?_ ends
  cases gets with
  | atOnce told => exact .atOnce told
  | later waits heard mem =>
    have told := Run.getElem?_trace_of found (Run.start session)
    simp only [Run.step, Run.answer, loaded_externalId] at told
    cases told.symm.trans waits

theorem loads_proxyId (target : String) (found : requests[place]? = some (.load (proxyId id))) :
    session.Loads target requests place (proxyId id) := by
  have asks : (Request.load (proxyId id)).wanted? = some (.proxy id) := by
    simp only [Request.wanted?, loaded_proxyId]
  have sound := Run.sound_start session
  exact .proxy (fun step value => Run.gets_iff sound found asks)
    (Run.ends_of_wanted sound found asks)

/-- The id of an edge can be loaded. -/
theorem Edge.loads (h : session.Edge target importer id asked)
    (found : requests[place]? = some (.load id)) : session.Loads target requests place id := by
  cases h with
  | external configured => exact loads_externalId found
  | unanswered inside silent => exact loads_externalId found
  | answered inside first => exact loads_proxyId target found

/-- Whoever loads the proxy of a module gets it in the step that settles the module, if that comes
later. -/
theorem Loads.gets_when_settled {step : Nat} {c : Classification}
    (h : session.Loads target requests place (proxyId id)) (later : place < step)
    (unknown : ((Run.start session).after (requests.take step)).known id = none)
    (settled : ((Run.start session).after (requests.take (step + 1))).known id = some c) :
    (Run.start session).Gets requests place step (.text (some (proxyModule id c))) := by
  generalize same : proxyId id = whole at h
  cases h with
  | external now ends => exact absurd same (proxyId_ne_externalId _ _)
  | @proxy id' gets ends =>
    obtain rfl : id = id' := by
      have stripped := congrArg (after? proxyPrefix) same
      rw [proxyId, after?_append, proxyId, after?_append] at stripped
      exact Option.some.inj stripped
    exact (gets step _).mpr ⟨c, settled, rfl, .inr ⟨later, unknown⟩⟩

/-- **Every proxied edge can be resolved and loaded.**  For every session, every target and every
importer, which may be given by the id of its proxy:

* resolving the proxy of the target gives an id, in one of three ways (`Edge`), and the resolvers that
  are asked get the target and the importer without their prefixes;
* the id is that of the external proxy exactly if the target is configured to be external or no
  resolver answers;
* whoever loads the id gets the external proxy at once, or the proxy of the module that the first
  answer names, with the classification under which that module is, or will be, settled. -/
theorem proxied_edge_resolves (session : Session) (target : String) (given : Option String) :
    ∃ importer, GivenFor given importer ∧ ∃ id asked,
      session.resolve (proxyId target) given = (some id, asked) ∧
      session.Edge target importer id asked ∧
      (id = externalId target ↔ session.options.isExternal target = true ∨
        Unanswered session.resolvers target importer) ∧
      ∀ (requests : List Request) (place : Nat), requests[place]? = some (.load id) →
        session.Loads target requests place id := by
  obtain ⟨id, asked, resolved, edge⟩ := exists_edge session target given
  exact ⟨_, givenFor_withoutProxy given, id, asked, resolved, edge, edge.eq_externalId_iff,
    fun _ _ found => edge.loads found⟩

/-- A build whose first resolver answers nothing and whose second one puts a directory before the
target. -/
def twoResolvers : Session :=
  { fresh with resolvers := [fun _ _ => none, fun importee _ => some ("/src/" ++ importee)] }

/-- Somebody loads the proxy of the module that the target resolves to, and then it is settled. -/
def loadThenPublish : List Request :=
  [.load (proxyId "/src/dep"), .publish "/src/dep" .cjs]

/-- The edge from a module, given by its proxy, to `dep` leads to the module that the second resolver
names, and whoever loads its proxy gets it when the module is settled. -/
theorem second_resolver_answers :
    twoResolvers.resolve (proxyId "dep") (some (proxyId "main.js")) =
        (some (proxyId "/src/dep"), [⟨0, "dep", some "main.js"⟩, ⟨1, "dep", some "main.js"⟩]) ∧
      loadThenPublish[0]? = some (.load (proxyId "/src/dep")) ∧
      (Run.start twoResolvers).Gets loadThenPublish 0 1
        (.text (some (proxyModule "/src/dep" .cjs))) := by
  obtain ⟨importer, -, id, asked, resolved, -, -, loads⟩ :=
    proxied_edge_resolves twoResolvers "dep" (some (proxyId "main.js"))
  have run : twoResolvers.resolve (proxyId "dep") (some (proxyId "main.js")) =
      (some (proxyId "/src/dep"), [⟨0, "dep", some "main.js"⟩, ⟨1, "dep", some "main.js"⟩]) := by
    decide +kernel
  obtain ⟨same, -⟩ := Prod.mk.inj (resolved.symm.trans run)
  obtain rfl := Option.some.inj same
  have loaded := loads loadThenPublish 0 rfl
  exact ⟨run, rfl, loaded.gets_when_settled Nat.zero_lt_one rfl rfl⟩

end Session

end ModuleInterop.Build
