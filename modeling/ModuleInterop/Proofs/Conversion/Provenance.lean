import ModuleInterop.Proofs.Conversion.Answer
import ModuleInterop.Proofs.Patch.Cut
import ModuleInterop.Proofs.Usage.Own

/-!
# Where edits and names come from

Answers say that each use gets what it calls for; here is the converse.  Every edit that a run
records is one that a use of the run calls for, and where it takes text out it takes out a statement, or
variables that go (`foldl_vacates`).  The name of every required module was chosen by a use of the run:
it is that of the variable whose place it takes, or it has a running number that was free where the use
stands (`foldl_names`).
-/

set_option autoImplicit false

namespace ModuleInterop.Conversion

open ModuleInterop.Syntax ModuleInterop.Scope ModuleInterop.Usage ModuleInterop.Patch
  ModuleInterop.Virtual

/-- An edit that takes text out and leaves no more than an empty statement. -/
def Removes (edit : Edit) : Prop := edit.content = [] ∨ edit.content = ";".toList

/-- The edit that takes a statement out.  Where a statement has to stand, it leaves an empty one. -/
def vacancy (span : Span) (home : Home) : Edit :=
  if home.allowsNone then deletion span.start span.stop else replacement span ";"

theorem removes_vacancy (span : Span) (home : Home) : Removes (vacancy span home) := by
  unfold vacancy
  split
  · exact .inl rfl
  · exact .inr rfl

/-- An edit that takes out what a use takes out: its statement, or a declaration whose variables all go,
or a stretch with some of the variables of a declaration. -/
inductive Vacates (elided : List Span) : Use → Edit → Prop
  | statement {call : RequireCall} {span : Span} {home : Home} :
      Vacates elided (.requiring call (some (span, home))) (vacancy span home)
  | declaration {span : Span} {home : Home} {spans : List Span} : spans ≠ [] → spans ⊆ elided →
      Vacates elided (.declared span home spans) (vacancy span home)
  | variables {span : Span} {home : Home} {spans gone : List Span} {r : Nat × Nat} : gone ⊆ elided →
      (∃ s ∈ spans, s ∉ gone) → r ∈ elisionRanges (spans.map fun s => (s, gone.contains s)) →
      Vacates elided (.declared span home spans) (deletion r.1 r.2)

/-- What is taken out stays so when more variables go. -/
theorem Vacates.mono {elided more : List Span} (h : elided ⊆ more) {use : Use} {edit : Edit}
    (vacates : Vacates elided use edit) : Vacates more use edit := by
  cases vacates with
  | statement => exact .statement
  | declaration some gone => exact .declaration some (List.Subset.trans gone h)
  | «variables» gone kept mem => exact .variables (List.Subset.trans gone h) kept mem

theorem Vacates.removes {elided : List Span} {use : Use} {edit : Edit}
    (vacates : Vacates elided use edit) : Removes edit := by
  cases vacates with
  | statement | declaration => exact removes_vacancy _ _
  | «variables» => exact .inl rfl

/-- Whether a use takes text out. -/
def takesOut : Use → Bool
  | .requiring _ (some _) | .declared _ _ _ => true
  | _ => false

namespace Findings

/-- An edit that a use calls for, given the required modules in the findings. -/
inductive Calls (frame : Frame) (findings : Findings) : Use → Edit → Prop
  | require {span : Span} {shorthand : Bool} :
      Calls frame findings (.name .require span shorthand)
        (replacement span (renamed .require shorthand
          (frame.helper (requireHelper frame.options.allowDynamicRequire))))
  | global {span : Span} {shorthand : Bool} : frame.options.ignoreGlobal = false →
      Calls frame findings (.name .global span shorthand)
        (replacement span (renamed .global shorthand (frame.helper globalHelper)))
  | define {span : Span} {shorthand : Bool} :
      Calls frame findings (.name .define span shorthand)
        (replacement span (renamed .define shorthand "undefined"))
  | outerThis {span : Span} : frame.options.ignoreGlobal = false →
      Calls frame findings (.outerThis span) (replacement span (frame.helper globalHelper))
  | question {span : Span} {root : ModuleName} :
      Calls frame findings (.typeofValue span root) (replacement span "'object'")
  | call {call : RequireCall} {entry : RequiredModule} :
      findings.find? call.target = some entry →
      Calls frame findings (.requiring call none) (replacement call.span entry.name)
  | statement {call : RequireCall} {statement : Span × Home} {edit : Edit} : Removes edit →
      Calls frame findings (.requiring call (some statement)) edit
  | variable {span : Span} {name : String} {call : RequireCall} {entry : RequiredModule} :
      findings.find? call.target = some entry → entry.name ≠ name →
      Calls frame findings (.requiredVariable span name call) (replacement call.span entry.name)
  | declared {span : Span} {home : Home} {declarators : List Span} {edit : Edit} : Removes edit →
      Calls frame findings (.declared span home declarators) edit

variable {frame : Frame} {findings : Findings} {edit : Edit}

/-- What is called for stays called for. -/
theorem Calls.mono {before after : Findings} (h : Grows before after) {use : Use}
    (called : before.Calls frame use edit) : after.Calls frame use edit := by
  cases called with
  | require => exact .require
  | global heeded => exact .global heeded
  | define => exact .define
  | outerThis heeded => exact .outerThis heeded
  | question => exact .question
  | call found =>
    obtain ⟨later, found, name, -⟩ := h.required _ _ found
    exact name ▸ .call found
  | statement removes => exact .statement removes
  | «variable» found other =>
    obtain ⟨later, found, name, -⟩ := h.required _ _ found
    rw [← name] at other ⊢
    exact .variable found other
  | declared removes => exact .declared removes

/-! ## The edits of a step -/

/-- The edits after a replacement. -/
theorem mem_replace {span : Span} {text : String}
    (mem : edit ∈ (findings.replace span text).edits) :
    edit ∈ findings.edits ∨ edit = replacement span text := by
  rcases List.mem_append.mp mem with earlier | last
  · exact .inl earlier
  · exact .inr (List.mem_singleton.mp last)

/-- The edits after a deletion. -/
theorem mem_delete {start stop : Nat} (mem : edit ∈ (findings.delete start stop).edits) :
    edit ∈ findings.edits ∨ edit = deletion start stop := by
  unfold delete remove at mem
  split at mem
  · rcases List.mem_append.mp mem with earlier | last
    · exact .inl earlier
    · exact .inr (List.mem_singleton.mp last)
  · exact .inl mem

/-- The edits after some deletions. -/
theorem mem_deleteAll {ranges : List (Nat × Nat)}
    (mem : edit ∈ (ranges.foldl (fun findings range => findings.delete range.1 range.2)
      findings).edits) :
    edit ∈ findings.edits ∨ ∃ r ∈ ranges, edit = deletion r.1 r.2 := by
  induction ranges generalizing findings with
  | nil => exact .inl mem
  | cons range ranges ih =>
    rcases ih mem with earlier | ⟨r, among, same⟩
    · exact (mem_delete earlier).imp_right fun same => ⟨range, List.mem_cons_self, same⟩
    · exact .inr ⟨r, List.mem_cons_of_mem _ among, same⟩

/-- The edits after a statement is taken out. -/
theorem mem_removeStatement {span : Span} {home : Home}
    (mem : edit ∈ (findings.removeStatement span home).edits) :
    edit ∈ findings.edits ∨ edit = vacancy span home := by
  unfold removeStatement at mem
  unfold vacancy
  split at mem <;> rename_i allows
  · rw [if_pos allows]
    exact mem_delete mem
  · rw [if_neg allows]
    exact mem_replace mem

/-- The edits after variables are taken out of a declaration. -/
theorem mem_elide {span : Span} {home : Home} {spans : List Span}
    (mem : edit ∈ (findings.elide span home spans).edits) :
    edit ∈ findings.edits ∨ Vacates findings.elided (.declared span home spans) edit := by
  unfold elide at mem
  dsimp only at mem
  split at mem
  · exact .inl mem
  · rename_i some
    split at mem
    · rename_i all
      refine (mem_removeStatement mem).imp_right ?_
      rintro rfl
      refine .declaration ?_ fun s among => ?_
      · rintro rfl
        exact some rfl
      · have := List.all_eq_true.mp all _ (List.mem_map_of_mem among)
        exact List.contains_iff_mem.mp this
    · rename_i others
      refine (mem_deleteAll mem).imp_right ?_
      rintro ⟨r, among, rfl⟩
      refine .variables (List.Subset.refl _) ?_ among
      simpa using others

section Registering

variable (frame findings)

/-- Registering a target records no edit. -/
theorem edits_register (call : RequireCall) (preferred : Option String) :
    (findings.register frame call preferred).2.edits = findings.edits := by
  obtain ⟨_, _, _, same⟩ := register_eq findings frame call preferred
  rw [same]

/-- A registered target whose value is used keeps the name that registering gives. -/
theorem find?_bindValue_register (call : RequireCall) (preferred : Option String) :
    ∃ entry, ((findings.register frame call preferred).2.bindValue call.target).find? call.target =
      some entry ∧ entry.name = (findings.register frame call preferred).1.name :=
  ⟨_, find?_bindValue_self _ (find?_register frame findings call preferred), rfl⟩

end Registering

/-- **One step** records edits that its use calls for. -/
theorem step_calls {use : Use} (mem : edit ∈ (findings.step frame use).edits) :
    edit ∈ findings.edits ∨ (findings.step frame use).Calls frame use edit := by
  cases use with
  | name name span shorthand =>
    cases name with
    | require =>
      refine (mem_replace mem).imp_right ?_
      rintro rfl
      exact .require
    | value root =>
      refine .inl ?_
      cases root <;> exact mem
    | global =>
      cases heeded : frame.options.ignoreGlobal with
      | true =>
        simp only [step, heeded] at mem
        exact .inl mem
      | false =>
        simp only [step, heeded] at mem
        refine (mem_replace mem).imp_right ?_
        rintro rfl
        exact .global heeded
    | define =>
      refine (mem_replace mem).imp_right ?_
      rintro rfl
      exact .define
  | outerThis span =>
    cases heeded : frame.options.ignoreGlobal with
    | true =>
      simp only [step, heeded] at mem
      exact .inl mem
    | false =>
      simp only [step, heeded] at mem
      refine (mem_replace mem).imp_right ?_
      rintro rfl
      exact .outerThis heeded
  | typeofValue span root =>
    have replaced : edit ∈ (findings.replace span "'object'").edits := by
      cases root <;> exact mem
    refine (mem_replace replaced).imp_right ?_
    rintro rfl
    exact .question
  | outerReturn => exact .inl mem
  | exporting path direct names =>
    obtain ⟨root, name⟩ := path
    refine .inl ?_
    cases root <;> exact mem
  | requiring call statement =>
    have registered := edits_register frame findings call none
    cases statement with
    | none =>
      obtain ⟨entry, found, name⟩ := find?_bindValue_register frame findings call none
      simp only [step] at mem ⊢
      refine (mem_replace mem).imp (registered ▸ ·) ?_
      rintro rfl
      rw [← name]
      exact .call found
    | some statement =>
      refine (mem_removeStatement mem).imp (registered ▸ ·) ?_
      rintro rfl
      exact .statement (removes_vacancy _ _)
  | requiredVariable span name call =>
    have registered := edits_register frame findings call (some name)
    obtain ⟨entry, found, same⟩ := find?_bindValue_register frame findings call (some name)
    by_cases named : (findings.register frame call (some name)).1.name = name
    · simp only [step, if_pos named] at mem
      exact .inl (registered ▸ mem)
    · simp only [step, if_neg named] at mem ⊢
      refine (mem_replace mem).imp (registered ▸ ·) ?_
      rintro rfl
      rw [← same] at named ⊢
      exact .variable found named
  | declared span home declarators =>
    exact (mem_elide mem).imp_right fun vacates => .declared vacates.removes

/-- **One step** takes out no more text than its use does. -/
theorem step_vacates {use : Use} (mem : edit ∈ (findings.step frame use).edits)
    (takes : takesOut use = true) :
    edit ∈ findings.edits ∨ Vacates (findings.step frame use).elided use edit := by
  cases use with
  | requiring call statement =>
    cases statement with
    | none => contradiction
    | some statement =>
      refine (mem_removeStatement mem).imp (edits_register frame findings call none ▸ ·) ?_
      rintro rfl
      exact .statement
  | declared span home spans =>
    obtain ⟨_, same⟩ := elide_eq findings span home spans
    have elided : (findings.step frame (.declared span home spans)).elided = findings.elided := by
      simp only [step, same]
    rw [elided]
    exact mem_elide mem
  | _ => contradiction

/-- **A run** records edits that its uses call for, and takes out no more text than they do. -/
theorem foldl_vacates {uses : List Use} (mem : edit ∈ (uses.foldl (step frame) findings).edits) :
    edit ∈ findings.edits ∨
      ∃ use ∈ uses, (uses.foldl (step frame) findings).Calls frame use edit ∧
        (takesOut use = true → Vacates (uses.foldl (step frame) findings).elided use edit) := by
  induction uses generalizing findings with
  | nil => exact .inl mem
  | cons use uses ih =>
    have later := foldl_grows (findings.step frame use) frame uses
    rcases ih mem with earlier | ⟨other, among, called, vacates⟩
    · by_cases old : edit ∈ findings.edits
      · exact .inl old
      · have called := ((step_calls earlier).resolve_left old).mono later
        refine .inr ⟨use, List.mem_cons_self, called, fun takes => ?_⟩
        exact ((step_vacates earlier takes).resolve_left old).mono later.elided.subset
    · exact .inr ⟨other, List.mem_cons_of_mem _ among, called, vacates⟩

/-- A run records edits that its uses call for. -/
theorem foldl_calls {uses : List Use} (mem : edit ∈ (uses.foldl (step frame) findings).edits) :
    edit ∈ findings.edits ∨
      ∃ use ∈ uses, (uses.foldl (step frame) findings).Calls frame use edit :=
  (foldl_vacates mem).imp_right fun ⟨use, among, called, _⟩ => ⟨use, among, called⟩

/-! ## The names of required modules -/

/-- The targets of the required modules with their names. -/
def links (findings : Findings) : List (String × String) :=
  findings.required.map fun entry => (entry.target, entry.name)

theorem links_bindValue (findings : Findings) (target : String) :
    (findings.bindValue target).links = findings.links := by
  unfold links bindValue
  rw [List.map_map]
  apply List.map_congr_left
  intro entry _
  dsimp only [Function.comp]
  split <;> rfl

/-- What a use does to the required modules: it enters a module that is not among them, under a
number that is claimed or the name of a variable that goes, or it leaves them as they are. -/
inductive Enters (frame : Frame) (before after : Findings) : Use → Prop
  | nothing {use : Use} (links : after.links = before.links)
      (scopes : after.scopes = before.scopes) : Enters frame before after use
  | number {call : RequireCall} {statement : Option (Span × Home)}
      (new : before.find? call.target = none)
      (links : after.links =
        before.links ++ [(call.target, importName (before.freeNumber frame call.scope))])
      (scopes : after.scopes = before.scopes.generate ScopeTree.root
        (importName (before.freeNumber frame call.scope))) :
      Enters frame before after (.requiring call statement)
  | borrow {span : Span} {name : String} {call : RequireCall}
      (new : before.find? call.target = none)
      (links : after.links = before.links ++ [(call.target, name)])
      (scopes : after.scopes = before.scopes) (gone : span ∈ after.elided) :
      Enters frame before after (.requiredVariable span name call)

/-- Only a use about a call enters a module. -/
theorem enters_of_not_call {use : Use} (other : use.call? = none) :
    Enters frame findings (findings.step frame use) use := by
  cases use with
  | name name span shorthand =>
    cases name with
    | value root => cases root <;> exact .nothing rfl rfl
    | global =>
      simp only [step]
      split <;> exact .nothing rfl rfl
    | _ => exact .nothing rfl rfl
  | outerThis span =>
    simp only [step]
    split <;> exact .nothing rfl rfl
  | typeofValue span root => cases root <;> exact .nothing rfl rfl
  | outerReturn => exact .nothing rfl rfl
  | exporting path direct names =>
    obtain ⟨root, name⟩ := path
    cases root <;> exact .nothing rfl rfl
  | requiring call statement => contradiction
  | requiredVariable span name call => contradiction
  | declared span home declarators =>
    obtain ⟨edits, elided⟩ := elide_eq findings span home declarators
    simp only [step, elided]
    exact .nothing rfl rfl

/-- **One step** enters no more than one module. -/
theorem step_enters (frame : Frame) (findings : Findings) (use : Use) :
    Enters frame findings (findings.step frame use) use := by
  cases use with
  | requiring call statement =>
    have same : (findings.step frame (.requiring call statement)).links =
          (findings.register frame call none).2.links ∧
        (findings.step frame (.requiring call statement)).scopes =
          (findings.register frame call none).2.scopes := by
      cases statement with
      | none => exact ⟨links_bindValue _ _, rfl⟩
      | some statement =>
        obtain ⟨edits, removed⟩ := removeStatement_eq (findings.register frame call none).2
          statement.1 statement.2
        simp [step, removed, links]
    unfold register at same
    cases found : findings.find? call.target with
    | some entry =>
      rw [found] at same
      exact .nothing same.1 same.2
    | none =>
      rw [found] at same
      exact .number found (same.1.trans List.map_append) same.2
  | requiredVariable span name call =>
    have same : (findings.step frame (.requiredVariable span name call)).links =
          (findings.register frame call (some name)).2.links ∧
        (findings.step frame (.requiredVariable span name call)).scopes =
          (findings.register frame call (some name)).2.scopes := by
      simp only [step]
      split <;> exact ⟨links_bindValue _ _, rfl⟩
    cases found : findings.find? call.target with
    | some entry =>
      unfold register at same
      rw [found] at same
      exact .nothing same.1 same.2
    | none =>
      have gone : span ∈ (findings.step frame (.requiredVariable span name call)).elided := by
        simp [step, register, found]
      unfold register at same
      rw [found] at same
      exact .borrow found (same.1.trans List.map_append) same.2 gone
  | _ => exact enters_of_not_call rfl

/-- The name that a use chooses for a required module, given the findings before it and the variables
that go. -/
inductive Chooses (frame : Frame) (findings : Findings) (elided : List Span) : Use → String → Prop
  | number {call : RequireCall} {statement : Option (Span × Home)} :
      Chooses frame findings elided (.requiring call statement)
        (importName (findings.freeNumber frame call.scope))
  | variable {span : Span} {name : String} {call : RequireCall} : span ∈ elided →
      Chooses frame findings elided (.requiredVariable span name call) name

/-- A choice stays when more variables go. -/
theorem Chooses.mono {elided more : List Span} (h : elided ⊆ more) {use : Use} {name : String}
    (chosen : findings.Chooses frame elided use name) : findings.Chooses frame more use name := by
  cases chosen with
  | number => exact .number
  | «variable» gone => exact .variable (h gone)

/-- **One step** names a new required module as its use chooses. -/
theorem step_names {use : Use} {entry : RequiredModule}
    (mem : entry ∈ (findings.step frame use).required) :
    (∃ earlier ∈ findings.required, earlier.name = entry.name) ∨
      findings.Chooses frame (findings.step frame use).elided use entry.name := by
  have link : (entry.target, entry.name) ∈ (findings.step frame use).links :=
    List.mem_map.mpr ⟨entry, mem, rfl⟩
  have kept (old : (entry.target, entry.name) ∈ findings.links) :
      ∃ earlier ∈ findings.required, earlier.name = entry.name := by
    obtain ⟨earlier, among, same⟩ := List.mem_map.mp old
    exact ⟨earlier, among, congrArg Prod.snd same⟩
  cases step_enters frame findings use with
  | nothing links =>
    rw [links] at link
    exact .inl (kept link)
  | number new links =>
    rw [links] at link
    rcases List.mem_append.mp link with old | last
    · exact .inl (kept old)
    · obtain ⟨-, same⟩ := Prod.mk.inj (List.mem_singleton.mp last)
      rw [same]
      exact .inr .number
  | borrow new links scopes gone =>
    rw [links] at link
    rcases List.mem_append.mp link with old | last
    · exact .inl (kept old)
    · obtain ⟨-, same⟩ := Prod.mk.inj (List.mem_singleton.mp last)
      rw [same]
      exact .inr (.variable gone)

/-- **A run** names the required modules as its uses choose: each name is there from the beginning,
or a use has chosen it at its point of the run. -/
theorem foldl_names {uses : List Use} {entry : RequiredModule}
    (mem : entry ∈ (uses.foldl (step frame) findings).required) :
    (∃ earlier ∈ findings.required, earlier.name = entry.name) ∨
      ∃ before, Grows findings before ∧ ∃ use ∈ uses,
        before.Chooses frame (uses.foldl (step frame) findings).elided use entry.name := by
  induction uses generalizing findings with
  | nil => exact .inl ⟨entry, mem, rfl⟩
  | cons use uses ih =>
    have later := foldl_grows (findings.step frame use) frame uses
    rcases ih mem with ⟨earlier, among, same⟩ | ⟨before, grown, other, among, chosen⟩
    · rcases step_names among with ⟨first, there, alike⟩ | chosen
      · exact .inl ⟨first, there, alike.trans same⟩
      · refine .inr ⟨findings, Grows.refl _, use, List.mem_cons_self, ?_⟩
        exact same ▸ chosen.mono later.elided.subset
    · refine .inr ⟨before, (step_grows _ _ _).trans grown, other, ?_, chosen⟩
      exact List.mem_cons_of_mem _ among

/-! ## Variables that go -/

/-- **One step** lets a variable go if the value that it takes is imported under its name. -/
theorem step_elided {use : Use} {span : Span} (mem : span ∈ (findings.step frame use).elided) :
    span ∈ findings.elided ∨ ∃ name call entry, use = .requiredVariable span name call ∧
      (findings.step frame use).find? call.target = some entry ∧ entry.name = name ∧
        entry.bindsValue = true := by
  cases use with
  | name name span shorthand =>
    cases name with
    | value root => cases root <;> exact .inl mem
    | global =>
      simp only [step] at mem
      split at mem <;> exact .inl mem
    | _ => exact .inl mem
  | outerThis span =>
    simp only [step] at mem
    split at mem <;> exact .inl mem
  | typeofValue span root => cases root <;> exact .inl mem
  | outerReturn => exact .inl mem
  | exporting path direct names =>
    obtain ⟨root, name⟩ := path
    cases root <;> exact .inl mem
  | requiring call statement =>
    obtain ⟨_, _, _, _, same⟩ := step_requiring_eq findings frame call statement
    rw [same] at mem
    exact .inl mem
  | requiredVariable other name call =>
    obtain ⟨_, _, _, registered⟩ := register_eq findings frame call (some name)
    have earlier : ((findings.register frame call (some name)).2.bindValue call.target).elided =
        findings.elided := by
      rw [registered]
      rfl
    by_cases named : (findings.register frame call (some name)).1.name = name
    · have binds := find?_bindValue_self _ (find?_register frame findings call (some name))
      simp only [step, if_pos named] at mem ⊢
      rcases List.mem_append.mp mem with mem | mem
      · exact .inl (earlier ▸ mem)
      · obtain rfl := List.mem_singleton.mp mem
        exact .inr ⟨name, call, _, rfl, binds, named, rfl⟩
    · simp only [step, if_neg named] at mem
      exact .inl (earlier ▸ mem)
  | declared span home declarators =>
    obtain ⟨_, same⟩ := elide_eq findings span home declarators
    simp only [step, same] at mem
    exact .inl mem

/-- **A run** lets a variable go if the value that it takes is imported under its name. -/
theorem foldl_elided {uses : List Use} {span : Span}
    (mem : span ∈ (uses.foldl (step frame) findings).elided) :
    span ∈ findings.elided ∨ ∃ name call entry, .requiredVariable span name call ∈ uses ∧
      (uses.foldl (step frame) findings).find? call.target = some entry ∧ entry.name = name ∧
        entry.bindsValue = true := by
  induction uses generalizing findings with
  | nil => exact .inl mem
  | cons use uses ih =>
    rcases ih mem with earlier | ⟨name, call, entry, among, found⟩
    · rcases step_elided earlier with earlier | ⟨name, call, entry, rfl, found, named, binds⟩
      · exact .inl earlier
      · obtain ⟨later, found, same, stays⟩ :=
          (foldl_grows (findings.step frame (.requiredVariable span name call)) frame uses).required
            _ _ found
        exact .inr ⟨name, call, later, List.mem_cons_self, found, same.trans named, stays binds⟩
    · exact .inr ⟨name, call, entry, List.mem_cons_of_mem _ among, found⟩

/-- A module that a call requires first gets a number that is free where the call stands, and keeps
it. -/
theorem name_of_first {call : RequireCall} (first : findings.find? call.target = none)
    (later : List Use) :
    ∃ entry, (later.foldl (step frame) (findings.step frame (.requiring call none))).find?
      call.target = some entry ∧ entry.name = importName (findings.freeNumber frame call.scope) := by
  have numbered : (findings.register frame call none).1.name =
      importName (findings.freeNumber frame call.scope) := by
    unfold register
    rw [first]
  have grown : Grows (findings.register frame call none).2
      (later.foldl (step frame) (findings.step frame (.requiring call none))) :=
    ((grows_bindValue _ _).trans (grows_replace _ _ _)).trans (foldl_grows _ _ _)
  obtain ⟨entry, found, same, -⟩ :=
    grown.required _ _ (find?_register frame findings call none)
  exact ⟨entry, found, same.trans numbered⟩

end Findings

end ModuleInterop.Conversion
