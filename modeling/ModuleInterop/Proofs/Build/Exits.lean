import ModuleInterop.Proofs.Build.Links
import ModuleInterop.Proofs.Build.Waiting
import ModuleInterop.Proofs.Conversion.Apart

/-!
# Every transformation settles its module

There are several ways out of a transformation (`Session.Exit`), among them three failures.  On each
of them the module is settled, so nobody waits for it any more, and the classification says which
way out it was (`Run.transform_settles`).  A conversion cannot fail because of its edits, which
never conflict, so that no way out is left on which nothing sensible is known.
-/

set_option autoImplicit false

namespace ModuleInterop.Build

open ModuleInterop.Syntax ModuleInterop.Conversion

namespace Session

variable {options : Options} {filter : Filter} {source : List Char} {code id : String}
  {isEntry : Bool} {c : Classification}

/-- The text of a module has a word for which it is parsed: one of a CommonJS module, or one of an
ES module. -/
def HasWord (options : Options) (source : List Char) : Prop :=
  hasCommonJsWord source options.ignoreGlobal = true ∨ hasModuleWord source = true

/-- The record of a module that is parsed and left alone. -/
def leftAlone (program : Program) : ModuleRecord :=
  .unchanged (esClassification (.ofProgram program)) (.ofProgram program)

/-- The ways out of a transformation. -/
inductive Exit (options : Options) (filter : Filter) (source : List Char) (id : String)
    (isEntry : Bool) : Outcome → Prop
  /-- The id is not to be converted. -/
  | skipped (rejected : filter.accepts id = false) : Exit options filter source id isEntry .unseen
  /-- The text has no word for which it would be parsed. -/
  | wordless {result : Outcome} (accepted : filter.accepts id = true)
    (noWord : ¬ HasWord options source)
    (left : result = leave (.unchanged .esmWithoutDefault .none) (options.namedExportsFor id)) :
    Exit options filter source id isEntry result
  /-- The text cannot be parsed. -/
  | unreadable {problem : Problem} (accepted : filter.accepts id = true)
    (word : HasWord options source) (unparsed : parseModule source = .error problem)
    (line column : Nat) :
    Exit options filter source id isEntry (.failed (.unreadable id problem.cause line column))
  /-- The text is parsed and has nothing to convert, or is not what it was said to be. -/
  | left {program : Program} {result : Outcome} (accepted : filter.accepts id = true)
    (word : HasWord options source) (parsed : parseModule source = .ok program)
    (left : result = .unchanged (leftAlone program) ∨ result = .mismatch (leftAlone program)) :
    Exit options filter source id isEntry result
  /-- The module is converted. -/
  | converted {program : Program} {out : Converted} (accepted : filter.accepts id = true)
    (word : HasWord options source) (parsed : parseModule source = .ok program) :
    Exit options filter source id isEntry
      (.converted (.converted (.ofProgram program) out) ⟨out.code, out.map⟩)

theorem leave_cases (record : ModuleRecord) (names : List String) :
    leave record names = .unchanged record ∨ leave record names = .mismatch record := by
  unfold leave
  split
  · exact .inl rfl
  · exact .inr rfl

/-- The edits of a conversion can be applied. -/
theorem convert_ne_unpatchable {program : Program} (parsed : parseModule source = .ok program)
    (id : String) (choices : Conversion.Options) (problem : Patch.Problem) :
    convert program source id choices ≠ .error (.unpatchable problem) := by
  intro fails
  cases called : (findingsOf program source choices).any with
  | true =>
    obtain ⟨out, converted, -⟩ := exists_converted (confined_layout parsed id choices) called
    rw [converted] at fails
    contradiction
  | false =>
    have called : (analyse program source choices).2.any = false := called
    unfold convert at fails
    dsimp only at fails
    rw [if_neg (by simp [called])] at fails
    split at fails <;> cases fails

/-- **The way out of every transformation.** -/
theorem exit_outcome (options : Options) (filter : Filter) (source : List Char) (id : String)
    (isEntry : Bool) :
    Exit options filter source id isEntry (outcome options filter source id isEntry) := by
  unfold outcome
  dsimp only
  split
  · rename_i rejected
    exact .skipped ((Bool.not_eq_true' _).mp rejected)
  · rename_i notRejected
    have accepted : filter.accepts id = true := by simpa using notRejected
    split
    · rename_i noWord
      refine .wordless accepted ?_ rfl
      simpa [HasWord] using noWord
    · rename_i someWord
      have word : HasWord options source := by
        unfold HasWord
        revert someWord
        cases hasCommonJsWord source options.ignoreGlobal <;> simp
      cases parsed : parseModule source with
      | error problem =>
        simp only [readModule, parsed]
        exact .unreadable accepted word parsed _ _
      | ok program =>
        simp only [readModule, parsed]
        split
        · unfold convertModule
          dsimp only
          split
          · exact .converted accepted word parsed
          · exact .left accepted word parsed (.inl rfl)
          · exact .left accepted word parsed (.inr rfl)
          · rename_i problem fails
            exact absurd fails (convert_ne_unpatchable parsed id _ problem)
        · exact .left accepted word parsed (leave_cases _ _)

/-! ## What the classification says -/

/-- Nothing can be said of a module: its id is not to be converted, its text has a word for which it
is parsed but cannot be, or the transformation fails because edits overlap. -/
def Inconclusive (session : Session) (code id : String) (isEntry : Bool) : Prop :=
  session.filter.accepts id = false ∨
  (HasWord session.options code.toList ∧ ∃ problem, parseModule code.toList = .error problem) ∨
  ∃ first second, (session.transform code id isEntry).1 = .error (.overlap first second)

/-- A module is parsed, and has a default export. -/
def ParsedWithDefault (session : Session) (code : String) : Prop :=
  HasWord session.options code.toList ∧ ∃ program, parseModule code.toList = .ok program ∧
    (EsModuleInfo.ofProgram program).hasDefaultExport = true

/-- The transformation of a module has an output. -/
def HasOutput (session : Session) (code id : String) (isEntry : Bool) : Prop :=
  ∃ output, (session.transform code id isEntry).1 = .ok (some output)

/-- What a classification says of the module: which of the reasons for the four classifications,
taken in this order, is the first to hold. -/
structure Explains (session : Session) (code id : String) (isEntry : Bool) (c : Classification) :
    Prop where
  unknown : c = .unknown ↔ session.Inconclusive code id isEntry
  esmWithDefault : c = .esmWithDefault ↔
    ¬ session.Inconclusive code id isEntry ∧ session.ParsedWithDefault code
  cjs : c = .cjs ↔ ¬ session.Inconclusive code id isEntry ∧ ¬ session.ParsedWithDefault code ∧
    session.HasOutput code id isEntry
  esmWithoutDefault : c = .esmWithoutDefault ↔ ¬ session.Inconclusive code id isEntry ∧
    ¬ session.ParsedWithDefault code ∧ ¬ session.HasOutput code id isEntry

section Explains

variable {session : Session}

theorem explains_unknown (reason : session.Inconclusive code id isEntry) :
    session.Explains code id isEntry .unknown :=
  ⟨iff_of_true rfl reason, iff_of_false nofun fun h => h.1 reason,
    iff_of_false nofun fun h => h.1 reason, iff_of_false nofun fun h => h.1 reason⟩

theorem explains_esmWithDefault (conclusive : ¬ session.Inconclusive code id isEntry)
    (reason : session.ParsedWithDefault code) :
    session.Explains code id isEntry .esmWithDefault :=
  ⟨iff_of_false nofun conclusive, iff_of_true rfl ⟨conclusive, reason⟩,
    iff_of_false nofun fun h => h.2.1 reason, iff_of_false nofun fun h => h.2.1 reason⟩

theorem explains_cjs (conclusive : ¬ session.Inconclusive code id isEntry)
    (noDefault : ¬ session.ParsedWithDefault code) (reason : session.HasOutput code id isEntry) :
    session.Explains code id isEntry .cjs :=
  ⟨iff_of_false nofun conclusive, iff_of_false nofun fun h => noDefault h.2,
    iff_of_true rfl ⟨conclusive, noDefault, reason⟩, iff_of_false nofun fun h => h.2.2 reason⟩

theorem explains_esmWithoutDefault (conclusive : ¬ session.Inconclusive code id isEntry)
    (noDefault : ¬ session.ParsedWithDefault code)
    (noOutput : ¬ session.HasOutput code id isEntry) :
    session.Explains code id isEntry .esmWithoutDefault :=
  ⟨iff_of_false nofun conclusive, iff_of_false nofun fun h => noDefault h.2,
    iff_of_false nofun fun h => noOutput h.2.2, iff_of_true rfl ⟨conclusive, noDefault, noOutput⟩⟩

/-- A module that is looked at has a conclusive result, unless it cannot be parsed. -/
theorem conclusive_of_answer (accepted : session.filter.accepts id = true)
    (readable : HasWord session.options code.toList → ∃ program,
      parseModule code.toList = .ok program)
    (answer : ∀ first second,
      (session.transform code id isEntry).1 ≠ .error (.overlap first second)) :
    ¬ session.Inconclusive code id isEntry := by
  rintro (rejected | ⟨word, problem, unparsed⟩ | ⟨first, second, overlaps⟩)
  · rw [accepted] at rejected
    contradiction
  · obtain ⟨program, parsed⟩ := readable word
    rw [parsed] at unparsed
    contradiction
  · exact answer first second overlaps

theorem not_parsedWithDefault {program : Program} (parsed : parseModule code.toList = .ok program)
    (none : (EsModuleInfo.ofProgram program).hasDefaultExport = false) :
    ¬ session.ParsedWithDefault code := by
  rintro ⟨-, program', parsed', own⟩
  obtain rfl := Except.ok.inj (parsed.symm.trans parsed')
  rw [none] at own
  contradiction

/-- A module that is left alone has no output. -/
theorem answer_of_left {result : Outcome} {record : ModuleRecord}
    (left : result = .unchanged record ∨ result = .mismatch record) (id : String) :
    result.classification = record.classification ∧
      (∀ output, result.answer id ≠ .ok (some output)) ∧
      ∀ first second, result.answer id ≠ .error (.overlap first second) := by
  rcases left with rfl | rfl
  · exact ⟨rfl, nofun, nofun⟩
  · exact ⟨rfl, nofun, nofun⟩

/-- **The classification that a transformation settles says which way out it took.** -/
theorem explains_outcome (session : Session) (code id : String) (isEntry : Bool) :
    session.Explains code id isEntry (session.outcomeOf code id isEntry).classification := by
  have exit := exit_outcome session.options session.filter code.toList id isEntry
  have answer : (session.transform code id isEntry).1 =
      (session.outcomeOf code id isEntry).answer id := rfl
  unfold outcomeOf at answer ⊢
  revert exit answer
  generalize outcome session.options session.filter code.toList id isEntry = result
  intro exit answer
  cases exit with
  | skipped rejected => exact explains_unknown (.inl rejected)
  | wordless accepted noWord left =>
    obtain ⟨classified, noOutput, noOverlap⟩ := answer_of_left (left ▸ leave_cases _ _) id
    rw [classified]
    refine explains_esmWithoutDefault ?_ (fun h => noWord h.1) ?_
    · refine conclusive_of_answer accepted (fun word => absurd word noWord) ?_
      rw [answer]
      exact noOverlap
    · rintro ⟨output, given⟩
      exact noOutput output (answer.symm.trans given)
  | unreadable accepted word unparsed line column =>
    exact explains_unknown (.inr (.inl ⟨word, _, unparsed⟩))
  | @left program _ accepted word parsed left =>
    obtain ⟨classified, noOutput, noOverlap⟩ := answer_of_left left id
    have conclusive : ¬ session.Inconclusive code id isEntry := by
      refine conclusive_of_answer accepted (fun _ => ⟨program, parsed⟩) ?_
      rw [answer]
      exact noOverlap
    have settles : result.classification = esClassification (.ofProgram program) := classified
    cases own : (EsModuleInfo.ofProgram program).hasDefaultExport with
    | true =>
      rw [settles, esClassification, if_pos own]
      exact explains_esmWithDefault conclusive ⟨word, program, parsed, own⟩
    | false =>
      rw [settles, esClassification, if_neg (by simp [own])]
      refine explains_esmWithoutDefault conclusive (not_parsedWithDefault parsed own) ?_
      rintro ⟨output, given⟩
      exact noOutput output (answer.symm.trans given)
  | @converted program out accepted word parsed =>
    have conclusive : ¬ session.Inconclusive code id isEntry := by
      refine conclusive_of_answer accepted (fun _ => ⟨program, parsed⟩) ?_
      rw [answer]
      rintro first second ⟨⟩
    have settles : (Outcome.converted (.converted (.ofProgram program) out)
        ⟨out.code, out.map⟩).classification =
          if (EsModuleInfo.ofProgram program).hasDefaultExport then .esmWithDefault else .cjs := rfl
    cases own : (EsModuleInfo.ofProgram program).hasDefaultExport with
    | true =>
      rw [settles, if_pos own]
      exact explains_esmWithDefault conclusive ⟨word, program, parsed, own⟩
    | false =>
      rw [settles, if_neg (by simp [own])]
      exact explains_cjs conclusive (not_parsedWithDefault parsed own) ⟨_, answer⟩

end Explains

end Session

namespace Run

/-- **Every transformation settles its module.**  After it, whatever it answers, the module has a
classification, nobody waits for the module, and those who have waited for it are answered with the
classification.  If the module was not settled before, the classification is `unknown` exactly if
nothing can be said of it, otherwise that of an ES module with a default export exactly if it was
parsed and has one, otherwise that of a CommonJS module exactly if the transformation has an output,
and that of an ES module without a default export in all other cases. -/
theorem transform_settles (run : Run) (code id : String) (isEntry : Bool) :
    ∃ c, (run.step (.transform code id isEntry)).2.2.known id = some c ∧
      (∀ w ∈ (run.step (.transform code id isEntry)).2.2.waiters, w.wanted.subject ≠ id) ∧
      (∀ w ∈ run.waiters, w.wanted.subject = id →
        (w.number, w.wanted.answer c) ∈ (run.step (.transform code id isEntry)).2.1) ∧
      (run.known id = none → run.session.Explains code id isEntry c) := by
  have settles : run.session.settles? id (.transform code id isEntry) =
      some (run.session.outcomeOf code id isEntry).classification := if_pos rfl
  have settled := known_step run (.transform code id isEntry) id
  rw [settles] at settled
  have explained := Session.explains_outcome run.session code id isEntry
  have known : ∃ c, (run.step (.transform code id isEntry)).2.2.known id = some c ∧
      (run.known id = none → run.session.Explains code id isEntry c) := by
    cases before : run.known id with
    | some c =>
      rw [before] at settled
      exact ⟨c, settled, nofun⟩
    | none =>
      rw [before] at settled
      exact ⟨_, settled, fun _ => explained⟩
  obtain ⟨c, known, explains⟩ := known
  refine ⟨c, known, ?_, ?_, explains⟩
  · rintro w mem rfl
    have unknown := (mem_waiters_step.mp mem).2
    rw [known] at unknown
    contradiction
  · rintro w mem rfl
    exact mem_answers_iff.mpr ⟨w, mem, rfl, c, known, rfl⟩

/-- A run in which somebody waits for a module. -/
def waited : Run := ((start Session.fresh).step (.wait "m.js")).2.2

set_option maxRecDepth 4000 in
/-- Somebody who waits for a module that assigns its value is told that it is a CommonJS module. -/
theorem waiter_told_cjs :
    waited.known "m.js" = none ∧
      (0, .classification .cjs) ∈
        (waited.step (.transform Session.assigningCode "m.js" false)).2.1 ∧
      waited.session.Explains Session.assigningCode "m.js" false .cjs := by
  have settled : (waited.step (.transform Session.assigningCode "m.js" false)).2.2.known "m.js" =
      some .cjs := by decide +kernel
  obtain ⟨c, known, -, answered, explains⟩ :=
    transform_settles waited Session.assigningCode "m.js" false
  obtain rfl := Option.some.inj (known.symm.trans settled)
  exact ⟨rfl, answered ⟨0, .classification "m.js"⟩ (List.mem_singleton.mpr rfl) rfl, explains rfl⟩

end Run

end ModuleInterop.Build
