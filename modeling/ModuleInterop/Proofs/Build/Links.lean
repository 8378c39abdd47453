import ModuleInterop.Proofs.Build.Settlement
import ModuleInterop.Proofs.Conversion.Default
import ModuleInterop.Proofs.Conversion.Value
import ModuleInterop.Proofs.Conversion.Wrapping

/-!
# What proxies take from modules

A proxy takes a name from the module that it stands for, if the module has been classified as a
CommonJS module or as an ES module with a default export (`takenName`).  The classification is settled
by the first transformation of the module, and together with it the text that the build uses: the
output of the transformation or, if there is none, the module as it is.

The text has what the proxy takes (`taken_is_exported`): a default export of the module is still there,
but for what it exports, and the value of a converted module is exported in a line of its own.  A module
that the build starts from does not export its value, so a proxy of it finds nothing
(`entry_without_value`).
-/

set_option autoImplicit false

namespace ModuleInterop.Build

open ModuleInterop.Syntax ModuleInterop.Conversion ModuleInterop.Patch ModuleInterop.Virtual

/-- The name that the proxy of a module takes from it, unless it takes the module as a whole. -/
def takenName : Classification → Option String
  | .esmWithDefault => some "default"
  | .cjs => some valueExport
  | .esmWithoutDefault | .unknown => none

/-- A proxy has a name in the list that it imports, or exports on, from the module it stands for. -/
def Takes (target : String) (c : Classification) (name : String) : Prop :=
  ∃ start blank rest, proxyModule target c =
    start ++ "\x7b" ++ blank ++ name ++ blank ++ "\x7d from " ++ Text.quote target ++ rest

theorem takes_of_takenName {c : Classification} {name : String} (taken : takenName c = some name)
    (target : String) : Takes target c name := by
  cases c with
  | esmWithDefault =>
    obtain rfl := Option.some.inj taken
    have spelled : "export \x7bdefault\x7d from " =
        "export " ++ "\x7b" ++ "" ++ "default" ++ "" ++ "\x7d from " := by decide
    exact ⟨"export ", "", ";", congrArg (· ++ Text.quote target ++ ";") spelled⟩
  | cjs =>
    obtain rfl := Option.some.inj taken
    have spelled : "import \x7b __moduleExports \x7d from " =
        "import " ++ "\x7b" ++ " " ++ valueExport ++ " " ++ "\x7d from " := by decide
    exact ⟨"import ", " ", "; export default __moduleExports;",
      congrArg (· ++ Text.quote target ++ "; export default __moduleExports;") spelled⟩
  | esmWithoutDefault => contradiction
  | unknown => contradiction

namespace Session

variable {session : Session} {code id : String} {isEntry : Bool} {c : Classification}

/-- What is done with an outcome settles its classification. -/
theorem peek_absorb (unsettled : session.registry.peek id = none) (result : Outcome) :
    (session.absorb id result).registry.peek id = some result.classification := by
  rw [known_absorb, unsettled, Option.none_or, if_pos rfl]

/-! ## Outcomes -/

variable {options : Options} {source : List Char}

/-- How the outcome for a module comes about from its text. -/
inductive Arises (options : Options) (source : List Char) (id : String) (isEntry : Bool) :
    Outcome → Prop
  | unseen : Arises options source id isEntry .unseen
  /-- The text has no word that matters. -/
  | wordless :
    Arises options source id isEntry (.unchanged (.unchanged .esmWithoutDefault .none))
  | unchanged {program : Program} (parsed : parseModule source = .ok program) :
    Arises options source id isEntry
      (.unchanged (.unchanged (esClassification (.ofProgram program)) (.ofProgram program)))
  | converted {program : Program} {out : Converted} (parsed : parseModule source = .ok program)
    (converted : convert program source id
      (conversionOptions options id isEntry (.ofProgram program)) = .ok (some out)) :
    Arises options source id isEntry
      (.converted (.converted (.ofProgram program) out) ⟨out.code, out.map⟩)
  | mismatch {record : ModuleRecord} : Arises options source id isEntry (.mismatch record)
  | failed {failure : Failure} : Arises options source id isEntry (.failed failure)

/-- A module that was read has been parsed. -/
theorem parsed_of_readModule {program : Program} (read : readModule source id = .ok program) :
    parseModule source = .ok program := by
  unfold readModule at read
  split at read
  · rename_i parsed
    rw [parsed, Except.ok.inj read]
  · contradiction

/-- A module that is left alone may turn out not to be what it was said to be. -/
theorem Arises.leave {record : ModuleRecord}
    (h : Arises options source id isEntry (.unchanged record)) (names : List String) :
    Arises options source id isEntry (Session.leave record names) := by
  unfold Session.leave
  split
  · exact h
  · exact .mismatch

/-- **What becomes of a module.** -/
theorem arises_outcome (options : Options) (filter : Filter) (source : List Char) (id : String)
    (isEntry : Bool) :
    Arises options source id isEntry (outcome options filter source id isEntry) := by
  unfold outcome
  dsimp only
  split
  · exact .unseen
  · split
    · exact Arises.wordless.leave _
    · split
      · exact .failed
      · rename_i program read
        have parsed := parsed_of_readModule read
        split
        · unfold convertModule
          dsimp only
          split
          · rename_i out converted
            exact .converted parsed converted
          · exact .unchanged parsed
          · exact .mismatch
          · exact .failed
        · exact (Arises.unchanged parsed).leave _

/-! ## What is taken is there -/

/-- The choices for the conversion of a module that has been parsed. -/
def choices (options : Options) (id : String) (isEntry : Bool) (program : Program) :
    Conversion.Options :=
  conversionOptions options id isEntry (EsModuleInfo.ofProgram program)

/-- The text that the build uses for a module after a transformation with an output, or without one,
exports a name. -/
inductive Provides (options : Options) (code id : String) (isEntry : Bool) :
    Option TransformOutput → String → Prop
  /-- The module is used as it is, with its default export. -/
  | unchanged {program : Program} {s : Stmt} (parsed : parseModule code.toList = .ok program)
    (mem : s ∈ program.body) (exports : s.exportsDefault = true) :
    Provides options code id isEntry none "default"
  /-- The module is converted, and no default export is added to its own.  If it is not wrapped, only
  imports stand before its text, and its default export is kept, but for what it exports. -/
  | kept {program : Program} {out : Converted} {edited : Output} {s : Stmt}
    (parsed : parseModule code.toList = .ok program)
    (emitted : Emitted program code.toList id (choices options id isEntry program) out edited)
    (mem : s ∈ program.body) (exports : s.exportsDefault = true)
    (alone : (layout program code.toList id (choices options id isEntry program)).defaults = [])
    (kept : out.wrapped = false →
      (layout program code.toList id (choices options id isEntry program)).body.before = "" ∧
        ∀ s ∈ program.body, s.exportsDefault = true → Keeps code.toList edited s) :
    Provides options code id isEntry (some ⟨out.code, out.map⟩) "default"
  /-- The module is converted, its value is in a variable outside all functions, and a line after all
  its text exports that variable. -/
  | value {program : Program} {out : Converted} {edited : Output}
    (parsed : parseModule code.toList = .ok program)
    (emitted : Emitted program code.toList id (choices options id isEntry program) out edited)
    (declared : DeclaresValue program code.toList id (choices options id isEntry program))
    (line : ClosingLine program code.toList id (choices options id isEntry program) out edited
      (exportOfValue
        (valueOf program code.toList id (choices options id isEntry program)).1).declaration) :
    Provides options code id isEntry (some ⟨out.code, out.map⟩) valueExport

/-- A text that provides the value of a module has the name for it. -/
theorem Provides.valueExport_infix {options : Options} {text : TransformOutput}
    (h : Provides options code id isEntry (some text) valueExport) :
    valueExport.toList <:+: text.code.toList := by
  generalize same : valueExport = name at h
  cases h with
  | kept => exact absurd same (by decide)
  | value parsed emitted declared line =>
    exact (Conversion.valueExport_infix _).trans line.infix

/-- **What a proxy takes from a module is there**, once the first transformation of the module has
settled its classification: the text that the build uses for the module exports it.  A converted module
that the build starts from is left aside, unless it has a default export of its own. -/
theorem taken_is_exported {output : Option TransformOutput} {name : String}
    (unsettled : session.registry.peek id = none)
    (succeeds : (session.transform code id isEntry).1 = .ok output)
    (settled : (session.transform code id isEntry).2.registry.peek id = some c)
    (taken : takenName c = some name) (notEntry : c = .cjs → isEntry = false) :
    Takes id c name ∧ Provides session.options code id isEntry output name := by
  refine ⟨takes_of_takenName taken id, ?_⟩
  have arises := arises_outcome session.options session.filter code.toList id isEntry
  have known := peek_absorb unsettled
    (outcome session.options session.filter code.toList id isEntry)
  have classified := Option.some.inj (known.symm.trans settled)
  have answered : (outcome session.options session.filter code.toList id isEntry).answer id =
      .ok output := succeeds
  revert arises classified answered
  generalize outcome session.options session.filter code.toList id isEntry = result
  intro arises classified answered
  subst classified
  cases arises with
  | unseen => contradiction
  | wordless => contradiction
  | @unchanged program parsed =>
    obtain rfl := Except.ok.inj answered
    have taken : takenName (esClassification (.ofProgram program)) = some name := taken
    cases own : (EsModuleInfo.ofProgram program).hasDefaultExport with
    | true =>
      rw [esClassification, if_pos own] at taken
      obtain rfl := Option.some.inj taken
      obtain ⟨s, mem, exports⟩ := List.any_eq_true.mp own
      exact .unchanged parsed mem exports
    | false =>
      rw [esClassification, if_neg (by simp [own])] at taken
      contradiction
  | @converted program out parsed converted =>
    obtain rfl := Except.ok.inj answered
    obtain ⟨edited, emitted⟩ := exists_emitted converted
    let record := ModuleRecord.converted (.ofProgram program) out
    have taken : takenName record.classification = some name := taken
    have notEntry : record.classification = .cjs → isEntry = false := notEntry
    cases own : (EsModuleInfo.ofProgram program).hasDefaultExport with
    | true =>
      have classified : record.classification = .esmWithDefault := if_pos own
      rw [classified] at taken
      obtain rfl := Option.some.inj taken
      obtain ⟨s, mem, exports⟩ := List.any_eq_true.mp own
      refine .kept parsed emitted mem exports (if_pos own) ?_
      intro notWrapped
      exact ⟨emitted.before_eq notWrapped, fun s mem exports => emitted.keeps parsed mem exports⟩
    | false =>
      have classified : record.classification = .cjs := if_neg (by simp [own])
      rw [classified] at taken
      obtain rfl := Option.some.inj taken
      exact .value parsed emitted (declaresValue _ _ _ _)
        (emitted.exportsValue (notEntry classified))
  | mismatch => contradiction
  | failed => contradiction

/-! ## A module required by others, a module with a default export, and a start of the build -/

/-- A module that assigns its value. -/
def assigningCode : String := "module.exports = 1;"

/-- A module with a default export that requires another one. -/
def mixedCode : String := "export default require('a');"

set_option maxRecDepth 4000 in
/-- What the proxies of two modules take is there: the value of the first, and the default export of the
second. -/
theorem fresh_provides :
    Session.ofOptions fresh.options [] = .ok fresh ∧
      (∃ text, (fresh.transform assigningCode "m.js" false).1 = .ok (some text) ∧
        (fresh.transform assigningCode "m.js" false).2.registry.peek "m.js" = some .cjs ∧
        Provides fresh.options assigningCode "m.js" false (some text) valueExport) ∧
      ∃ text, (fresh.transform mixedCode "m.js" false).1 = .ok (some text) ∧
        (fresh.transform mixedCode "m.js" false).2.registry.peek "m.js" = some .esmWithDefault ∧
        Provides fresh.options mixedCode "m.js" false (some text) "default" := by
  have assigned : (fresh.transform assigningCode "m.js" false).1.toOption.join.isSome = true ∧
      (fresh.transform assigningCode "m.js" false).2.registry.peek "m.js" = some .cjs := by
    decide +kernel
  have mixed : (fresh.transform mixedCode "m.js" false).1.toOption.join.isSome = true ∧
      (fresh.transform mixedCode "m.js" false).2.registry.peek "m.js" = some .esmWithDefault := by
    decide +kernel
  refine ⟨rfl, ?_, ?_⟩
  · obtain ⟨text, succeeds⟩ := exists_of_isSome assigned.1
    exact ⟨text, succeeds, assigned.2,
      (taken_is_exported rfl succeeds assigned.2 rfl fun _ => rfl).2⟩
  · obtain ⟨text, succeeds⟩ := exists_of_isSome mixed.1
    exact ⟨text, succeeds, mixed.2, (taken_is_exported rfl succeeds mixed.2 rfl fun _ => rfl).2⟩

/-- The output for `assigningCode` where the build starts from it. -/
def entryText : String := "var m = 1;\n\nexport default m;"

set_option maxRecDepth 4000 in
/-- Where the build starts from a module, the value that a proxy takes from it is not exported: the
text does not have its name. -/
theorem entry_without_value :
    Session.ofOptions fresh.options [] = .ok fresh ∧ fresh.registry.peek "m.js" = none ∧
      (fresh.transform assigningCode "m.js" true).1 = .ok (some ⟨entryText, none⟩) ∧
      (fresh.transform assigningCode "m.js" true).2.registry.peek "m.js" = some .cjs ∧
      takenName .cjs = some valueExport ∧ ¬ valueExport.toList <:+: entryText.toList ∧
      ¬ Provides fresh.options assigningCode "m.js" true (some ⟨entryText, none⟩) valueExport := by
  have unnamed : ¬ valueExport.toList <:+: entryText.toList := by
    intro named
    have among : '_' ∈ entryText.toList := named.subset (by decide)
    exact absurd among (by decide)
  have run : (fresh.transform assigningCode "m.js" true).1.toOption.join.any
        (· = ⟨entryText, none⟩) = true ∧
      (fresh.transform assigningCode "m.js" true).2.registry.peek "m.js" = some .cjs := by
    decide +kernel
  obtain ⟨text, succeeds, same⟩ := exists_of_any run.1
  obtain rfl := of_decide_eq_true same
  exact ⟨rfl, rfl, succeeds, run.2, rfl, unnamed, fun h => unnamed h.valueExport_infix⟩

end Session

end ModuleInterop.Build
