import ModuleInterop.Build.Session
import ModuleInterop.Proofs.Conversion.Item
import ModuleInterop.Proofs.Conversion.Untouched
import ModuleInterop.Proofs.Usage.Standing

/-!
# Modules that are skipped for their text

A session does not convert a module, and may not even read it, if its text has none of the words that
CommonJS modules use (`Session.outcome`).  A name in the text has no other word characters beside it, so
a name that a module refers to is among the words that are found, if it is written without escapes
(`hasCommonJsWord_of_reference`); and the words `import` and `export` are always found, because no word
of the grammar can be escaped (`ofProgram_of_not_hasModuleWord`).  A module without any of the words is
not read, and recorded as what it is, one without imports and exports (`skipped_as_if_read`).

So the search agrees with the conversion exactly for the modules in *plain words*, in which nothing but a
name written as it is calls for a conversion (`wordless_left_alone_iff`): the conversion would not change
them either, and they are classified and recorded the same.  The search looks for names only.  A module
that uses `this` for the global object, or writes a name with an escape, is skipped though it would be
converted (`wordless_converted`).
-/

set_option autoImplicit false

namespace ModuleInterop.Syntax

open ModuleInterop.Text

variable {source : List Char} {program : Program}

/-- The entries of an export list that are looked at have names of the module itself. -/
theorem Node.not_isString_of_mem_parts {known : Expr → Option Bool} {node : Node}
    {entry : ExportSpecifier} (mem : .specifier entry ∈ node.parts known) :
    entry.inner.isString = false := by
  have other (s : Stmt) : ofFirst s ≠ .specifier entry := by cases s <;> nofun
  cases node with
  | expr place concise e => cases e <;> grind [parts, part, unlessKnown]
  | property p => cases p <;> grind [parts, part]
  | pattern p => cases p <;> grind [parts, part]
  | member m => cases m <;> grind [parts, part, listed]
  | stmt home concise s => cases s <;> grind [parts, part, listed, sole, unlessKnown]
  | declarator home d =>
    cases d
    grind [parts, part]
  | switchCase c =>
    cases c
    grind [parts, part, listed]
  | specifier s => simp [parts] at mem

variable {node : Node} {span : Span} {text : String}

/-- A name that a module refers to stands alone in the text. -/
theorem Program.Reaches.alone {known : Expr → Option Bool} {enters : Node → Bool}
    (parsed : parseModule source = .ok program) (reaches : program.Reaches known enters node)
    (reference : node.reference? = some (span, text)) : span.Alone source := by
  obtain ⟨lo, hi, laid⟩ := reaches.exists_laid parsed
  have fits := laid.fits
  cases node with
  | specifier entry =>
    obtain ⟨rfl, rfl⟩ := Prod.mk.inj (Option.some.inj reference)
    have plain : entry.inner.isString = false := by
      cases reaches with
      | part _ _ mem => exact Node.not_isString_of_mem_parts mem
    exact (fits.2.2 plain).2 rfl
  | expr place concise e =>
    cases e with
    | name =>
      obtain ⟨rfl, rfl⟩ := Prod.mk.inj (Option.some.inj reference)
      exact fits.2.alone rfl
    | _ => contradiction
  | property p =>
    cases p with
    | shorthand =>
      obtain ⟨rfl, rfl⟩ := Prod.mk.inj (Option.some.inj reference)
      exact fits.2.alone rfl
    | _ => contradiction
  | pattern p =>
    cases p with
    | shorthand =>
      obtain ⟨rfl, rfl⟩ := Prod.mk.inj (Option.some.inj reference)
      exact fits.2.alone rfl
    | _ => contradiction
  | _ => contradiction

/-- A statement that imports or exports begins with one of the two words. -/
theorem Laid.announced {lo hi : Nat} {s : Stmt} (laid : Laid source 0 lo hi (.listed s))
    (item : s.isModuleItem = true) : Announced source s.span.start := by
  have fits := laid.fits
  cases s with
  | exportDeclaration => exact fits.2.2 rfl
  | importing | exportDefault | exportDefaultDeclaration | exportNames | exportAll => exact fits.2 rfl
  | _ => contradiction

end ModuleInterop.Syntax

namespace ModuleInterop

open ModuleInterop.Syntax ModuleInterop.Text ModuleInterop.Scope ModuleInterop.Usage
open ModuleInterop.Conversion

variable {source : List Char} {program : Program} {ignoreGlobal : Bool}

/-! ## Words that are found -/

/-- The words that are searched for begin with a letter. -/
theorem letter_of_mem_commonJsWords {word : List Char} (mem : word ∈ commonJsWords ignoreGlobal) :
    ∃ c rest, word = c :: rest ∧ c.isAlpha = true := by
  have letters : (commonJsWords ignoreGlobal).all (fun word => word.head?.any Char.isAlpha) = true := by
    cases ignoreGlobal <;> decide
  have letter := List.all_eq_true.mp letters word mem
  cases word with
  | nil => contradiction
  | cons c rest => exact ⟨c, rest, rfl, letter⟩

/-- A name that a module refers to is found in its text if it is written without escapes. -/
theorem hasCommonJsWord_of_reference {known : Expr → Option Bool} {enters : Node → Bool}
    {node : Node} {span : Span} {text : String} (parsed : parseModule source = .ok program)
    (reaches : program.Reaches known enters node) (reference : node.reference? = some (span, text))
    (known : text.toList ∈ commonJsWords ignoreGlobal) (written : span.Shows source text.toList) :
    hasCommonJsWord source ignoreGlobal = true := by
  have alone := (reaches.alone parsed reference).standsAlone written
  exact containsWord_of_standsAlone known (letter_of_mem_commonJsWords known) alone

/-- The word that begins an import or an export is found in the text. -/
theorem hasModuleWord_of_isModuleItem (parsed : parseModule source = .ok program) {s : Stmt}
    (mem : s ∈ program.body) (item : s.isModuleItem = true) : hasModuleWord source = true := by
  obtain ⟨lo, hi, -, -, laid⟩ := (laid_parseModule parsed).exists_laid (List.mem_map_of_mem mem)
  rcases laid.announced item with alone | alone
  · exact containsWord_of_standsAlone List.mem_cons_self ⟨_, _, rfl, by decide⟩ alone
  · exact containsWord_of_standsAlone (List.mem_cons_of_mem _ List.mem_cons_self)
      ⟨_, _, rfl, by decide⟩ alone

/-- **A text without the words has no imports and exports in it.** -/
theorem ofProgram_of_not_hasModuleWord (parsed : parseModule source = .ok program)
    (absent : hasModuleWord source = false) : EsModuleInfo.ofProgram program = .none := by
  have no (s : Stmt) (mem : s ∈ program.body) : ¬ s.isModuleItem = true := fun item =>
    Bool.false_ne_true (absent.symm.trans (hasModuleWord_of_isModuleItem parsed mem item))
  have noItem : program.body.any Stmt.isModuleItem = false := List.any_eq_false.mpr no
  have noDefault : program.body.any Stmt.exportsDefault = false :=
    List.any_eq_false.mpr fun s mem exports => no s mem (Stmt.isModuleItem_of_exportsDefault exports)
  rw [EsModuleInfo.ofProgram, noItem, noDefault]
  rfl

/-! ## Modules in plain words -/

/-- A module is in plain words if only names that are written as they are call for a conversion of it:
where it refers to what CommonJS modules get from outside, there are no escapes, and it does not use
`this` for the global object.  Bare defaults call for nothing. -/
structure PlainWords (program : Program) (source : List Char) (ignoreGlobal : Bool) : Prop where
  written : ∀ node span text, program.Live node → node.reference? = some (span, text) →
    (Bindings.ofProgram program).isFreeAt span.start = true → node.isBareDefault = false →
    text.toList ∈ commonJsWords ignoreGlobal → span.Shows source text.toList
  enclosed : ignoreGlobal = false → ∀ place concise span,
    ¬ program.LiveOuter (.expr place concise (.this span))

/-- The words that are searched for are names that call for a conversion. -/
theorem exists_freeName {text : String} (mem : text.toList ∈ commonJsWords ignoreGlobal) :
    ∃ name : FreeName, name.text = text ∧ name ≠ .define ∧
      (name = .global → ignoreGlobal = false) := by
  obtain ⟨word, among, same⟩ := List.mem_map.mp mem
  obtain rfl : word = text := String.toList_inj.mp same
  cases ignoreGlobal with
  | true =>
    simp only [if_true, List.mem_cons, List.not_mem_nil, or_false] at among
    rcases among with rfl | rfl | rfl
    · exact ⟨.require, rfl, nofun, nofun⟩
    · exact ⟨.value .module, rfl, nofun, nofun⟩
    · exact ⟨.value .exports, rfl, nofun, nofun⟩
  | false =>
    simp only [Bool.false_eq_true, if_false, List.mem_cons, List.not_mem_nil, or_false] at among
    rcases among with rfl | rfl | rfl | rfl
    · exact ⟨.require, rfl, nofun, fun _ => rfl⟩
    · exact ⟨.value .module, rfl, nofun, fun _ => rfl⟩
    · exact ⟨.value .exports, rfl, nofun, fun _ => rfl⟩
    · exact ⟨.global, rfl, nofun, fun _ => rfl⟩

/-- **Where none of the words is found**, a module does not touch CommonJS exactly if it is in plain
words. -/
theorem not_touches_iff_plainWords (parsed : parseModule source = .ok program)
    (absent : hasCommonJsWord source ignoreGlobal = false) :
    ¬ Touches program ignoreGlobal ↔ PlainWords program source ignoreGlobal := by
  constructor
  · intro calm
    constructor
    · intro node span text live reference free regular word
      obtain ⟨name, rfl, known, heeded⟩ := exists_freeName word
      exact absurd (.reference live reference free regular known heeded) calm
    · exact fun heeded place concise span live => calm (.outerThis live heeded)
  · rintro plain (⟨live, reference, free, regular, known, heeded⟩ | ⟨live, heeded⟩)
    · have word := text_mem_commonJsWords known heeded
      have written := plain.written _ _ _ live reference free regular word
      have found := hasCommonJsWord_of_reference parsed live reference word written
      exact Bool.false_ne_true (absent.symm.trans found)
    · exact plain.enclosed heeded _ _ _ live

/-- The conversion of a module that does not touch CommonJS. -/
theorem convert_of_not_touches {id : String} {options : Conversion.Options}
    (calm : ¬ Touches program options.ignoreGlobal) :
    convert program source id options =
      if options.namedExports.isEmpty then .ok none else .error .notCommonJs := by
  have calm : (analyse program source options).2.any = false :=
    Bool.eq_false_iff.mpr fun any => calm (any_iff_touches.mp any)
  simp [convert, calm]

/-- Without names that a module has to export, it is left alone exactly if it does not touch CommonJS. -/
theorem convert_eq_none_iff {id : String} {options : Conversion.Options}
    (nothing : options.namedExports = []) :
    convert program source id options = .ok none ↔ ¬ Touches program options.ignoreGlobal := by
  constructor
  · intro left touches
    exact (convert_of_any (any_iff_touches.mpr touches)).1 left
  · intro calm
    simp [convert_of_not_touches calm, nothing]

namespace Build.Session

variable {options : Build.Options} {id : String} {isEntry : Bool}

/-- What becomes of a module that does not touch CommonJS when it is to be converted. -/
theorem convertModule_of_not_touches (calm : ¬ Touches program options.ignoreGlobal) :
    convertModule options program source id isEntry =
      leave (.unchanged (esClassification (EsModuleInfo.ofProgram program))
        (EsModuleInfo.ofProgram program)) (options.namedExportsFor id) := by
  have converted : convert program source id
      (conversionOptions options id isEntry (EsModuleInfo.ofProgram program)) =
        if (options.namedExportsFor id).isEmpty then .ok none else .error .notCommonJs :=
    convert_of_not_touches calm
  simp only [convertModule, converted, leave]
  cases (options.namedExportsFor id).isEmpty <;> rfl

/-- What becomes of a module whose text has none of the words. -/
theorem outcome_of_not_hasCommonJsWord {filter : Build.Filter}
    (parsed : parseModule source = .ok program) (accepted : filter.accepts id = true)
    (absent : hasCommonJsWord source options.ignoreGlobal = false) :
    outcome options filter source id isEntry =
      leave (.unchanged (esClassification (EsModuleInfo.ofProgram program))
        (EsModuleInfo.ofProgram program)) (options.namedExportsFor id) := by
  cases words : hasModuleWord source with
  | true => simp [outcome, accepted, absent, words, readModule, parsed]
  | false =>
    have noItem := ofProgram_of_not_hasModuleWord parsed words
    simp [outcome, accepted, absent, words, noItem, esClassification, EsModuleInfo.none]

end Build.Session

/-- **A module that is not read is no ES module.**  If a text has neither of the words that begin imports
and exports, then the module has no imports and exports; so a session that skips it for its text answers
and keeps a record as if it had read the module. -/
theorem skipped_as_if_read {code : String} (parsed : parseModule code.toList = .ok program)
    (absent : hasModuleWord code.toList = false) :
    EsModuleInfo.ofProgram program = .none ∧
      ∀ (session : Build.Session) (id : String) (isEntry : Bool),
        session.filter.accepts id = true →
        hasCommonJsWord code.toList session.options.ignoreGlobal = false →
        session.transform code id isEntry =
          (if (session.options.namedExportsFor id).isEmpty then .ok none
            else .error (.notCommonJs id),
          session.keep id (.unchanged (Build.esClassification (EsModuleInfo.ofProgram program))
            (EsModuleInfo.ofProgram program))) := by
  refine ⟨ofProgram_of_not_hasModuleWord parsed absent, fun session id isEntry accepted quiet => ?_⟩
  rw [Build.Session.transform,
    Build.Session.outcome_of_not_hasCommonJsWord parsed accepted quiet, Build.Session.leave]
  cases (session.options.namedExportsFor id).isEmpty <;> rfl

/-- A call of a function `imports`, in which none of the words stands alone. -/
def importsCode : String := "imports(re_export);"

/-- The tree of `importsCode`. -/
def importsModule : Program :=
  ⟨[.expression ⟨0, 19⟩ (.call ⟨0, 18⟩ (.name ⟨0, 7⟩ "imports") [.name ⟨8, 17⟩ "re_export"])]⟩

set_option maxRecDepth 4000 in
/-- A session that has found out nothing yet records the module as one without imports and exports. -/
theorem imports_skipped :
    parseModule importsCode.toList = .ok importsModule ∧
      hasModuleWord importsCode.toList = false ∧
      EsModuleInfo.ofProgram importsModule = .none ∧
      ((⟨.default, ⟨[], [], [".js"]⟩, [], .empty, []⟩ : Build.Session).transform
          importsCode "m.js" false).1 = .ok none ∧
      (((⟨.default, ⟨[], [], [".js"]⟩, [], .empty, []⟩ : Build.Session).transform
          importsCode "m.js" false).2.record? "m.js") =
        some (.unchanged .esmWithoutDefault .none) := by
  have parsed : parseModule importsCode.toList = .ok importsModule := rfl
  have absent : hasModuleWord importsCode.toList = false := by decide +kernel
  obtain ⟨noItem, skipped⟩ := skipped_as_if_read parsed absent
  have answered := skipped ⟨.default, ⟨[], [], [".js"]⟩, [], .empty, []⟩ "m.js" false
    (by decide +kernel) (by decide +kernel)
  rw [answered]
  exact ⟨parsed, absent, noItem, rfl, rfl⟩

/-- **The search agrees with the conversion for modules in plain words.**  If the text of a module has
none of the words, then the conversion leaves the module alone exactly if it is in plain words; and for
such a module a session finds out the same whether the text is searched first or not. -/
theorem wordless_left_alone_iff (parsed : parseModule source = .ok program)
    (absent : hasCommonJsWord source ignoreGlobal = false) :
    (∀ (options : Conversion.Options) (id : String), options.ignoreGlobal = ignoreGlobal →
      options.namedExports = [] →
      (convert program source id options = .ok none ↔ PlainWords program source ignoreGlobal)) ∧
    (PlainWords program source ignoreGlobal →
      ∀ (options : Build.Options) (filter : Build.Filter) (id : String) (isEntry : Bool),
        options.ignoreGlobal = ignoreGlobal → filter.accepts id = true →
        Build.Session.outcome options filter source id isEntry =
          Build.Session.convertModule options program source id isEntry) := by
  have calm := not_touches_iff_plainWords parsed absent
  constructor
  · rintro options id rfl nothing
    exact (convert_eq_none_iff nothing).trans calm
  · rintro plain options filter id isEntry rfl accepted
    rw [Build.Session.outcome_of_not_hasCommonJsWord parsed accepted absent,
      Build.Session.convertModule_of_not_touches (calm.mpr plain)]

/-- A variable `require` of the module's own, whose name is always written with an escape. -/
def escapedSource : List Char := "let \\u0072equire; \\u0072equire();".toList

/-- The variable in `escapedSource`. -/
def escapedVariable : Declarator := .mk ⟨4, 16⟩ (.binding ⟨⟨4, 16⟩, "require"⟩) none

/-- The call in `escapedSource`. -/
def escapedCall : Expr := .call ⟨18, 32⟩ (.name ⟨18, 30⟩ "require") []

/-- The tree of `escapedSource`. -/
def escapedModule : Program :=
  ⟨[.variables ⟨0, 17⟩ (.lexical false) [escapedVariable], .expression ⟨18, 33⟩ escapedCall]⟩

/-- All nodes of `escapedModule`. -/
def escapedNodes : List Node :=
  [.stmt .body false (.variables ⟨0, 17⟩ (.lexical false) [escapedVariable]),
    .declarator .body escapedVariable, .pattern (.binding ⟨⟨4, 16⟩, "require"⟩),
    .stmt .body false (.expression ⟨18, 33⟩ escapedCall),
    .expr (.statement ⟨18, 33⟩ .body) false escapedCall, .part (.name ⟨18, 30⟩ "require")]

set_option maxRecDepth 4000 in
/-- The module is left alone, and a session records the same with and without the search. -/
theorem escaped_left_alone :
    parseModule escapedSource = .ok escapedModule ∧ PlainWords escapedModule escapedSource false ∧
      hasCommonJsWord escapedSource false = false ∧
      convert escapedModule escapedSource "m.js" .plain = .ok none ∧
      Build.Session.outcome .default ⟨[], [], [".js"]⟩ escapedSource "m.js" true =
        Build.Session.convertModule .default escapedModule escapedSource "m.js" true := by
  have nodes {known : Expr → Option Bool} {enters : Node → Bool} {node : Node}
      (reaches : escapedModule.Reaches known enters node) : node ∈ escapedNodes := by
    refine reaches.mem_of_closed ?_ ?_
    · simp [escapedModule, escapedNodes]
    · simp [escapedNodes, Node.parts, escapedVariable, escapedCall, Node.part]
  have plain : PlainWords escapedModule escapedSource false := by
    constructor
    · intro node span text live reference free _ word
      have mem := nodes live
      simp only [escapedNodes, List.mem_cons, List.not_mem_nil, or_false] at mem
      rcases mem with rfl | rfl | rfl | rfl | rfl | rfl
      iterate 5 contradiction
      obtain ⟨rfl, rfl⟩ := Prod.mk.inj (Option.some.inj reference)
      have bound : (Bindings.ofProgram escapedModule).isFreeAt 18 = false := by decide +kernel
      exact absurd (bound.symm.trans free) Bool.false_ne_true
    · intro _ place concise span live
      simpa [escapedNodes, escapedCall, Node.part] using nodes live
  have absent : hasCommonJsWord escapedSource false = false := by decide +kernel
  obtain ⟨alone, agrees⟩ := wordless_left_alone_iff rfl absent
  exact ⟨rfl, plain, absent, (alone .plain "m.js" rfl rfl).mpr plain,
    agrees plain .default ⟨[], [], [".js"]⟩ "m.js" true rfl (by decide +kernel)⟩

/-- A module that reads a property of the global object by `this`. -/
def thisSource : List Char := "this.x;".toList

/-- The tree of `thisSource`. -/
def thisModule : Program := ⟨[.expression ⟨0, 7⟩ (.member ⟨0, 6⟩ (.this ⟨0, 4⟩) "x")]⟩

/-- A module that refers to `require` with an escape. -/
def hiddenSource : List Char := "\\u0072equire;".toList

/-- The tree of `hiddenSource`. -/
def hiddenModule : Program := ⟨[.expression ⟨0, 13⟩ (.name ⟨0, 12⟩ "require")]⟩

set_option maxRecDepth 4000 in
/-- **The search does not find everything**: in two modules none of the words is found, and both are
converted. -/
theorem wordless_converted :
    parseModule thisSource = .ok thisModule ∧ hasCommonJsWord thisSource false = false ∧
      convert thisModule thisSource "m" .plain ≠ .ok none ∧
    parseModule hiddenSource = .ok hiddenModule ∧ hasCommonJsWord hiddenSource false = false ∧
      convert hiddenModule hiddenSource "m" .plain ≠ .ok none := by
  have this_any : (findingsOf thisModule thisSource .plain).any = true := by decide +kernel
  have hidden_any : (findingsOf hiddenModule hiddenSource .plain).any = true := by decide +kernel
  exact ⟨rfl, by decide +kernel, (convert_of_any this_any).1, rfl, by decide +kernel,
    (convert_of_any hidden_any).1⟩

end ModuleInterop
