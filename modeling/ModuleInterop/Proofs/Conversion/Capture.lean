import ModuleInterop.Proofs.Conversion.Freshness
import ModuleInterop.Proofs.Conversion.RequiredValues
import ModuleInterop.Proofs.Scope.Hosted

/-!
# What names refer to in a wrapped module

A wrapped module runs in a function, whose parameters are `module` and, where it is used, `exports`.
Around the function stand the names that the generated code binds, and among them those of variables
that have gone because an import has taken their place.  So each name of the source looks up its
declaration in another chain of scopes than before: the parameters come between what the source
declares at its top and the imports.

A name that refers to a declaration of the source still refers to it, and to the import if the
variable has gone, provided that the source declares no parameter at its top
(`references_not_rebound`).  A variable `module` that goes is lost behind the parameter of that name
(`import_captured`).
-/

set_option autoImplicit false

namespace ModuleInterop.Conversion

open ModuleInterop.Syntax ModuleInterop.Scope ModuleInterop.Usage ModuleInterop.Patch
  ModuleInterop.Virtual

/-- Names at positions of their own from some position on. -/
def namesFrom (start : Nat) (texts : List String) : List Name :=
  (texts.zipIdx start).map fun t => ⟨⟨t.2, t.2 + 1⟩, t.1⟩

section Names

variable (start : Nat) (texts : List String)

theorem texts_namesFrom : (namesFrom start texts).map Name.text = texts := by
  unfold namesFrom
  rw [List.map_map]
  exact List.zipIdx_map_fst start texts

theorem positions_namesFrom :
    (namesFrom start texts).map (fun name => name.span.start) = List.range' start texts.length := by
  unfold namesFrom
  rw [List.map_map]
  exact List.zipIdx_map_snd start texts

end Names

section Module

variable (program : Program) (source : List Char) (id : String) (options : Options)

/-- Whether a position stands in a variable that goes. -/
def goesAt (position : Nat) : Bool :=
  (findingsOf program source options).elided.any fun span =>
    span.start ≤ position && position < span.stop

/-- The names that the generated code binds around the function of a wrapped module.  They have
positions past the end of the source. -/
def outerNames : List Name :=
  namesFrom (Text.byteLength source) (boundNames program source id options)

/-- The parameters of the function, with positions past those of the names around it. -/
def parameterNames : List Name :=
  namesFrom (Text.byteLength source + (boundNames program source id options).length)
    (wrapperParameters (findingsOf program source options).usesExports)

/-- What the names of the source refer to in the wrapped module: the source without the variables that
go stands in a function with parameters, and the names that the generated code binds around it. -/
def wrappedBindings : Bindings :=
  Bindings.ofOccurrences (hosted (goesAt program source options)
    (outerNames program source id options) (parameterNames program source id options)
    (ofStmts program.body))

/-- The variable that the source declares at a position has gone, and the import of the module that it
has as its value has taken its name. -/
inductive TakenByImport (out : Converted) (position : Nat) (entry : RequiredModule) : Prop
  | of_variable {home : Home} {span : Span} {name : Name} {init : Expr} {call : RequireCall} :
      program.Live (.declarator home (.mk span (.binding name) (some init))) →
      requireCall? (Bindings.ofProgram program) options.ignored init = some call →
      span.start ≤ position → position < span.stop → entry.name = name.text →
      Imported program source options out call.target entry →
      TakenByImport out position entry

end Module

variable {program : Program} {source : List Char} {id : String} {options : Options}
  {out : Converted}

/-! ## Variables that go -/

/-- A position in a variable that goes stands in one whose value is imported under its name. -/
theorem exists_of_goesAt {position : Nat} (goes : goesAt program source options position = true) :
    ∃ span text call entry, span.start ≤ position ∧ position < span.stop ∧
      .requiredVariable span text call ∈
        usesOf (Bindings.ofProgram program) options.ignored program ∧
      (findingsOf program source options).find? call.target = some entry ∧ entry.name = text ∧
        entry.bindsValue = true := by
  obtain ⟨span, mem, inside⟩ := List.any_eq_true.mp goes
  rw [Bool.and_eq_true, decide_eq_true_eq, decide_eq_true_eq] at inside
  rcases Findings.foldl_elided mem with none | ⟨text, call, entry, use, found⟩
  · contradiction
  · exact ⟨span, text, call, entry, inside.1, inside.2, use, found⟩

/-- A name is declared at one place among occurrences with different positions. -/
theorem declared_once {before after before' after' : List Occurrence} {rule rule' : DeclarationRule}
    {name name' : Name} (split : before ++ .declare rule name :: after =
      before' ++ .declare rule' name' :: after')
    (distinct : (declaredOffsets (before ++ .declare rule name :: after)).Nodup)
    (same : name'.span.start = name.span.start) :
    before' = before ∧ Occurrence.declare rule' name' = .declare rule name := by
  have here : declaredOffsets (.declare rule name :: after) =
      name.span.start :: declaredOffsets after := rfl
  rw [declaredOffsets_append, here, List.nodup_middle, List.nodup_cons] at distinct
  have elsewhere {some : List Occurrence} (sub : some ⊆ before ++ after) :
      Occurrence.declare rule' name' ∉ some := by
    intro mem
    refine distinct.1 ?_
    rw [← declaredOffsets_append]
    exact List.mem_filterMap.mpr ⟨_, sub mem, congrArg Option.some same⟩
  obtain ⟨rfl, same, -⟩ := (List.append_cons_inj_of_notMem
    (elsewhere (List.subset_append_left _ _)) (elsewhere (List.subset_append_right _ _))).mp split
  exact ⟨rfl, same.symm⟩

/-- Among the names of a module, one that is declared in a variable that goes is the name of that
variable: it is declared at the top and nowhere else. -/
theorem declared_of_goesAt (parsed : parseModule source = .ok program) {before after : List Occurrence}
    {rule : DeclarationRule} {name : Name}
    (split : ofStmts program.body = before ++ .declare rule name :: after)
    (goes : goesAt program source options name.span.start = true) :
    rule ≠ .shadowing ∧ (before.foldl Reading.step .start).current = ScopeTree.root ∧
      name.text ∉ (before.foldl Reading.step .start).rootNames ∧
      name.text ∈ ((ofStmts program.body).foldl Reading.step .start).rootNames ∧
      (Bindings.ofProgram program).isConstantAt name.span.start = true := by
  obtain ⟨span, text, call, entry, low, high, use, -⟩ := exists_of_goesAt goes
  obtain ⟨names, tally, receives⟩ := exists_receives parsed options.ignored
  obtain ⟨-, -, ⟨receiver, among, -, -, -, only⟩, -⟩ :=
    tally.stretches (span, text) (List.mem_filterMap.mpr ⟨_, use, rfl⟩)
  obtain ⟨before', rule', offset, text', others, split', joins, top, constant⟩ :=
    receives.exists_declare among
  have distinct := tally.ascending.nodup
  have declared : name.span.start ∈ declaredOffsets (ofStmts program.body) := by
    rw [split]
    exact List.mem_filterMap.mpr ⟨.declare rule name, by simp, rfl⟩
  obtain ⟨rfl, same⟩ := declared_once (split.symm.trans split')
    (split ▸ (declaredOffsets_sublist _).nodup distinct) (only _ declared low high).symm
  obtain ⟨rfl, rfl⟩ := Occurrence.declare.inj same
  obtain ⟨current, new, now⟩ :=
    declared_at_top (balanced_ofStmts program.body) distinct split' joins top constant
  refine ⟨joins, current, new, ?_, constant⟩
  rw [split', List.append_cons, List.foldl_append]
  exact ((Reading.rooted_start.foldl _).rooted.foldl _).names now

/-- A name that refers to a declaration does not stand in a variable that goes. -/
theorem goesAt_eq_false (parsed : parseModule source = .ok program) {position declaration : Nat}
    (refers : (Bindings.ofProgram program).RefersTo position declaration) :
    goesAt program source options position = false := by
  obtain ⟨names, tally, -⟩ := exists_receives parsed options.ignored
  obtain ⟨mem, bound⟩ := refers.referred (balanced_ofStmts program.body)
    ((referredOffsets_sublist _).nodup tally.ascending.nodup)
  by_contra goes
  rw [Bool.not_eq_false] at goes
  obtain ⟨span, text, call, entry, low, high, use, -⟩ := exists_of_goesAt goes
  have stretch := tally.stretches (span, text) (List.mem_filterMap.mpr ⟨_, use, rfl⟩)
  have free := stretch.free position mem low high
  rw [show (Bindings.ofProgram program).isFreeAt position = false from bound] at free
  contradiction

/-! ## The wrapped module -/

/-- **A module can be put into the function** that a wrapped module becomes. -/
theorem hostable (parsed : parseModule source = .ok program) (id : String) (options : Options) :
    Hostable (goesAt program source options) (outerNames program source id options)
      (parameterNames program source id options) (ofStmts program.body) where
  balanced := balanced_ofStmts program.body
  positions := by
    obtain ⟨names, tally⟩ := exists_tally parsed (Bindings.ofProgram program) options.ignored
    have past : (outerNames program source id options ++
        parameterNames program source id options).map (fun name => name.span.start) =
          List.range' (Text.byteLength source) ((boundNames program source id options).length +
            (wrapperParameters (findingsOf program source options).usesExports).length) := by
      rw [List.map_append, outerNames, parameterNames, positions_namesFrom, positions_namesFrom,
        List.range'_append_1]
    rw [past]
    refine List.nodup_append.mpr ⟨List.nodup_range', tally.ascending.nodup, ?_⟩
    intro n outside m inside
    have := (tally.ascending.within m inside).2
    have := (List.mem_range'_1.mp outside).1
    omega
  outside := by
    rw [outerNames, texts_namesFrom]
    exact boundNames_distinct parsed id options
  parameters := by
    rw [parameterNames, texts_namesFrom]
    unfold wrapperParameters
    split <;> decide
  gone := fun before rule name after split goes => declared_of_goesAt parsed split goes

/-- What goes is declared under the name of the import that takes its place. -/
theorem takenByImport (parsed : parseModule source = .ok program)
    {edited : Output} (emitted : Emitted program source id options out edited) {position : Nat}
    (declared : position ∈ declaredOffsets (ofStmts program.body))
    (goes : goesAt program source options position = true) :
    ∃ entry, TakenByImport program source options out position entry ∧
      textAt (ofStmts program.body) position = entry.name := by
  obtain ⟨span, text, call, entry, low, high, use, found, named, binds⟩ := exists_of_goesAt goes
  obtain ⟨names, tally, receives⟩ := exists_receives parsed options.ignored
  obtain ⟨-, -, ⟨receiver, among, same, -, -, only⟩, -⟩ :=
    tally.stretches (span, text) (List.mem_filterMap.mpr ⟨_, use, rfl⟩)
  obtain ⟨before, rule, offset, text', others, split, -⟩ := receives.exists_declare among
  obtain rfl := only position declared low high
  have written : textAt (ofStmts program.body) receiver.span.start = receiver.text :=
    (hostable parsed id options).textAt_eq
      (show Occurrence.declare rule receiver ∈ _ by rw [split]; simp)
  obtain ⟨_, node, visited, own⟩ := mem_usesOf_iff.mp use
  cases ownCall_of_mem_own own rfl with
  | value value unexported root constant =>
    exact ⟨entry, .of_variable visited.live value low high named (emitted.imported found binds),
      written.trans (same.trans named.symm)⟩

/-- An import that takes the place of a variable binds its name around the function. -/
theorem exists_outerName (id : String) {position : Nat} {entry : RequiredModule}
    (taken : TakenByImport program source options out position entry) :
    ∃ name ∈ outerNames program source id options, name.text = entry.name := by
  obtain ⟨-, -, -, -, -, imported⟩ := taken
  have bound : entry.name ∈ (outerNames program source id options).map Name.text := by
    rw [outerNames, texts_namesFrom]
    exact List.mem_append_left _ (ImportedAs.value imported).mem_importedNames
  exact List.mem_map.mp bound

/-- **Wrapping does not rebind the names of the source**: a name that refers to a declaration stays.
If the declaration stays, the name refers to the same declarations as before; if it is that of a
variable that has gone, the name refers to the import that has taken its place.  It never refers to a
parameter of the function.  This holds if the source does not declare a parameter at its top. -/
theorem references_not_rebound (parsed : parseModule source = .ok program)
    (converted : convert program source id options = .ok (some out)) (wrapped : out.wrapped = true)
    (undeclared : ∀ parameter ∈ wrapperParameters (findingsOf program source options).usesExports,
      (sourceTree program).declares ScopeTree.root parameter = false) :
    (∃ edited, Emitted program source id options out edited ∧
      Enclosed program source id options out edited) ∧
    ∀ n d, (Bindings.ofProgram program).RefersTo n d →
      goesAt program source options n = false ∧
      (goesAt program source options d = false →
        ∀ e, (wrappedBindings program source id options).RefersTo n e ↔
          (Bindings.ofProgram program).RefersTo n e) ∧
      (goesAt program source options d = true →
        ∃ entry, TakenByImport program source options out d entry ∧
          ∃ name ∈ outerNames program source id options, name.text = entry.name ∧
            ∀ e, (wrappedBindings program source id options).RefersTo n e ↔ e = name.span.start) ∧
      ∀ parameter ∈ parameterNames program source id options,
        ¬ (wrappedBindings program source id options).RefersTo n parameter.span.start := by
  obtain ⟨edited, emitted⟩ := exists_emitted converted
  have host := hostable parsed id options
  refine ⟨⟨edited, emitted, emitted.enclosed wrapped⟩, fun n d refers => ?_⟩
  have stands : goesAt program source options n = false := goesAt_eq_false parsed refers
  have among {parameter : Name} (mem : parameter ∈ parameterNames program source id options) :
      parameter.text ∈ wrapperParameters (findingsOf program source options).usesExports := by
    rw [← texts_namesFrom (_ + _) (wrapperParameters _)]
    exact List.mem_map_of_mem mem
  have uncaptured : ∀ parameter ∈ parameterNames program source id options,
      ¬ (wrappedBindings program source id options).RefersTo n parameter.span.start := by
    intro parameter mem captured
    have declared := declares_root_iff.mpr
      (host.mem_rootNames_of_refersTo stands mem refers captured)
    have free := undeclared _ (among mem)
    rw [sourceTree, Bindings.ofProgram, declared] at free
    contradiction
  refine ⟨stands, fun kept => host.refersTo_iff_of_uncaptured stands refers kept uncaptured,
    fun goes => ?_, uncaptured⟩
  obtain ⟨entry, taken, written⟩ := takenByImport parsed emitted refers.mem_declaredOffsets goes
  obtain ⟨name, around, named⟩ := exists_outerName id taken
  refine ⟨entry, taken, name, around, named, fun e => ?_⟩
  refine host.refersTo_iff_of_gone stands refers goes around (named.trans written.symm) ?_
  rintro parameter
  obtain ⟨p, mem, same⟩ := List.mem_map.mp parameter
  obtain ⟨_, _, -, there⟩ := exists_resolved_of_refersTo host.balanced refers
  have declared := declares_root_iff.mpr (host.mem_rootNames_of_gone there goes)
  have free := undeclared _ (among mem)
  rw [sourceTree, Bindings.ofProgram, same, declared] at free
  contradiction

/-- A module with a variable that goes, and a function with a parameter named like that of the function
around the module. -/
def calleeSource : List Char :=
  "var a = require('a'); function f(module) { return a(module); } f(module); let b = a;".toList

/-- The tree of `calleeSource`. -/
def calleeModule : Program :=
  ⟨[.variables ⟨0, 21⟩ .var [.mk ⟨4, 20⟩ (.binding ⟨⟨4, 5⟩, "a"⟩)
      (some (.call ⟨8, 20⟩ (.name ⟨8, 15⟩ "require") [.literal ⟨16, 19⟩ (.string "a")]))],
    .declaration (.function ⟨22, 62⟩ .declaration (some ⟨⟨31, 32⟩, "f"⟩)
      [.binding ⟨⟨33, 39⟩, "module"⟩]
      [.returning ⟨43, 60⟩ (some (.call ⟨50, 59⟩ (.name ⟨50, 51⟩ "a")
        [.name ⟨52, 58⟩ "module"]))]),
    .expression ⟨63, 73⟩ (.call ⟨63, 72⟩ (.name ⟨63, 64⟩ "f") [.name ⟨65, 71⟩ "module"]),
    .variables ⟨74, 84⟩ (.lexical false) [.mk ⟨78, 83⟩ (.binding ⟨⟨78, 79⟩, "b"⟩)
      (some (.name ⟨82, 83⟩ "a"))]]⟩

set_option maxRecDepth 8000 in
/-- In the wrapped module the inner function refers to the import for its callee and to its own parameter
for the argument. -/
theorem callee_not_rebound :
    parseModule calleeSource = .ok calleeModule ∧
      (∃ entry out, TakenByImport calleeModule calleeSource .plain out 4 entry ∧
        ∃ name ∈ outerNames calleeModule calleeSource "m" .plain, name.text = entry.name ∧
          ∀ e, (wrappedBindings calleeModule calleeSource "m" .plain).RefersTo 50 e ↔
            e = name.span.start) ∧
      (wrappedBindings calleeModule calleeSource "m" .plain).RefersTo 52 33 := by
  have parsed : parseModule calleeSource = .ok calleeModule := rfl
  obtain ⟨out, converted, wrapped⟩ := exists_of_any
    (show (convert calleeModule calleeSource "m" .plain).toOption.join.any (·.wrapped) = true by
      decide +kernel)
  obtain ⟨-, all⟩ := references_not_rebound parsed converted wrapped (by decide +kernel)
  obtain ⟨-, -, taken, -⟩ := all 50 4 (by decide +kernel)
  obtain ⟨-, kept, -, -⟩ := all 52 33 (by decide +kernel)
  obtain ⟨entry, replaced⟩ := taken (by decide +kernel)
  exact ⟨parsed, ⟨entry, out, replaced⟩, (kept (by decide +kernel) 33).mpr (by decide +kernel)⟩

/-- A module with a variable `module` that goes. -/
def captiveSource : List Char := "var module = require('a'); f(module); return;".toList

/-- The tree of `captiveSource`. -/
def captiveModule : Program :=
  ⟨[.variables ⟨0, 26⟩ .var [.mk ⟨4, 25⟩ (.binding ⟨⟨4, 10⟩, "module"⟩)
      (some (.call ⟨13, 25⟩ (.name ⟨13, 20⟩ "require") [.literal ⟨21, 24⟩ (.string "a")]))],
    .expression ⟨27, 37⟩ (.call ⟨27, 36⟩ (.name ⟨27, 28⟩ "f") [.name ⟨29, 35⟩ "module"]),
    .returning ⟨38, 45⟩ none]⟩

set_option maxRecDepth 8000 in
/-- The argument refers to that variable.  In the wrapped module it refers to the parameter `module` of
the function around the module, and the import of that name is lost; so it is in the text that the
conversion gives. -/
theorem import_captured :
    parseModule captiveSource = .ok captiveModule ∧
      (Bindings.ofProgram captiveModule).RefersTo 29 4 ∧
      goesAt captiveModule captiveSource .plain 4 = true ∧
      (∀ name ∈ outerNames captiveModule captiveSource "m" .plain,
        ¬ (wrappedBindings captiveModule captiveSource "m" .plain).RefersTo 29 name.span.start) ∧
      (∃ parameter ∈ parameterNames captiveModule captiveSource "m" .plain,
        (wrappedBindings captiveModule captiveSource "m" .plain).RefersTo 29 parameter.span.start) ∧
      ∃ out output, convert captiveModule captiveSource "m" .plain = .ok (some out) ∧
        parseModule out.code.toList = .ok output ∧
        (Bindings.ofProgram output).RefersTo 183 171 ∧
        ¬ (Bindings.ofProgram output).RefersTo 183 77 := by
  refine ⟨rfl, by decide +kernel, by decide +kernel, by decide +kernel, by decide +kernel, ?_⟩
  obtain ⟨out, converted, reads⟩ := exists_of_any
    (show (convert captiveModule captiveSource "m" .plain).toOption.join.any (fun out =>
      (parseModule out.code.toList).toOption.any fun output =>
        (Bindings.ofProgram output).RefersTo 183 171 ∧
          ¬ (Bindings.ofProgram output).RefersTo 183 77) = true by decide +kernel)
  obtain ⟨output, reread, captured⟩ := exists_ok_of_any reads
  rw [decide_eq_true_eq] at captured
  exact ⟨out, output, converted, reread, captured⟩

end ModuleInterop.Conversion
