import ModuleInterop.Proofs.Conversion.Hybrid
import ModuleInterop.Proofs.Syntax.Quoted
import ModuleInterop.Proofs.Usage.Order
import Mathlib

/-!
# The sources of a converted module

A converted module lists the targets of its live calls of `require` once each, in the order in which they
first occur in the text, and it begins with an import of each target and then one of each proxy, in this
order (`sources_in_order`).  Each call that is taken puts its target at the end of the list unless it is
there (`targets_step`), and the calls are taken in the order of the text.

A specifier is a string literal that denotes the target.  The string that the argument of a call denotes is
the same one as long as no surrogate in it is without its partner; two surrogates that are written with
braces are taken for lone ones, and then another module is imported (`braced_pair_missed`).
-/

set_option autoImplicit false

namespace ModuleInterop.Conversion

open ModuleInterop.Syntax ModuleInterop.Scope ModuleInterop.Usage ModuleInterop.Virtual
  ModuleInterop.Text ModuleInterop.Patch

/-! ## Lists without repetition -/

/-- Appending names that are new leaves each name once, where it first stands. -/
theorem foldl_appendNew (names : List String) : names.foldl appendNew [] = names.eraseDups := by
  induction names using List.reverseRecOn with
  | nil => rfl
  | append_singleton names name ih =>
    rw [List.foldl_append, ih, List.eraseDups_append, List.foldl_cons, List.foldl_nil, appendNew]
    by_cases there : name ∈ names
    · simp [there, List.removeAll]
    · simp [there, List.removeAll, List.eraseDups_cons]

/-- Renaming without clashes keeps the order of first occurrences. -/
theorem map_eraseDups {α β : Type} [BEq α] [LawfulBEq α] [BEq β] [LawfulBEq β] {f : α → β}
    (inj : ∀ a b, f a = f b → a = b) (l : List α) : (l.map f).eraseDups = l.eraseDups.map f := by
  induction l using List.reverseRecOn with
  | nil => rfl
  | append_singleton l a ih =>
    have same : a ∈ l ↔ f a ∈ l.map f := by
      rw [List.mem_map]
      exact ⟨fun mem => ⟨a, mem, rfl⟩, fun ⟨b, mem, same⟩ => inj b a same ▸ mem⟩
    rw [List.map_append, List.eraseDups_append, List.eraseDups_append, List.map_append, ih]
    by_cases there : a ∈ l
    · simp [there, same.mp there, List.removeAll]
    · have new : f a ∉ l.map f := fun mem => there (same.mpr mem)
      have kept : List.removeAll [f a] (l.map f) = [f a] := by simp [List.removeAll, -List.mem_map, new]
      have kept' : List.removeAll [a] l = [a] := by simp [List.removeAll, there]
      rw [List.map_singleton, kept, kept']
      simp [List.eraseDups_cons]

/-! ## Registering targets -/

namespace Findings

variable {frame : Frame} {findings : Findings}

/-- The targets of the required modules. -/
def targets (findings : Findings) : List String := findings.required.map RequiredModule.target

theorem find?_eq_none_iff {target : String} :
    findings.find? target = none ↔ target ∉ findings.targets := by
  simp [find?, targets]

theorem targets_register (call : RequireCall) (preferred : Option String) :
    (findings.register frame call preferred).2.targets = appendNew findings.targets call.target := by
  cases found : findings.find? call.target with
  | none =>
    have new := find?_eq_none_iff.mp found
    cases preferred <;> simp [register, found, targets, appendNew] <;> simpa [targets] using new
  | some entry =>
    have there : call.target ∈ findings.targets := by
      by_contra new
      simp [find?_eq_none_iff.mpr new] at found
    simp [register, found, appendNew, there]

theorem targets_bindValue (target : String) : (findings.bindValue target).targets = findings.targets := by
  simp only [bindValue, targets, List.map_map]
  apply List.map_congr_left
  intro entry _
  by_cases same : entry.target = target <;> simp [same]

theorem targets_removeStatement (span : Span) (home : Home) :
    (findings.removeStatement span home).targets = findings.targets := by
  unfold removeStatement
  split <;> rfl

/-- **One step**: a use that is a call adds its target, and no other use changes the targets. -/
theorem targets_step (use : Use) :
    (findings.step frame use).targets =
      (use.call?.toList.map RequireCall.target).foldl appendNew findings.targets := by
  cases use with
  | name name span shorthand =>
    cases name with
    | value root => cases root <;> rfl
    | global => simp only [step]; split <;> rfl
    | _ => rfl
  | outerThis span => simp only [step]; split <;> rfl
  | typeofValue span root => cases root <;> rfl
  | outerReturn => rfl
  | exporting path direct names => cases h : path.root <;> simp [step, useValue, h, targets, Use.call?]
  | requiring call statement =>
    have registered := @targets_register frame findings call none
    cases statement with
    | none => exact (targets_bindValue call.target).trans registered
    | some statement => exact (targets_removeStatement statement.1 statement.2).trans registered
  | requiredVariable span name call =>
    have bound := (targets_bindValue call.target).trans
      (@targets_register frame findings call (some name))
    simp only [step]
    split <;> exact bound
  | declared span home declarators =>
    obtain ⟨edits, same⟩ := elide_eq findings span home declarators
    simp [step, same, targets, Use.call?]

/-- **A run**: the targets of the calls are added one after the other. -/
theorem targets_foldl (uses : List Use) :
    (uses.foldl (step frame) findings).targets =
      ((callsOf uses).map RequireCall.target).foldl appendNew findings.targets := by
  induction uses generalizing findings with
  | nil => rfl
  | cons use uses ih =>
    have calls : callsOf (use :: uses) = use.call?.toList ++ callsOf uses := by
      cases here : use.call? <;> simp [callsOf, here]
    rw [List.foldl_cons, ih, targets_step, calls, List.map_append, List.foldl_append]

end Findings

/-! ## Calls, specifiers and imports -/

/-- An argument that is a string, or a template without values. -/
inductive FixedText : Expr → String → Prop
  | string {span : Span} {text : String} : FixedText (.literal span (.string text)) text
  | template {span : Span} {text : String} {texts : List (Option String)} :
      FixedText (.template span (some text :: texts) []) text

theorem fixedText?_eq_some_iff {e : Expr} {text : String} :
    fixedText? e = some text ↔ FixedText e text := by
  constructor
  · intro fixed
    unfold fixedText? at fixed
    split at fixed
    · obtain rfl := Option.some.inj fixed
      exact .string
    · subst fixed
      exact .template
    · contradiction
  · rintro (_ | _) <;> rfl

/-- A call of `require` that runs, or may do so: the name is free, and the only argument is a fixed text
that is not to be left alone. -/
inductive StaticCall (program : Program) (ignored : List String) : Span × String → Prop
  | intro {place : Place} {concise : Bool} {span callee : Span} {argument : Expr} {target : String}
      (live : program.Live (.expr place concise (.call span (.name callee "require") [argument])))
      (free : (Bindings.ofProgram program).isFreeAt callee.start = true)
      (fixed : FixedText argument target) (taken : target ∉ ignored) :
      StaticCall program ignored (span, target)

theorem staticCall_iff {program : Program} {ignored : List String} {at_ : Span × String} :
    StaticCall program ignored at_ ↔
      ∃ call ∈ callsOf (usesOf (Bindings.ofProgram program) ignored program),
        (call.span, call.target) = at_ := by
  constructor
  · intro static
    cases static with
    | @intro place concise span callee argument target live free fixed taken =>
      use ⟨span, target, (Bindings.ofProgram program).scopeAt callee.start⟩
      rw [mem_callsOf_usesOf_iff]
      have text := fixedText?_eq_some_iff.mpr fixed
      exact ⟨⟨place, concise, _, live, by simp [requireCall?, free, text, taken]⟩, rfl⟩
  · rintro ⟨call, mem, rfl⟩
    obtain ⟨place, concise, e, live, static⟩ := mem_callsOf_usesOf_iff.mp mem
    obtain ⟨callee, argument, rfl, fixed, taken, -, free⟩ := requireCall?_eq_some static
    exact .intro live free (fixedText?_eq_some_iff.mp fixed) taken

/-- A text is a string literal that denotes another one: wherever it stands, reading takes just it,
without problems, and what is kept and what it denotes are this text. -/
structure Denotes (literal text : String) : Prop where
  read : ∀ newline pos rest, lexToken newline pos (literal.toList ++ rest) =
    ⟨⟨.literal (.string text) "string", ⟨pos, pos + byteLength literal.toList⟩, newline, false⟩,
      rest, pos + byteLength literal.toList, []⟩
  units : value16 (writtenAt literal.toList ⟨0, byteLength literal.toList⟩) =
    text.toList.flatMap encode16

theorem quote_denotes (text : String) : Denotes (quote text) text := by
  constructor
  · intro newline pos rest
    exact lexToken_quote newline pos text rest
  · have written : writtenAt (quote text).toList ⟨0, byteLength (quote text).toList⟩ =
        text.toList.map .scalar := by
      have quoted : (quote text).toList = '"' :: (text.toList.flatMap escapeChar ++ ['"']) := by
        simp [quote, quoteChars]
      have read := @scanText_quoted [] 0 1 text.toList []
      simp only [writtenAt, splitAt?, quoted]
      exact congrArg TextScan.units read
    rw [written, value16_scalars]

/-- A line that imports the module with an id, and that gives its value a name if there is one. -/
inductive ImportLine (target : String) : Option String → String → Prop
  | effects {literal : String} (denotes : Denotes literal target) :
      ImportLine target none ("import " ++ literal ++ ";")
  | value {name literal : String} (denotes : Denotes literal target) :
      ImportLine target (some name) ("import " ++ name ++ " from " ++ literal ++ ";")

/-- A text begins with the imports of some targets: after that of the helpers, if they are needed, there
is one for each target, and then one for each proxy. -/
def BeginsWithImports (targets : List String) (code : List Char) : Prop :=
  ∃ helpers runs proxies : List String,
    (helpers = [] ∨ ∃ name, helpers = [helpersImport name]) ∧
    List.Forall₂ (fun target line => ImportLine target none line) targets runs ∧
    List.Forall₂ (fun target line => ∃ name, ImportLine (proxyId target) name line) targets proxies ∧
    ∃ rest, code = "\n".toList.intercalate ((helpers ++ runs ++ proxies).map String.toList) ++ rest ∧
      (helpers ++ runs ++ proxies ≠ [] → "\n\n".toList <+: rest)

section Whole

variable {program : Program} {source : List Char} {id : String} {options : Options}
  {out : Converted} {edited : Output}

/-- The sources of a converted module are the targets that its findings have. -/
theorem sources_of_convert (given : convert program source id options = .ok (some out)) :
    out.sources = (findingsOf program source options).targets := by
  unfold convert at given
  dsimp only at given
  split at given
  · split at given
    · rename_i converted assembled
      obtain rfl := Option.some.inj (Except.ok.inj given)
      obtain ⟨output, written, assembled⟩ := bind_eq_ok assembled
      obtain ⟨map, -, assembled⟩ := bind_eq_ok assembled
      obtain rfl := Except.ok.inj assembled
      rfl
    · contradiction
  · split at given
    · cases Except.ok.inj given
    · contradiction

/-- The sources are the targets of the calls that are taken. -/
theorem sources_eq (given : convert program source id options = .ok (some out)) :
    out.sources = ((callsOf (usesOf (Bindings.ofProgram program) options.ignored program)).map
      RequireCall.target).eraseDups := by
  rw [sources_of_convert given, findingsOf_eq, Findings.targets_foldl, ← foldl_appendNew]
  rfl

/-! ## The imports at the beginning -/

/-- Lines that begin and end like imports do so together, too. -/
theorem spelled_intercalate {separator : List Char} {lines : List (List Char)} (some : lines ≠ [])
    (each : ∀ line ∈ lines, ∃ middle, line = 'i' :: middle ++ [';']) :
    ∃ middle, separator.intercalate lines = 'i' :: middle ++ [';'] := by
  induction lines with
  | nil => contradiction
  | cons line lines ih =>
    obtain ⟨middle, rfl⟩ := each line List.mem_cons_self
    cases lines with
    | nil => exact ⟨middle, List.intercalate_singleton⟩
    | cons next others =>
      obtain ⟨middle', rest⟩ :=
        ih (List.cons_ne_nil _ _) fun line mem => each line (List.mem_cons_of_mem _ mem)
      use middle ++ [';'] ++ separator ++ 'i' :: middle'
      rw [List.intercalate_cons_cons, rest]
      simp

theorem spelled_effects (target : String) :
    ("import " ++ quote target ++ ";").toList =
      'i' :: ("mport ".toList ++ (quote target).toList) ++ [';'] := by
  generalize quote target = quoted
  rw [String.toList_append, String.toList_append]
  rfl

theorem spelled_of_mem_importsOf {line : String} (mem : line ∈ importsOf program source options) :
    ∃ middle, line.toList = 'i' :: middle ++ [';'] := by
  rcases List.mem_append.mp mem with helpers | mem
  · split at helpers
    · rw [List.mem_singleton.mp helpers]
      exact ⟨_, spelled_helpersImport _⟩
    · contradiction
  · rcases List.mem_append.mp mem with run | proxy
    · obtain ⟨entry, -, rfl⟩ := List.mem_map.mp run
      exact ⟨_, spelled_effects _⟩
    · obtain ⟨entry, -, rfl⟩ := List.mem_map.mp proxy
      split
      · exact ⟨_, spelled_valueImport _ _⟩
      · exact ⟨_, spelled_effects _⟩

/-- After the text of a module that is not wrapped there is an empty line. -/
theorem Emitted.trail_of_open (h : Emitted program source id options out edited)
    (notWrapped : out.wrapped = false) :
    "\n\n".toList <+: (layout program source id options).trail.toList := by
  have wrapped : (findingsOf program source options).wrapped = false := h.wrapped ▸ notWrapped
  obtain ⟨exports, body⟩ := body_layout program source id options
  rw [bodyOf, if_neg (by simp [wrapped])] at body
  have after : (layout program source id options).body.after = "" ∨ ∃ name entries,
      (layout program source id options).body.after = valueObject name entries := by
    rw [body, openBody]
    dsimp only
    split
    · exact .inl rfl
    · exact .inr ⟨_, _, rfl⟩
  rw [Layout.trail, String.toList_append]
  rcases after with none | ⟨name, entries, object⟩
  · rw [none, String.toList_append]
    exact List.prefix_append _ _
  · have begins : "\n\n".toList <+: (valueObject name entries).toList := by
      simp only [valueObject, String.toList_append, List.append_assoc]
      exact ⟨"var ".toList ++ _, rfl⟩
    rw [object]
    exact begins.trans (List.prefix_append _ _)

/-- **The imports stand at the beginning** of a converted module, and an empty line after them. -/
theorem Emitted.imports_first (h : Emitted program source id options out edited) :
    ∃ rest, out.code.toList =
        "\n".toList.intercalate ((importsOf program source options).map String.toList) ++ rest ∧
      (importsOf program source options ≠ [] → "\n\n".toList <+: rest) := by
  cases wrapped : out.wrapped with
  | true =>
    rw [h.code_of_wrapped wrapped]
    simp only [List.append_assoc]
    exact ⟨_, rfl, fun _ => List.prefix_append _ _⟩
  | false =>
    by_cases none : importsOf program source options = []
    · rw [none]
      exact ⟨_, rfl, fun some => absurd rfl some⟩
    have lines : (importsOf program source options).map String.toList ≠ [] := by simpa using none
    obtain ⟨middle, spelled⟩ : ∃ middle,
        "\n".toList.intercalate ((importsOf program source options).map String.toList) =
          'i' :: middle ++ [';'] := by
      apply spelled_intercalate lines
      intro line among
      obtain ⟨line, mem, rfl⟩ := List.mem_map.mp among
      exact spelled_of_mem_importsOf mem
    have whole (text : List Char) : trimStart ('i' :: middle ++ [';'] ++ text) =
        'i' :: middle ++ [';'] ++ text := trimStart_cons _ (by decide)
    have top := h.atTop wrapped
    rw [AtTop, spelled, List.append_assoc _ "\n\n".toList, trim, whole, trimEnd_append] at top
    rw [top, spelled]
    by_cases empty : (trimEnd ("\n\n".toList ++ trim edited.code)).isEmpty = true
    · rw [if_pos empty, trimEnd_concat _ (by decide)]
      exact ⟨_, rfl, fun _ => h.trail_of_open wrapped⟩
    · rw [if_neg empty, List.append_assoc]
      refine ⟨_, rfl, fun _ => List.IsPrefix.trans ?_ (List.prefix_append _ _)⟩
      rw [trimEnd_append] at empty ⊢
      split
      · rename_i blank
        rw [if_pos blank] at empty
        exact absurd (by decide) empty
      · exact List.prefix_append _ _

/-- A converted module begins with the imports of its sources. -/
theorem Emitted.beginsWithImports (h : Emitted program source id options out edited) :
    BeginsWithImports (findingsOf program source options).targets out.code.toList := by
  obtain ⟨rest, code, blank⟩ := h.imports_first
  have lines : importsOf program source options =
      (if (findingsOf program source options).needsHelpers then
        [helpersImport (frameOf program options).helpersName] else []) ++
        (findingsOf program source options).required.map
          (fun entry => "import " ++ quote entry.target ++ ";") ++
        (findingsOf program source options).required.map fun entry =>
          if entry.bindsValue then valueImport entry.name entry.target
          else "import " ++ quote (proxyId entry.target) ++ ";" := by
    rw [importsOf, allImports, importLines, List.append_assoc]
  rw [lines] at code blank
  refine ⟨_, _, _, ?_, ?_, ?_, rest, code, blank⟩
  · split
    · exact .inr ⟨_, rfl⟩
    · exact .inl rfl
  · rw [Findings.targets, List.forall₂_map_left_iff, List.forall₂_map_right_iff, List.forall₂_same]
    intro entry _
    exact .effects (quote_denotes _)
  · rw [Findings.targets, List.forall₂_map_left_iff, List.forall₂_map_right_iff, List.forall₂_same]
    intro entry _
    split
    · exact ⟨_, .value (quote_denotes _)⟩
    · exact ⟨_, .effects (quote_denotes _)⟩

/-! ## The result -/

/-- **The sources of a converted module** are the targets of its live calls of `require`, once each and in
the order in which they first occur in the text, and the module begins with their imports and those of
their proxies in this order.  Where no argument has a lone surrogate, the sources denote what the arguments
do. -/
theorem sources_in_order (parsed : parseModule source = .ok program)
    (given : convert program source id options = .ok (some out)) :
    ∃ calls : List (Span × String),
      calls.Pairwise (fun a b => a.1.start < b.1.start) ∧
      (∀ call, call ∈ calls ↔ StaticCall program options.ignored call) ∧
      out.sources = (calls.map Prod.snd).eraseDups ∧
      BeginsWithImports out.sources out.code.toList ∧
      ∀ written : Span → List TextUnit,
        (∀ call ∈ calls, unitsValue (written call.1) = call.2 ∧ Whole (written call.1)) →
        out.sources.map (fun target => target.toList.flatMap encode16) =
          (calls.map fun call => value16 (written call.1)).eraseDups := by
  obtain ⟨edited, emitted⟩ := exists_emitted given
  obtain ⟨found, taken⟩ : ∃ found,
      found = callsOf (usesOf (Bindings.ofProgram program) options.ignored program) := ⟨_, rfl⟩
  obtain ⟨calls, listed⟩ : ∃ calls, calls = found.map fun call => (call.span, call.target) :=
    ⟨_, rfl⟩
  have sources : out.sources = (calls.map Prod.snd).eraseDups := by
    rw [sources_eq given, ← taken, listed, List.map_map]
    rfl
  refine ⟨calls, ?_, ?_, sources, ?_, ?_⟩
  · rw [listed, List.pairwise_map, taken]
    exact (calls_inOrder parsed).ascending
  · intro call
    rw [staticCall_iff, listed, List.mem_map, taken]
  · rw [sources_of_convert given]
    exact emitted.beginsWithImports
  · intro written whole
    have denoted : calls.map (fun call => value16 (written call.1)) =
        (calls.map Prod.snd).map fun target => target.toList.flatMap encode16 := by
      rw [List.map_map]
      apply List.map_congr_left
      intro call mem
      obtain ⟨kept, whole⟩ := whole call mem
      rw [whole.value16_eq, kept]
      rfl
    have distinct (a b : String) (same : a.toList.flatMap encode16 = b.toList.flatMap encode16) :
        a = b := String.toList_inj.mp (flatMap_encode16_inj.mp same)
    rw [denoted, sources, map_eraseDups distinct]

end Whole

/-! ## A module that requires one module twice, and one with surrogates in braces -/

/-- A module with three calls of `require`, the last one in a function. -/
def thriceSource : List Char := "f(require('b'), require(`a`)); () => g(require(\"b\"));".toList

/-- The tree of `thriceSource`. -/
def thriceModule : Program :=
  ⟨[.expression ⟨0, 30⟩ (.call ⟨0, 29⟩ (.name ⟨0, 1⟩ "f")
      [.call ⟨2, 14⟩ (.name ⟨2, 9⟩ "require") [.literal ⟨10, 13⟩ (.string "b")],
        .call ⟨16, 28⟩ (.name ⟨16, 23⟩ "require") [.template ⟨24, 27⟩ [some "a"] []]]),
    .expression ⟨31, 53⟩ (.function ⟨31, 52⟩ (.arrow true) none []
      [.expression ⟨37, 52⟩ (.call ⟨37, 52⟩ (.name ⟨37, 38⟩ "g")
        [.call ⟨39, 51⟩ (.name ⟨39, 46⟩ "require") [.literal ⟨47, 50⟩ (.string "b")]])])]⟩

set_option maxRecDepth 4000 in
/-- The sources are listed and imported once each, in the order of the first two calls. -/
theorem thrice_required :
    parseModule thriceSource = .ok thriceModule ∧
      ∃ out, convert thriceModule thriceSource "m" .plain = .ok (some out) ∧
        out.sources = ["b", "a"] ∧ BeginsWithImports ["b", "a"] out.code.toList := by
  have parsed : parseModule thriceSource = .ok thriceModule := rfl
  obtain ⟨out, converted, -⟩ :=
    exists_converted (confined_layout parsed "m" .plain) (by decide +kernel)
  have listed : out.sources = ["b", "a"] := by
    rw [sources_of_convert converted]
    decide +kernel
  obtain ⟨calls, -, -, -, imports, -⟩ := sources_in_order parsed converted
  rw [listed] at imports
  exact ⟨parsed, out, converted, listed, imports⟩

/-- A call whose argument is a pair of surrogates, written with braces. -/
def bracedSource : List Char := "require('\\u\x7bD83D\x7d\\u\x7bDE00\x7d');".toList

/-- The tree of `bracedSource`. -/
def bracedModule : Program :=
  ⟨[.expression ⟨0, 28⟩ (.call ⟨0, 27⟩ (.name ⟨0, 7⟩ "require")
    [.literal ⟨8, 26⟩ (.string "\uFFFDd83d\uFFFDde00")])]⟩

set_option maxRecDepth 4000 in
/-- The argument denotes one character, and the module that is imported has another name. -/
theorem braced_pair_missed :
    parseModule bracedSource = .ok bracedModule ∧
      ∃ out, convert bracedModule bracedSource "m" .plain = .ok (some out) ∧
        value16 (writtenAt bracedSource ⟨8, 26⟩) = encode16 (Char.ofNat 0x1F600) ∧
        out.sources.map (fun target => target.toList.flatMap encode16) ≠
          [value16 (writtenAt bracedSource ⟨8, 26⟩)] := by
  have parsed : parseModule bracedSource = .ok bracedModule := by cbv
  obtain ⟨out, converted, -⟩ :=
    exists_converted (confined_layout parsed "m" .plain) (by decide +kernel)
  have listed : out.sources = ["\uFFFDd83d\uFFFDde00"] := by
    rw [sources_of_convert converted]
    decide +kernel
  refine ⟨parsed, out, converted, by decide, ?_⟩
  rw [listed]
  decide

end ModuleInterop.Conversion
