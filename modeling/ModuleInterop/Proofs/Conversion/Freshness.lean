import ModuleInterop.Proofs.Conversion.Apart
import ModuleInterop.Proofs.Conversion.Exported
import ModuleInterop.Proofs.Conversion.Hygiene
import ModuleInterop.Proofs.Scope.Declared
import ModuleInterop.Proofs.Usage.Receive

/-!
# Generated names are fresh

The names that the generated code of a module binds come from two sources.  Some are chosen: the name
of the helpers before the first use of the module, a name with a running number for each module that
is first required by a call, the name of the module's value and the variables of exports after the
last use.  Each of them is claimed in the top scope, so they are distinct, and none is taken by the
source (`exists_claims`).  The others are borrowed: a module that is first required by a variable is
imported under the name of that variable, which goes.

Borrowed names are distinct because such a variable is the only declaration of its binding, and the
top scope of the source declares them (`receivers_distinct`), so that no chosen name is among them.
Together these are all names that the generated code binds (`bound_names_fresh`).
-/

set_option autoImplicit false

namespace ModuleInterop.Conversion

open ModuleInterop.Syntax ModuleInterop.Scope ModuleInterop.Usage ModuleInterop.Patch
  ModuleInterop.Virtual

/-! ## The names of required modules -/

namespace Findings

/-- A number that is free somewhere is not taken in the top scope, if that scope is around. -/
theorem freeNumber_not_taken (findings : Findings) (frame : Frame) {scope : Nat}
    (around : findings.scopes.chain ScopeTree.root ⊆ findings.scopes.chain scope) :
    isTaken findings.scopes ScopeTree.root frame.freeNames
      (importName (findings.freeNumber frame scope)) = false := by
  obtain ⟨unseen, free⟩ := freeNumber_free findings frame scope
  have here : findings.scopes.sees ScopeTree.root
      (importName (findings.freeNumber frame scope)) = false := by
    rw [ScopeTree.sees, List.any_eq_false] at unseen ⊢
    exact fun i mem => unseen i (around mem)
  have available : unavailable.contains (importName (findings.freeNumber frame scope)) = false := by
    rw [← Bool.not_eq_true, List.contains_iff_mem]
    exact importName_not_mem (by decide) _
  unfold isTaken
  rw [here, free, available]
  rfl

section Run

/-- A module that is first required by a call, with the name that it gets there. -/
def Numbered (frame : Frame) (findings : Findings) (uses : List Use)
    (link : String × String) : Prop :=
  ∃ earlier call statement later, uses = earlier ++ .requiring call statement :: later ∧
    (earlier.foldl (step frame) findings).find? call.target = none ∧
    link = (call.target,
      importName ((earlier.foldl (step frame) findings).freeNumber frame call.scope))

/-- A module that is first required by a variable, with the name of that variable, which goes. -/
def Borrowed (frame : Frame) (findings : Findings) (uses : List Use)
    (link : String × String) : Prop :=
  ∃ earlier span name call later, uses = earlier ++ .requiredVariable span name call :: later ∧
    (earlier.foldl (step frame) findings).find? call.target = none ∧ link = (call.target, name) ∧
    span ∈ (uses.foldl (step frame) findings).elided

variable {frame : Frame} {findings : Findings} {use : Use} {uses : List Use}
  {link : String × String}

theorem Numbered.cons (h : Numbered frame (findings.step frame use) uses link) :
    Numbered frame findings (use :: uses) link := by
  obtain ⟨earlier, call, statement, later, rfl, new, named⟩ := h
  exact ⟨use :: earlier, call, statement, later, rfl, new, named⟩

theorem Borrowed.cons (h : Borrowed frame (findings.step frame use) uses link) :
    Borrowed frame findings (use :: uses) link := by
  obtain ⟨earlier, span, name, call, later, rfl, new, named, gone⟩ := h
  exact ⟨use :: earlier, span, name, call, later, rfl, new, named, gone⟩

/-- The modules that the uses of a run enter, with numbers that are claimed and with names of
variables that receive a value. -/
structure Entered (frame : Frame) (findings : Findings) (uses : List Use)
    (numbered borrowed : List (String × String)) : Prop where
  links : (uses.foldl (step frame) findings).links.Perm (findings.links ++ (numbered ++ borrowed))
  claims : Claims frame.freeNames findings.scopes (numbered.map Prod.snd)
    (uses.foldl (step frame) findings).scopes
  received : (borrowed.map Prod.snd).Sublist (receivers uses)
  numbers : ∀ link ∈ numbered, Numbered frame findings uses link
  names : ∀ link ∈ borrowed, Borrowed frame findings uses link

/-- **A run** enters modules, each under a claimed number or the name of a variable. -/
theorem exists_entered (frame : Frame) (findings : Findings) (uses : List Use)
    (around : ∀ use ∈ uses, ∀ call, use.call? = some call →
      findings.scopes.chain ScopeTree.root ⊆ findings.scopes.chain call.scope) :
    ∃ numbered borrowed, Entered frame findings uses numbered borrowed := by
  induction uses generalizing findings with
  | nil => exact ⟨[], [], by simp, .refl _ _, by simp, by simp, by simp⟩
  | cons use uses ih =>
    have same : (findings.step frame use).scopes.scopes = findings.scopes.scopes :=
      (step_grows findings frame use).scopes
    obtain ⟨numbered, borrowed, entered⟩ := ih (findings.step frame use) fun other mem => by
      simp only [ScopeTree.chain_congr same]
      exact around other (List.mem_cons_of_mem _ mem)
    obtain ⟨links, claims, received, numbers, borrows⟩ := entered
    have numbers (link) (mem : link ∈ numbered) := (numbers link mem).cons
    have borrows (link) (mem : link ∈ borrowed) := (borrows link mem).cons
    have receivers_le : (receivers uses).Sublist (receivers (use :: uses)) :=
      (List.sublist_cons_self use uses).filterMap _
    cases step_enters frame findings use with
    | nothing links' scopes =>
      rw [links'] at links
      rw [scopes] at claims
      exact ⟨numbered, borrowed, links, claims, received.trans receivers_le, numbers, borrows⟩
    | @number call statement new links' scopes =>
      rw [links', List.append_assoc] at links
      rw [scopes] at claims
      have free := freeNumber_not_taken findings frame (around _ List.mem_cons_self call rfl)
      refine ⟨_ :: numbered, borrowed, links, (Claims.of_not_taken free).trans claims,
        received.trans receivers_le, ?_, borrows⟩
      rw [List.forall_mem_cons]
      exact ⟨⟨[], call, statement, uses, rfl, new, rfl⟩, numbers⟩
    | @borrow span name call new links' scopes gone =>
      rw [links', List.append_assoc, List.singleton_append] at links
      rw [scopes] at claims
      refine ⟨numbered, (call.target, name) :: borrowed,
        links.trans (List.perm_middle.symm.append_left _), claims, received.cons_cons name, numbers, ?_⟩
      rw [List.forall_mem_cons]
      have kept := (foldl_grows (findings.step frame (.requiredVariable span name call)) frame
        uses).elided.subset gone
      exact ⟨⟨[], span, name, call, uses, rfl, new, rfl, kept⟩, borrows⟩

end Run

end Findings

/-! ## Names that are borrowed -/

variable {program : Program} {source : List Char} {id : String} {options : Options}
  {out : Converted}

/-- The names of a module stand in the order of its text, and each variable that receives a required
module is declared by one of them. -/
theorem exists_receives (parsed : parseModule source = .ok program) (ignored : List String) :
    ∃ names, Tally (Bindings.ofProgram program) 0 (Text.byteLength source) (ofStmts program.body)
        (usesOf (Bindings.ofProgram program) ignored program) names ∧
      Receives (Bindings.ofProgram program) (ofStmts program.body) names := by
  obtain ⟨names, tally⟩ := exists_tally parsed (Bindings.ofProgram program) ignored
  have all : (names.filter fun name =>
      (declaredOffsets (ofStmts program.body)).contains name.span.start) = names := by
    apply List.filter_eq_self.mpr
    intro name mem
    obtain ⟨binding, declared, -⟩ := only_declaration_of_constant (tally.constant name mem)
    rw [List.contains_iff_mem, ← records_ofOccurrences]
    exact List.mem_map_of_mem declared
  exact ⟨names, tally, all ▸ tally.receives⟩

/-- **Variables that receive a required module have different names**, and the top scope declares
them. -/
theorem receivers_distinct (parsed : parseModule source = .ok program) (ignored : List String) :
    (receivers (usesOf (Bindings.ofProgram program) ignored program)).Nodup ∧
      ∀ name ∈ receivers (usesOf (Bindings.ofProgram program) ignored program),
        (sourceTree program).declares ScopeTree.root name = true := by
  obtain ⟨names, tally, receives⟩ := exists_receives parsed ignored
  obtain ⟨nodup, declared⟩ :=
    receives.nodup (balanced_ofStmts program.body) tally.ascending.nodup
  rw [tally.texts]
  refine ⟨nodup, fun text mem => ?_⟩
  obtain ⟨name, among, rfl⟩ := List.mem_map.mp mem
  exact declared name among

/-! ## All names that are bound -/

section Module

variable (program : Program) (source : List Char) (id : String) (options : Options)

/-- A required module whose name has a running number, since a call is the first to require it. -/
def HasNumber (entry : RequiredModule) : Prop :=
  Findings.Numbered (frameOf program options)
    (begin (Bindings.ofProgram program) options (hasCompiledMark source)).2
    (usesOf (Bindings.ofProgram program) options.ignored program) (entry.target, entry.name)

/-- A required module is imported under the name of a variable at the top of the source that has it as
its value; the variable goes, and its binding has no other declaration. -/
inductive TakesPlace (entry : RequiredModule) : Prop
  | of_variable {home : Home} {span : Span} {name : Name} {init : Expr} {call : RequireCall}
      {binding : Nat} :
      program.Live (.declarator home (.mk span (.binding name) (some init))) →
      requireCall? (Bindings.ofProgram program) options.ignored init = some call →
      call.target = entry.target → name.text = entry.name →
      span ∈ (findingsOf program source options).elided →
      (sourceTree program).declares ScopeTree.root entry.name = true →
      (name.span.start, binding) ∈ (Bindings.ofProgram program).declarations →
      (Bindings.ofProgram program).declarationCount binding = 1 → TakesPlace entry

/-- The properties of the value of a module that are exported, with the variables for them. -/
def propertiesOf : List (String × String) :=
  propertyVariables (frameOf program options).freeNames (layout program source id options).body.scopes
    ((layout program source id options).body.exports.map Export.name)
    (propertyExports options.namedExports (findingsOf program source options).exported)

/-- The variables of the exports of a converted module: those that assignments declare if it is not
wrapped, and those that have a property of its value. -/
def exportVariables : List String :=
  (if (findingsOf program source options).wrapped then []
    else (localsOf program source id options).entries.map Prod.snd) ++
    (propertiesOf program source id options).map Prod.snd

/-- The names that the generated code of a converted module binds at its top: those of the imports,
the variable of the module's value and the variables of the exports. -/
def boundNames : List String :=
  importedNames program source options ++
    (valueOf program source id options).1 :: exportVariables program source id options

end Module

/-- A name that the source leaves free: it is no unavailable word, the top scope does not declare it,
and no reference anywhere in the source that is free has it. -/
structure Fresh (program : Program) (name : String) : Prop where
  available : name ∉ unavailable
  undeclared : (sourceTree program).declares ScopeTree.root name = false
  unreferred : ∀ offset text writes, .refer offset text writes ∈ ofStmts program.body →
    (Bindings.ofProgram program).isFreeAt offset = true → text ≠ name

/-- The names of a module stand at different positions. -/
theorem nodup_offsets (parsed : parseModule source = .ok program) :
    (offsets (ofStmts program.body)).Nodup := by
  obtain ⟨names, tally⟩ := exists_tally parsed (Bindings.ofProgram program) []
  exact tally.ascending.nodup

/-- A name that is not taken in the top scope of the source is fresh. -/
theorem fresh_of_not_taken (parsed : parseModule source = .ok program) {name : String}
    (free : isTaken (sourceTree program) ScopeTree.root (Bindings.ofProgram program).freeNames name =
      false) : Fresh program name := by
  have undeclared := declares_eq_false_of_not_taken free
  unfold isTaken at free
  rw [Bool.or_eq_false_iff, Bool.or_eq_false_iff] at free
  obtain ⟨⟨-, unreferred⟩, available⟩ := free
  refine ⟨?_, undeclared, ?_⟩
  · intro mem
    rw [List.contains_iff_mem.mpr mem] at available
    contradiction
  · rintro offset text writes mem here rfl
    have referred := (referredOffsets_sublist _).nodup (nodup_offsets parsed)
    have known := mem_freeNames (balanced_ofStmts program.body) referred mem here
    have unknown : text ∉ (Bindings.ofProgram program).freeNames := by
      rw [← List.contains_iff_mem, unreferred]
      exact Bool.false_ne_true
    exact unknown known

/-- The top scope is around each call that a use is about. -/
theorem chain_root_subset {use : Use} {call : RequireCall} {ignored : List String}
    (mem : use ∈ usesOf (Bindings.ofProgram program) ignored program)
    (about : use.call? = some call) :
    (sourceTree program).chain ScopeTree.root ⊆ (sourceTree program).chain call.scope := by
  obtain ⟨offset, scope⟩ := scope_of_mem_usesOf mem about
  have root : (sourceTree program).chain ScopeTree.root = [ScopeTree.root] :=
    chain_root program rfl
  rw [root, scope, List.cons_subset]
  exact ⟨root_mem_chain program offset, List.nil_subset _⟩

/-- A running number that a required module gets is fresh. -/
theorem fresh_of_numbered (parsed : parseModule source = .ok program) {link : String × String}
    (numbered : Findings.Numbered (frameOf program options)
      (begin (Bindings.ofProgram program) options (hasCompiledMark source)).2
      (usesOf (Bindings.ofProgram program) options.ignored program) link) :
    Fresh program link.2 := by
  obtain ⟨earlier, call, statement, later, uses, -, rfl⟩ := numbered
  have among : Use.requiring call statement ∈
      usesOf (Bindings.ofProgram program) options.ignored program := by
    rw [uses]
    exact List.mem_append_right _ List.mem_cons_self
  have grown := Findings.foldl_grows (begin (Bindings.ofProgram program) options
    (hasCompiledMark source)).2 (frameOf program options) earlier
  have same : (earlier.foldl (Findings.step (frameOf program options))
      (begin (Bindings.ofProgram program) options (hasCompiledMark source)).2).scopes.scopes =
        (sourceTree program).scopes := grown.scopes
  have around := chain_root_subset among rfl
  rw [← ScopeTree.chain_congr same, ← ScopeTree.chain_congr same] at around
  have free := Findings.freeNumber_not_taken _ (frameOf program options) around
  apply fresh_of_not_taken parsed
  by_contra taken
  rw [Bool.not_eq_false] at taken
  have stays := Claims.taken_mono same (List.nil_subset _) taken
  exact Bool.false_ne_true (free.symm.trans stays)

/-- The exports of a module are those that come with its body, and those of properties. -/
theorem exports_layout :
    (layout program source id options).exports = (layout program source id options).body.exports ++
      (propertiesOf program source id options).map fun v =>
        exportOfProperty (valueOf program source id options).1 v.1 v.2 :=
  (claims_propertyVariables _ _ ((layout program source id options).body.scopes,
    (layout program source id options).body.exports) _).2

/-- The variables of a body are claimed after the name of the value. -/
theorem claims_body (program : Program) (source : List Char) (id : String) (options : Options) :
    Claims (frameOf program options).freeNames (valueOf program source id options).2
      (if (findingsOf program source options).wrapped then []
        else (localsOf program source id options).entries.map Prod.snd)
      (layout program source id options).body.scopes := by
  obtain ⟨exports, body⟩ := body_layout program source id options
  rw [body, bodyOf]
  split
  · exact .refl _ _
  · exact claims_localsOf

/-- **The chosen names are claimed one after the other**, from the scopes of the source on. -/
theorem exists_claims (program : Program) (source : List Char) (id : String) (options : Options) :
    ∃ numbered borrowed final,
      Findings.Entered (frameOf program options)
        (begin (Bindings.ofProgram program) options (hasCompiledMark source)).2
        (usesOf (Bindings.ofProgram program) options.ignored program) numbered borrowed ∧
      Claims (Bindings.ofProgram program).freeNames (sourceTree program)
        ((frameOf program options).helpersName :: (numbered.map Prod.snd ++
          (valueOf program source id options).1 :: exportVariables program source id options))
        final := by
  have start : Claims (Bindings.ofProgram program).freeNames (sourceTree program)
      [(frameOf program options).helpersName]
      (begin (Bindings.ofProgram program) options (hasCompiledMark source)).2.scopes :=
    .claimName _ _ _
  obtain ⟨numbered, borrowed, entered⟩ := Findings.exists_entered (frameOf program options)
    (begin (Bindings.ofProgram program) options (hasCompiledMark source)).2
    (usesOf (Bindings.ofProgram program) options.ignored program) fun use mem call about =>
      chain_root_subset mem about
  have value : Claims (Bindings.ofProgram program).freeNames (findingsOf program source options).scopes
      [(valueOf program source id options).1] (valueOf program source id options).2 :=
    .claimName _ _ _
  have properties := (claims_propertyVariables (Bindings.ofProgram program).freeNames
    (valueOf program source id options).1 ((layout program source id options).body.scopes,
      (layout program source id options).body.exports)
    (propertyExports options.namedExports (findingsOf program source options).exported)).1
  exact ⟨numbered, borrowed, _, entered, start.trans (entered.claims.trans
    (value.trans ((claims_body program source id options).trans properties)))⟩

/-- A module that takes the name of a variable takes its place. -/
theorem takesPlace_of_borrowed (parsed : parseModule source = .ok program) {entry : RequiredModule}
    (borrowed : Findings.Borrowed (frameOf program options)
      (begin (Bindings.ofProgram program) options (hasCompiledMark source)).2
      (usesOf (Bindings.ofProgram program) options.ignored program) (entry.target, entry.name)) :
    TakesPlace program source options entry := by
  obtain ⟨earlier, span, text, call, later, uses, -, link, gone⟩ := borrowed
  obtain ⟨target, named⟩ := Prod.mk.inj link
  have among : Use.requiredVariable span text call ∈
      usesOf (Bindings.ofProgram program) options.ignored program := by
    rw [uses]
    exact List.mem_append_right _ List.mem_cons_self
  have top := (receivers_distinct parsed options.ignored).2 text
    (List.mem_filterMap.mpr ⟨_, among, rfl⟩)
  obtain ⟨inFunction, node, visited, own⟩ := mem_usesOf_iff.mp among
  cases ownCall_of_mem_own own rfl with
  | value value unexported root constant =>
    obtain ⟨binding, declared, only, -⟩ := only_declaration_of_constant constant
    exact .of_variable visited.live value target.symm named.symm gone (named ▸ top) declared only

/-- The names of imports are among that of the helpers and those of the required modules. -/
theorem importedNames_sublist :
    (importedNames program source options).Sublist
      ((frameOf program options).helpersName ::
        (findingsOf program source options).links.map Prod.snd) := by
  have required : (((findingsOf program source options).required.filter
      RequiredModule.bindsValue).map RequiredModule.name).Sublist
      ((findingsOf program source options).links.map Prod.snd) := by
    rw [Findings.links, List.map_map]
    exact List.filter_sublist.map _
  unfold importedNames
  dsimp only
  split
  · exact required.cons_cons _
  · exact required.cons _

/-- The names that are bound are distinct if those that are chosen and those of variables are. -/
theorem nodup_boundNames {numbers borrowed : List String}
    (names : ((findingsOf program source options).links.map Prod.snd).Perm (numbers ++ borrowed))
    (distinct : ((frameOf program options).helpersName :: (numbers ++
      (valueOf program source id options).1 :: exportVariables program source id options) ++
        borrowed).Nodup) : (boundNames program source id options).Nodup := by
  apply (importedNames_sublist.append_right _).nodup
  apply List.Perm.nodup _ distinct
  rw [List.cons_append, List.cons_append, List.append_assoc]
  apply List.Perm.cons
  have shuffled : (numbers ++ ((valueOf program source id options).1 ::
      exportVariables program source id options ++ borrowed)).Perm
      (numbers ++ borrowed ++ (valueOf program source id options).1 ::
        exportVariables program source id options) := by
    rw [List.append_assoc]
    exact List.perm_append_comm.append_left numbers
  exact shuffled.trans (names.symm.append_right _)

/-- The names that the generated code binds are distinct: the top scope of the source declares those
that are borrowed, and none that is chosen. -/
theorem boundNames_distinct (parsed : parseModule source = .ok program) (id : String)
    (options : Options) : (boundNames program source id options).Nodup := by
  obtain ⟨numbered, borrowed, final, entered, claims⟩ := exists_claims program source id options
  obtain ⟨nodup, top⟩ := receivers_distinct parsed options.ignored
  have links : (findingsOf program source options).links.Perm (numbered ++ borrowed) :=
    entered.links
  have names := links.map Prod.snd
  rw [List.map_append] at names
  refine nodup_boundNames names (List.nodup_append.mpr
    ⟨claims.distinct, entered.received.nodup nodup, ?_⟩)
  rintro name chosen _ borrow rfl
  have declared := top name (entered.received.subset borrow)
  rw [(fresh_of_not_taken parsed (claims.free name chosen)).undeclared] at declared
  contradiction

/-- **The names that the generated code binds are distinct, and those that are chosen are fresh**: the
name of the helpers, that of the value, the variables of exports and the running numbers of required
modules.  A required module without such a number takes the place of a variable of the source that has
no other declaration. -/
theorem bound_names_fresh (parsed : parseModule source = .ok program)
    (converted : convert program source id options = .ok (some out)) :
    (∃ edited, Emitted program source id options out edited) ∧
    (layout program source id options).exports = (layout program source id options).body.exports ++
      ((propertiesOf program source id options).map fun v =>
        exportOfProperty (valueOf program source id options).1 v.1 v.2) ∧
    (boundNames program source id options).Nodup ∧
    Fresh program (frameOf program options).helpersName ∧
    Fresh program (valueOf program source id options).1 ∧
    (∀ name ∈ exportVariables program source id options, Fresh program name) ∧
    ∀ entry ∈ (findingsOf program source options).required,
      (HasNumber program source options entry → Fresh program entry.name) ∧
      (HasNumber program source options entry ∨ TakesPlace program source options entry) := by
  obtain ⟨numbered, borrowed, final, entered, claims⟩ := exists_claims program source id options
  have fresh (name : String) (mem) : Fresh program name :=
    fresh_of_not_taken parsed (claims.free name mem)
  have links : (findingsOf program source options).links.Perm (numbered ++ borrowed) :=
    entered.links
  refine ⟨exists_emitted converted, exports_layout, boundNames_distinct parsed id options,
    fresh _ List.mem_cons_self, fresh _ (by simp), fun name mem => fresh name (by simp [mem]),
    fun entry mem => ⟨fresh_of_numbered parsed, ?_⟩⟩
  have link : (entry.target, entry.name) ∈ numbered ++ borrowed :=
    links.subset (List.mem_map.mpr ⟨entry, mem, rfl⟩)
  rcases List.mem_append.mp link with number | borrow
  · exact .inl (entered.numbers _ number)
  · exact .inr (takesPlace_of_borrowed parsed (entered.names _ borrow))

/-! ## A name of each kind -/

/-- A module with a variable that goes, a call that gets a number, a word that a helper stands for and
an export that cannot have its own name as a variable. -/
def kindsSource : List Char := "var a = require('a'); exports.a = a(require('b'), this);".toList

/-- The tree of `kindsSource`. -/
def kindsModule : Program :=
  ⟨[.variables ⟨0, 21⟩ .var
    [.mk ⟨4, 20⟩ (.binding ⟨⟨4, 5⟩, "a"⟩)
      (some (.call ⟨8, 20⟩ (.name ⟨8, 15⟩ "require") [.literal ⟨16, 19⟩ (.string "a")]))],
    .expression ⟨22, 56⟩ (.assign ⟨22, 55⟩ true
      (.target (.member ⟨22, 31⟩ (.name ⟨22, 29⟩ "exports") "a"))
      (.call ⟨34, 55⟩ (.name ⟨34, 35⟩ "a")
        [.call ⟨36, 48⟩ (.name ⟨36, 43⟩ "require") [.literal ⟨44, 47⟩ (.string "b")],
          .this ⟨50, 54⟩]))]⟩

set_option maxRecDepth 4000 in
/-- The five names that its conversion binds are distinct. -/
theorem kinds_distinct :
    parseModule kindsSource = .ok kindsModule ∧
      boundNames kindsModule kindsSource "m" .plain =
        ["commonjsHelpers", "a", "require$$0", "m", "a_1"] ∧
      (boundNames kindsModule kindsSource "m" .plain).Nodup ∧
      Fresh kindsModule "a_1" := by
  have parsed : parseModule kindsSource = .ok kindsModule := rfl
  obtain ⟨out, converted, -⟩ :=
    exists_converted (confined_layout parsed "m" .plain) (by decide +kernel)
  obtain ⟨-, -, distinct, -, -, fresh, -⟩ := bound_names_fresh parsed converted
  exact ⟨parsed, by decide +kernel, distinct, fresh "a_1" (by decide +kernel)⟩

end ModuleInterop.Conversion
