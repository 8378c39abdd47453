import ModuleInterop.Conversion.Convert
import ModuleInterop.Proofs.Conversion.Answer
import ModuleInterop.Proofs.Patch.Output

/-!
# What a conversion gives

A conversion that gives a module has applied the edits of its layout to the source, and the text is
the edited source between what the layout has stand before and after it (`Emitted`).  From this the
pieces of the text can be read off: the imports (`import_infix`, `helpersImport_infix`) and, for a
wrapped module, the function around its body (`Emitted.enclosed`).
-/

set_option autoImplicit false

namespace ModuleInterop.Conversion

open ModuleInterop.Syntax ModuleInterop.Scope ModuleInterop.Usage ModuleInterop.Patch
  ModuleInterop.Virtual ModuleInterop.Text

/-- The options for a module that nothing is known of, and that the build does not start from. -/
def Options.plain : Options := ⟨false, false, false, [], [], false, false⟩

/-- What all the uses in a module call for. -/
def findingsOf (program : Program) (source : List Char) (options : Options) : Findings :=
  (analyse program source options).2

/-- What stays the same in the conversion of a module. -/
def frameOf (program : Program) (options : Options) : Frame :=
  (begin (Bindings.ofProgram program) options false).1

/-- The pieces that the text of a converted module is made of. -/
def layout (program : Program) (source : List Char) (id : String) (options : Options) : Layout :=
  layoutOf (frameOf program options) (Bindings.ofProgram program) program id
    (hasCompiledMark source) (findingsOf program source options)

variable {program : Program} {source : List Char} {id : String} {options : Options}
  {out : Converted} {edited : Output}

/-- The findings at the end come from taking the uses of the module one after the other. -/
theorem findingsOf_eq :
    findingsOf program source options =
      (usesOf (Bindings.ofProgram program) options.ignored program).foldl
        (Findings.step (frameOf program options))
        (begin (Bindings.ofProgram program) options (hasCompiledMark source)).2 := rfl

/-- Every use of a module is answered by what its conversion finds. -/
theorem findingsOf_answers (source : List Char) {use : Use}
    (mem : use ∈ usesOf (Bindings.ofProgram program) options.ignored program) :
    (findingsOf program source options).Answers (frameOf program options) use :=
  Findings.answers_of_mem _ _ mem

/-- A module is wrapped if and only if it has the mark of compiled modules or one of its uses has it
wrapped. -/
theorem findingsOf_wrapped :
    (findingsOf program source options).wrapped =
      (hasCompiledMark source ||
        (usesOf (Bindings.ofProgram program) options.ignored program).any Use.wraps) :=
  Findings.wrapped_foldl _ _ _

/-! ## The text of a converted module -/

/-- How a converted module comes about from the edited source. -/
structure Emitted (program : Program) (source : List Char) (id : String) (options : Options)
    (out : Converted) (edited : Output) : Prop where
  called : (findingsOf program source options).any = true
  edits : Patch.apply source (layout program source id options).body.edits = .ok edited
  code : out.code.toList =
    trim ((layout program source id options).lead.toList ++ trim edited.code) ++
      (layout program source id options).trail.toList
  wrapped : out.wrapped = (findingsOf program source options).wrapped

/-- A computation that succeeds has succeeded in its first step. -/
theorem bind_eq_ok {ε α β : Type} {x : Except ε α} {f : α → Except ε β} {b : β}
    (h : (x >>= f) = .ok b) : ∃ a, x = .ok a ∧ f a = .ok b := by
  cases x with
  | error e => contradiction
  | ok a => exact ⟨a, rfl, h⟩

/-- A module that is given has been made from the edited source. -/
theorem exists_emitted (h : convert program source id options = .ok (some out)) :
    ∃ edited, Emitted program source id options out edited := by
  unfold convert at h
  dsimp only at h
  split at h
  · rename_i called
    split at h
    · rename_i converted assembled
      obtain rfl := Option.some.inj (Except.ok.inj h)
      obtain ⟨output, written, assembled⟩ := bind_eq_ok assembled
      obtain ⟨map, -, assembled⟩ := bind_eq_ok assembled
      obtain ⟨edited, edits, written⟩ := bind_eq_ok written
      obtain rfl := Except.ok.inj written
      obtain rfl := Except.ok.inj assembled
      refine ⟨edited, called, edits, ?_, rfl⟩
      rw [String.toList_ofList, Output.code_append, Output.code_trim, Output.code_prepend,
        Output.code_trim]
      rfl
    · contradiction
  · split at h
    · cases Except.ok.inj h
    · contradiction

/-- A computation that gives something has succeeded. -/
theorem exists_of_isSome {ε α : Type} {result : Except ε (Option α)}
    (h : result.toOption.join.isSome = true) : ∃ a, result = .ok (some a) := by
  cases result with
  | error e => simp [Except.toOption] at h
  | ok answer =>
    cases answer with
    | none => simp [Except.toOption] at h
    | some a => exact ⟨a, rfl⟩

/-- A computation that gives something with a property has succeeded. -/
theorem exists_of_any {ε α : Type} {result : Except ε (Option α)} {test : α → Bool}
    (h : result.toOption.join.any test = true) : ∃ a, result = .ok (some a) ∧ test a = true := by
  obtain ⟨a, given, passes⟩ := (Option.any_eq_true _ _).mp h
  obtain ⟨a', succeeds⟩ := exists_of_isSome (Option.isSome_of_mem given)
  rw [succeeds] at given
  obtain rfl := Option.some.inj given
  exact ⟨a', succeeds, passes⟩

/-- A computation whose result has a property has succeeded. -/
theorem exists_ok_of_any {ε α : Type} {result : Except ε α} {test : α → Bool}
    (h : result.toOption.any test = true) : ∃ a, result = .ok a ∧ test a = true := by
  cases result with
  | error e => contradiction
  | ok a => exact ⟨a, rfl, h⟩

/-- A module with a use that calls for a conversion is neither left alone nor refused for having
none. -/
theorem convert_of_any (called : (findingsOf program source options).any = true) :
    convert program source id options ≠ .ok none ∧
      convert program source id options ≠ .error .notCommonJs := by
  have any : (analyse program source options).2.any = true := called
  unfold convert
  dsimp only
  rw [if_pos any]
  split
  · constructor <;> intro h <;> cases h
  · constructor <;> intro h <;> cases h

/-! ## Imports -/

/-- The lines of the imports of a converted module. -/
def importsOf (program : Program) (source : List Char) (options : Options) : List String :=
  allImports (findingsOf program source options).required (frameOf program options).helpersName
    (findingsOf program source options).needsHelpers

/-- The imports stand first in a converted module. -/
theorem toList_lead :
    (layout program source id options).lead.toList =
      "\n".toList.intercalate ((importsOf program source options).map String.toList) ++
        ("\n\n".toList ++ (layout program source id options).body.before.toList) := by
  have spelled : (layout program source id options).lead =
      joinLines (importsOf program source options) ++ "\n\n" ++
        (layout program source id options).body.before := rfl
  rw [spelled, String.toList_append, String.toList_append, joinLines, String.toList_intercalate,
    List.append_assoc]

/-- The text of a converted module has each line of its imports, whole. -/
theorem Emitted.line_infix (h : Emitted program source id options out edited) {line : String}
    {middle : List Char} (mem : line ∈ importsOf program source options)
    (spelled : line.toList = 'i' :: middle ++ [';']) : line.toList <:+: out.code.toList := by
  have inLead : line.toList <:+: (layout program source id options).lead.toList := by
    rw [toList_lead]
    exact (infix_intercalate (List.mem_map_of_mem mem)).trans (List.prefix_append _ _).isInfix
  rw [h.code]
  refine (infix_trim ?_ ?_ (inLead.trans (List.prefix_append _ _).isInfix)).trans
    (List.prefix_append _ _).isInfix
  · rw [spelled]
    exact trimStart_cons _ (by decide)
  · rw [spelled]
    exact trimEnd_concat _ (by decide)

/-- An import begins with the word and ends with a semicolon. -/
theorem spelled_valueImport (name target : String) :
    (valueImport name target).toList =
      'i' :: ("mport ".toList ++ name.toList ++ " from ".toList ++
        (quote (proxyId target)).toList) ++ [';'] := by
  unfold valueImport
  generalize quote (proxyId target) = quoted
  rw [String.toList_append, String.toList_append, String.toList_append, String.toList_append]
  rfl

/-- The import of the helpers begins with the word and ends with a semicolon. -/
theorem spelled_helpersImport (name : String) :
    (helpersImport name).toList =
      'i' :: ("mport * as ".toList ++ name.toList ++ " from ".toList ++
        (quote helpersId).toList) ++ [';'] := by
  unfold helpersImport
  generalize quote helpersId = quoted
  rw [String.toList_append, String.toList_append, String.toList_append, String.toList_append]
  rfl

/-- **The value of a required module that is used is imported** under the module's name. -/
theorem Emitted.import_infix (h : Emitted program source id options out edited)
    {entry : RequiredModule} (mem : entry ∈ (findingsOf program source options).required)
    (binds : entry.bindsValue = true) :
    (valueImport entry.name entry.target).toList <:+: out.code.toList := by
  refine h.line_infix (List.mem_append_right _ (List.mem_append_right _ ?_))
    (spelled_valueImport _ _)
  refine List.mem_map.mpr ⟨entry, mem, ?_⟩
  rw [if_pos binds]

/-- **The helpers are imported** where one of them is needed. -/
theorem Emitted.helpersImport_infix (h : Emitted program source id options out edited)
    (needed : (findingsOf program source options).needsHelpers = true) :
    (helpersImport (frameOf program options).helpersName).toList <:+: out.code.toList := by
  refine h.line_infix (List.mem_append_left _ ?_) (spelled_helpersImport _)
  rw [if_pos needed]
  exact List.mem_singleton.mpr rfl

/-! ## The function around a wrapped module -/

/-- The name for the value of a module, and the scopes with it. -/
def valueOf (program : Program) (source : List Char) (id : String) (options : Options) :
    String × ScopeTree :=
  claimName (findingsOf program source options).scopes ScopeTree.root
    (frameOf program options).freeNames (nameOfId id)

/-- The body of a converted module. -/
theorem body_layout (program : Program) (source : List Char) (id : String) (options : Options) :
    ∃ exports, (layout program source id options).body =
      bodyOf (frameOf program options) (Bindings.ofProgram program) program
        (findingsOf program source options) (valueOf program source id options).1
        (valueOf program source id options).2 exports :=
  ⟨_, rfl⟩

/-- The body of a wrapped module stands in a function. -/
theorem layout_of_wrapped (id : String)
    (wrapped : (findingsOf program source options).wrapped = true) :
    (layout program source id options).body.before =
        wrapperStart (valueOf program source id options).1 (frameOf program options).helpersName
          (findingsOf program source options).usesExports ∧
      (layout program source id options).body.after = wrapperEnd ∧
      (layout program source id options).body.edits = (findingsOf program source options).edits := by
  obtain ⟨exports, body⟩ := body_layout program source id options
  rw [body, bodyOf, if_pos wrapped]
  exact ⟨rfl, rfl, rfl⟩

/-- The function that a wrapped module becomes begins its body with a brace. -/
theorem wrapperHead_ends (valueName helpersName : String) (usesExports : Bool) :
    ∃ front, (wrapperHead valueName helpersName usesExports).toList = front ++ ['\x7b'] := by
  have closing (text : String) : (text ++ ") \x7b").toList = text.toList ++ [')', ' '] ++ ['\x7b'] := by
    rw [List.append_assoc]
    exact String.toList_append
  exact ⟨_, closing _⟩

/-- The text before a wrapped module begins with an import, that of the helpers. -/
theorem lead_of_wrapped (id : String)
    (wrapped : (findingsOf program source options).wrapped = true) :
    ∃ rest, (layout program source id options).lead.toList = 'i' :: rest := by
  have helpers : (findingsOf program source options).needsHelpers = true := by
    simp [Findings.needsHelpers, wrapped]
  obtain ⟨rest, line⟩ := prefix_intercalate "\n".toList
    (helpersImport (frameOf program options).helpersName).toList
    ((importLines (findingsOf program source options).required).map String.toList)
  rw [toList_lead, importsOf, allImports, if_pos helpers, List.singleton_append, List.map_cons,
    ← line, spelled_helpersImport, List.cons_append, List.cons_append, List.cons_append]
  exact ⟨_, rfl⟩

/-- The edited text of a module stands in a function, after the imports and before the exports.
Where no text is left, the function has an empty body. -/
def Enclosed (program : Program) (source : List Char) (id : String) (options : Options)
    (out : Converted) (edited : Output) : Prop :=
  ∃ imports exports : List Char, out.code.toList =
    imports ++ (wrapperHead (valueOf program source id options).1
      (frameOf program options).helpersName
      (findingsOf program source options).usesExports).toList ++
    (if trim edited.code = [] then [] else '\n' :: trim edited.code) ++
    wrapperEnd.toList ++ exports

/-- The text of a wrapped module: after the imports the function begins, and the edited text follows
on a line of its own, if there is any. -/
theorem Emitted.code_of_wrapped (h : Emitted program source id options out edited)
    (wrapped : out.wrapped = true) : out.code.toList =
      ("\n".toList.intercalate ((importsOf program source options).map String.toList) ++
        "\n\n".toList) ++ (wrapperHead (valueOf program source id options).1
          (frameOf program options).helpersName
          (findingsOf program source options).usesExports).toList ++
        (if trim edited.code = [] then [] else '\n' :: trim edited.code) ++
        (layout program source id options).trail.toList := by
  have needed : (findingsOf program source options).wrapped = true := h.wrapped ▸ wrapped
  obtain ⟨before, -, -⟩ := layout_of_wrapped id needed
  obtain ⟨rest, first⟩ := lead_of_wrapped id needed
  have lead : (layout program source id options).lead.toList =
      ("\n".toList.intercalate ((importsOf program source options).map String.toList) ++
        "\n\n".toList) ++ (wrapperHead (valueOf program source id options).1
          (frameOf program options).helpersName
          (findingsOf program source options).usesExports).toList ++ ['\n'] := by
    rw [toList_lead, before, wrapperStart, String.toList_append, List.append_assoc,
      List.append_assoc]
    rfl
  have whole : trimStart ((layout program source id options).lead.toList ++ trim edited.code) =
      (layout program source id options).lead.toList ++ trim edited.code := by
    rw [first, List.cons_append]
    exact trimStart_cons _ (by decide)
  rw [h.code, trim, whole]
  split
  · rename_i empty
    obtain ⟨front, brace⟩ := wrapperHead_ends (valueOf program source id options).1
      (frameOf program options).helpersName (findingsOf program source options).usesExports
    have blank : (trimEnd ['\n']).isEmpty = true := by decide
    rw [empty, List.append_nil, lead, trimEnd_append, if_pos blank, brace, ← List.append_assoc,
      trimEnd_concat _ (by decide), List.append_nil]
  · rename_i text
    rw [trimEnd_append, trimEnd_trim, if_neg (by simpa using text), lead]
    simp

/-- **A wrapped module is a function around its edited text.** -/
theorem Emitted.enclosed (h : Emitted program source id options out edited)
    (wrapped : out.wrapped = true) : Enclosed program source id options out edited := by
  have needed : (findingsOf program source options).wrapped = true := h.wrapped ▸ wrapped
  obtain ⟨-, after, -⟩ := layout_of_wrapped id needed
  have trail : ∃ exports, (layout program source id options).trail.toList =
      wrapperEnd.toList ++ exports := by
    rw [Layout.trail, after, String.toList_append]
    exact ⟨_, rfl⟩
  obtain ⟨exports, trail⟩ := trail
  have code := h.code_of_wrapped wrapped
  rw [trail, ← List.append_assoc] at code
  exact ⟨_, exports, code⟩

end ModuleInterop.Conversion
