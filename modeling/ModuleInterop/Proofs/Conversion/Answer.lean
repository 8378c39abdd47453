import ModuleInterop.Proofs.Conversion.Growth

/-!
# What each use calls for

`Answers` says of findings that they have what one use calls for: an edit for a name, a required
module for a call, the flag that has the module wrapped.  The step that takes a use answers it
(`answers_step`), an answer is never taken back (`Answers.mono`), and so at the end of a run every
use is answered (`answers_of_mem`).  The converse holds of the flag: a module is wrapped
only if it has the mark of compiled modules or one of its uses calls for it (`wrapped_foldl`).
-/

set_option autoImplicit false

namespace ModuleInterop.Conversion

open ModuleInterop.Syntax ModuleInterop.Scope ModuleInterop.Usage ModuleInterop.Patch
  ModuleInterop.Virtual

/-- The edit that replaces a stretch of the text. -/
def replacement (span : Span) (text : String) : Edit := ⟨span.start, span.stop, text.toList⟩

/-- The text in place of a name; a shorthand property keeps its key. -/
def renamed (name : FreeName) (shorthand : Bool) (text : String) : String :=
  if shorthand then name.text ++ ": " ++ text else text

/-- Edits take a statement out, as far as there is any text to take out; where a statement has to
stand, they leave an empty one. -/
def TakesOut (edits : List Edit) (span : Span) (home : Home) : Prop :=
  if home.allowsNone then span.start < span.stop → replacement span "" ∈ edits
  else replacement span ";" ∈ edits

/-- More edits take out what fewer do. -/
theorem TakesOut.mono {before after : List Edit} (h : before ⊆ after) {span : Span}
    {home : Home} (out : TakesOut before span home) : TakesOut after span home := by
  unfold TakesOut at out ⊢
  split at out <;> rename_i allows
  · rw [if_pos allows]
    exact fun text => h (out text)
  · rw [if_neg allows]
    exact h out

namespace Findings

/-- The flag for a name that leads to the value of the module. -/
def usesValue (findings : Findings) : ModuleName → Bool
  | .module => findings.usesModule
  | .exports => findings.usesExports

/-- Findings have what a use calls for. -/
def Answers (frame : Frame) (findings : Findings) : Use → Prop
  | .name .require span shorthand =>
    findings.usesRequire = true ∧
      replacement span (renamed .require shorthand
        (frame.helper (requireHelper frame.options.allowDynamicRequire))) ∈ findings.edits
  | .name (.value root) _ _ => findings.usesValue root = true ∧ findings.wrapped = true
  | .name .global span shorthand =>
    frame.options.ignoreGlobal = false → findings.usesGlobal = true ∧
      replacement span (renamed .global shorthand (frame.helper globalHelper)) ∈ findings.edits
  | .name .define span shorthand =>
    replacement span (renamed .define shorthand "undefined") ∈ findings.edits
  | .outerThis span =>
    frame.options.ignoreGlobal = false → findings.usesGlobal = true ∧
      replacement span (frame.helper globalHelper) ∈ findings.edits
  | .typeofValue span root =>
    replacement span "'object'" ∈ findings.edits ∧ findings.usesValue root = true ∧
      findings.wrapped = true
  | .outerReturn => findings.wrapped = true
  | .exporting path direct _ =>
    findings.usesValue path.root = true ∧ (direct = false → findings.wrapped = true)
  | .requiring call none =>
    ∃ entry, findings.find? call.target = some entry ∧ entry.bindsValue = true ∧
      replacement call.span entry.name ∈ findings.edits
  | .requiring call (some (span, home)) =>
    ∃ entry, findings.find? call.target = some entry ∧ TakesOut findings.edits span home
  | .requiredVariable span name call =>
    ∃ entry, findings.find? call.target = some entry ∧ entry.bindsValue = true ∧
      (entry.name = name ∧ span ∈ findings.elided ∨
        replacement call.span entry.name ∈ findings.edits)
  | .declared _ _ _ => True

variable {frame : Frame}

/-! ## An answer stays -/

/-- The value of the module stays used. -/
theorem Grows.usesValue {before after : Findings} (h : Grows before after) (root : ModuleName) :
    before.usesValue root = true → after.usesValue root = true := by
  cases root with
  | module => exact h.usesModule
  | exports => exact h.usesExports

/-- **An answer is never taken back.** -/
theorem Answers.mono {before after : Findings} (h : Grows before after) {use : Use}
    (answered : before.Answers frame use) : after.Answers frame use := by
  cases use with
  | name name span shorthand =>
    cases name with
    | require => exact ⟨h.usesRequire answered.1, h.edits.subset answered.2⟩
    | value root => exact ⟨h.usesValue root answered.1, h.wrapped answered.2⟩
    | global =>
      exact fun heeded =>
        ⟨h.usesGlobal (answered heeded).1, h.edits.subset (answered heeded).2⟩
    | define => exact h.edits.subset answered
  | outerThis span =>
    exact fun heeded => ⟨h.usesGlobal (answered heeded).1, h.edits.subset (answered heeded).2⟩
  | typeofValue span root =>
    obtain ⟨edit, used, wrapped⟩ := answered
    exact ⟨h.edits.subset edit, h.usesValue root used, h.wrapped wrapped⟩
  | outerReturn => exact h.wrapped answered
  | exporting path direct names =>
    exact ⟨h.usesValue path.root answered.1, fun other => h.wrapped (answered.2 other)⟩
  | requiring call statement =>
    cases statement with
    | none =>
      obtain ⟨entry, found, binds, edit⟩ := answered
      obtain ⟨later, found, name, binds'⟩ := h.required _ entry found
      exact ⟨later, found, binds' binds, name ▸ h.edits.subset edit⟩
    | some statement =>
      obtain ⟨entry, found, out⟩ := answered
      obtain ⟨later, found, -⟩ := h.required _ entry found
      exact ⟨later, found, out.mono h.edits.subset⟩
  | requiredVariable span name call =>
    obtain ⟨entry, found, binds, placed⟩ := answered
    obtain ⟨later, found, same, binds'⟩ := h.required _ entry found
    refine ⟨later, found, binds' binds, ?_⟩
    rcases placed with ⟨named, elided⟩ | edit
    · exact .inl ⟨same.trans named, h.elided.subset elided⟩
    · exact .inr (same ▸ h.edits.subset edit)
  | declared span home declarators => trivial

/-! ## The step that takes a use answers it -/

variable (frame) (findings : Findings)

/-- The last edit is the one that a replacement records. -/
theorem replacement_mem_replace (span : Span) (text : String) :
    replacement span text ∈ (findings.replace span text).edits :=
  List.mem_append_right _ (List.mem_singleton.mpr rfl)

/-- The edit of a replaced name. -/
theorem replacement_mem_replaceName (name : FreeName) (span : Span) (shorthand : Bool)
    (text : String) :
    replacement span (renamed name shorthand text) ∈
      (findings.replaceName name span shorthand text).edits :=
  replacement_mem_replace _ _ _

/-- Taking a statement out. -/
theorem takesOut_removeStatement (span : Span) (home : Home) :
    TakesOut (findings.removeStatement span home).edits span home := by
  unfold TakesOut removeStatement
  split
  · intro text
    unfold delete remove
    rw [if_pos text]
    exact List.mem_append_right _ (List.mem_singleton.mpr rfl)
  · exact replacement_mem_replace _ _ _

/-- A registered target is found, under the name that registering gives. -/
theorem find?_register (call : RequireCall) (preferred : Option String) :
    (findings.register frame call preferred).2.find? call.target =
      some (findings.register frame call preferred).1 := by
  have last {entry : RequiredModule} (target : entry.target = call.target)
      (new : findings.find? call.target = none) (rest : Findings)
      (required : rest.required = findings.required ++ [entry]) :
      rest.find? call.target = some entry := by
    unfold find? at new ⊢
    rw [required, List.find?_append, new, Option.none_or]
    simp [target]
  unfold register
  split
  · rename_i entry found
    exact found
  · rename_i new
    split
    · exact last rfl new _ rfl
    · exact last rfl new _ rfl

/-- A target whose value is used is found with its value bound. -/
theorem find?_bindValue_self {target : String} {entry : RequiredModule}
    (found : findings.find? target = some entry) :
    (findings.bindValue target).find? target = some { entry with bindsValue := true } := by
  have same : entry.target = target := by
    have := List.find?_some found
    simpa using this
  rw [find?_bindValue, found]
  simp [same]

/-- **The step that takes a use answers it.** -/
theorem answers_step (use : Use) : (findings.step frame use).Answers frame use := by
  cases use with
  | name name span shorthand =>
    cases name with
    | require => exact ⟨rfl, replacement_mem_replaceName _ _ _ _ _⟩
    | value root => cases root <;> exact ⟨rfl, rfl⟩
    | global =>
      intro heeded
      simp only [step, heeded]
      exact ⟨rfl, replacement_mem_replaceName _ _ _ _ _⟩
    | define => exact replacement_mem_replaceName _ _ _ _ _
  | outerThis span =>
    intro heeded
    simp only [step, heeded]
    exact ⟨rfl, replacement_mem_replace _ _ _⟩
  | typeofValue span root =>
    have edit : replacement span "'object'" ∈ (findings.step frame (.typeofValue span root)).edits := by
      cases root <;> exact replacement_mem_replace _ _ _
    cases root <;> exact ⟨edit, rfl, rfl⟩
  | outerReturn => rfl
  | exporting path direct names =>
    obtain ⟨root, name⟩ := path
    refine ⟨by cases root <;> rfl, fun other => ?_⟩
    simp [step, other]
  | requiring call statement =>
    have found := find?_register frame findings call none
    cases statement with
    | none =>
      exact ⟨_, find?_bindValue_self _ found, rfl, replacement_mem_replace _ _ _⟩
    | some statement =>
      have grown := grows_removeStatement (findings.register frame call none).2 statement.1
        statement.2
      obtain ⟨later, found, -⟩ := grown.required _ _ found
      exact ⟨later, found, takesOut_removeStatement _ _ _⟩
  | requiredVariable span name call =>
    have found := find?_bindValue_self _ (find?_register frame findings call (some name))
    simp only [step, Answers]
    split
    · rename_i named
      exact ⟨_, found, rfl, .inl ⟨named, List.mem_append_right _ (List.mem_singleton.mpr rfl)⟩⟩
    · exact ⟨_, found, rfl, .inr (replacement_mem_replace _ _ _)⟩
  | declared span home declarators => trivial

/-! ## Uses that call for a conversion -/

/-- A required module calls for a conversion. -/
theorem any_of_find? {target : String} {entry : RequiredModule}
    (found : findings.find? target = some entry) : findings.any = true := by
  have mem := List.mem_of_find?_eq_some found
  unfold any
  cases h : findings.required with
  | nil =>
    rw [h] at mem
    contradiction
  | cons first others => rfl

/-- A use of the module's value calls for a conversion. -/
theorem any_of_usesValue {root : ModuleName} (used : findings.usesValue root = true) :
    findings.any = true := by
  unfold any
  cases root with
  | module => simp [show findings.usesModule = true from used]
  | exports => simp [show findings.usesExports = true from used]

/-- **At the end of a run every use is answered.** -/
theorem answers_of_mem {uses : List Use} {use : Use} (mem : use ∈ uses) :
    (uses.foldl (step frame) findings).Answers frame use := by
  obtain ⟨before, -, later⟩ := exists_step_of_mem findings frame mem
  exact (answers_step frame before use).mono later

end Findings

end ModuleInterop.Conversion

/-! ## Which uses have a module wrapped -/

namespace ModuleInterop.Usage

/-- Whether a use has its module wrapped: the value of the module is used other than by assigning to
its exports in statements of their own, or the module returns. -/
def Use.wraps : Use → Bool
  | .name (.value _) _ _ | .typeofValue _ _ | .outerReturn => true
  | .exporting _ direct _ => !direct
  | _ => false

end ModuleInterop.Usage

namespace ModuleInterop.Conversion.Findings

open ModuleInterop.Syntax ModuleInterop.Usage

variable (frame : Frame) (findings : Findings)

/-- A step wraps a module if and only if its use does. -/
theorem wrapped_step (use : Use) :
    (findings.step frame use).wrapped = (findings.wrapped || use.wraps) := by
  cases use with
  | name name span shorthand =>
    cases name with
    | require => exact (Bool.or_false _).symm
    | value root => exact (Bool.or_true _).symm
    | global =>
      simp only [step, Use.wraps, Bool.or_false]
      split <;> rfl
    | define => exact (Bool.or_false _).symm
  | outerThis span =>
    simp only [step, Use.wraps, Bool.or_false]
    split <;> rfl
  | typeofValue span root => exact (Bool.or_true _).symm
  | outerReturn => exact (Bool.or_true _).symm
  | exporting path direct names =>
    obtain ⟨root, name⟩ := path
    cases root <;> rfl
  | requiring call statement =>
    obtain ⟨_, _, _, _, same⟩ := step_requiring_eq findings frame call statement
    rw [same]
    exact (Bool.or_false _).symm
  | requiredVariable span name call =>
    obtain ⟨_, _, _, _, _, same⟩ := step_requiredVariable_eq findings frame span name call
    rw [same]
    exact (Bool.or_false _).symm
  | declared span home declarators =>
    obtain ⟨edits, elided⟩ := elide_eq findings span home declarators
    simp only [step, elided, Use.wraps, Bool.or_false]

/-- A run wraps a module if and only if one of its uses does. -/
theorem wrapped_foldl (uses : List Use) :
    (uses.foldl (step frame) findings).wrapped = (findings.wrapped || uses.any Use.wraps) := by
  induction uses generalizing findings with
  | nil => exact (Bool.or_false _).symm
  | cons use uses ih => rw [List.foldl_cons, ih, wrapped_step, List.any_cons, Bool.or_assoc]

end ModuleInterop.Conversion.Findings
