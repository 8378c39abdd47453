import ModuleInterop.Proofs.Conversion.RequiredValues

/-!
# Returns of a module

A module that returns from itself runs in a function in the converted module.  It is known exactly
which modules do (`returns_enclosed_unless_dead`): those that have the mark of compiled modules, that
return, or whose value is used other than by assigning to its exports in statements of their own.

A return in a branch that is known not to be taken does not count, and the branch is left in the
text: without another reason for the function, the return is then outside all functions, and the
text of a converted module need not even parse (`outputs_not_modules`).
-/

set_option autoImplicit false

namespace ModuleInterop.Usage

/-- Whether the value of a module is used other than by assigning to its exports in statements of
their own. -/
def Use.escapes : Use → Bool
  | .name (.value _) _ _ | .typeofValue _ _ => true
  | .exporting _ direct _ => !direct
  | _ => false

/-- A use has its module wrapped if the value of the module escapes, or the module returns. -/
theorem Use.wraps_iff (use : Use) :
    use.wraps = true ↔ use = .outerReturn ∨ use.escapes = true := by
  cases use with
  | name name span shorthand => cases name <;> simp [wraps, escapes]
  | exporting path direct names => cases direct <;> simp [wraps, escapes]
  | _ => simp [wraps, escapes]

end ModuleInterop.Usage

namespace ModuleInterop.Conversion

open ModuleInterop.Syntax ModuleInterop.Scope ModuleInterop.Usage ModuleInterop.Patch

/-- What calls for a function around a module. -/
inductive Wraps (program : Program) (source : List Char) (options : Options) : Prop
  | compiled : hasCompiledMark source = true → Wraps program source options
  | returns {node : Node} : program.LiveOuter node → node.isReturn = true →
      Wraps program source options
  | escapes {use : Use} : use ∈ usesOf (Bindings.ofProgram program) options.ignored program →
      use.escapes = true → Wraps program source options

variable {program : Program} {source : List Char} {id : String} {options : Options}
  {out : Converted} {edited : Output}

/-- The uses of a module have it wrapped exactly if something calls for a function around it. -/
theorem findingsOf_wrapped_iff :
    (findingsOf program source options).wrapped = true ↔ Wraps program source options := by
  rw [findingsOf_wrapped, Bool.or_eq_true, List.any_eq_true]
  constructor
  · rintro (mark | ⟨use, mem, wraps⟩)
    · exact .compiled mark
    · rcases (Use.wraps_iff use).mp wraps with rfl | escapes
      · obtain ⟨node, live, isReturn⟩ := outerReturn_mem_usesOf.mp mem
        exact .returns live isReturn
      · exact .escapes mem escapes
  · intro wraps
    cases wraps with
    | compiled mark => exact .inl mark
    | returns live isReturn =>
      exact .inr ⟨.outerReturn, outerReturn_mem_usesOf.mpr ⟨_, live, isReturn⟩, rfl⟩
    | escapes mem escapes => exact .inr ⟨_, mem, (Use.wraps_iff _).mpr (.inr escapes)⟩

/-- Nothing but the imports stands before the text of a module that is not wrapped. -/
theorem Emitted.before_eq (h : Emitted program source id options out edited)
    (notWrapped : out.wrapped = false) :
    (layout program source id options).body.before = "" := by
  have wrapped : (findingsOf program source options).wrapped = false := h.wrapped ▸ notWrapped
  obtain ⟨exports, body⟩ := body_layout program source id options
  rw [body, bodyOf, if_neg (by simp [wrapped])]
  rfl

/-- A return of the source stands outside all functions in the converted module. -/
def LeavesReturn (program : Program) (out : Converted) : Prop :=
  out.wrapped = false ∧ ∃ node, program.Outer node ∧ node.isReturn = true

/-- **All text of a module is in a function, with its returns, exactly if something calls for it.** A
return is left outside all functions exactly if nothing does and the return stands in a branch that
is known not to be taken. -/
theorem returns_enclosed_unless_dead (h : convert program source id options = .ok (some out)) :
    ∃ edited, Emitted program source id options out edited ∧
      (out.wrapped = true ↔ Wraps program source options) ∧
      (out.wrapped = true → Enclosed program source id options out edited) ∧
      (out.wrapped = false → (layout program source id options).body.before = "") ∧
      (LeavesReturn program out ↔ ¬ Wraps program source options ∧
        ∃ node, program.Outer node ∧ node.isReturn = true ∧ ¬ program.LiveOuter node) := by
  obtain ⟨edited, emitted⟩ := exists_emitted h
  have wrapped : out.wrapped = true ↔ Wraps program source options := by
    rw [emitted.wrapped]
    exact findingsOf_wrapped_iff
  refine ⟨edited, emitted, wrapped, emitted.enclosed, emitted.before_eq, ?_⟩
  rw [← wrapped, Bool.not_eq_true]
  -- A return that is live would have the module wrapped.
  refine and_congr_right fun notWrapped => exists_congr fun node => and_congr_right fun _ => ?_
  refine ⟨fun isReturn => ⟨isReturn, fun live => ?_⟩, And.left⟩
  rw [wrapped.mpr (.returns live isReturn)] at notWrapped
  contradiction

/-! ## A return at the end, and one that is never reached -/

/-- A module that returns its value. -/
def returnSource : List Char := "return module;".toList

/-- The tree of `returnSource`. -/
def returnModule : Program := ⟨[.returning ⟨0, 14⟩ (some (.name ⟨7, 13⟩ "module"))]⟩

set_option maxRecDepth 4000 in
/-- The module that returns is in a function. -/
theorem return_enclosed :
    parseModule returnSource = .ok returnModule ∧
      ∃ out edited, convert returnModule returnSource "m" .plain = .ok (some out) ∧
        Enclosed returnModule returnSource "m" .plain out edited ∧
        ¬ LeavesReturn returnModule out := by
  refine ⟨rfl, ?_⟩
  obtain ⟨out, converted⟩ := exists_of_isSome
    (show (convert returnModule returnSource "m" .plain).toOption.join.isSome = true by
      decide +kernel)
  obtain ⟨edited, -, wrapped, enclosed, -, left⟩ := returns_enclosed_unless_dead converted
  have wraps : Wraps returnModule returnSource .plain :=
    .returns (.statement (List.mem_singleton.mpr rfl)) rfl
  exact ⟨out, edited, converted, enclosed (wrapped.mpr wraps), fun h => (left.mp h).1 wraps⟩

/-- A module with a return that is never reached. -/
def deadSource : List Char := "if (false) return; require('a');".toList

/-- The tree of `deadSource`. -/
def deadModule : Program :=
  ⟨[.ifElse ⟨0, 18⟩ (.literal ⟨4, 9⟩ (.boolean false)) (.returning ⟨11, 18⟩ none) none,
    .expression ⟨19, 32⟩
      (.call ⟨19, 31⟩ (.name ⟨19, 26⟩ "require") [.literal ⟨27, 30⟩ (.string "a")])]⟩

/-- Whether a statement is a return under a condition. -/
def isGuardedReturn : Stmt → Bool
  | .ifElse _ _ (.returning _ _) _ => true
  | _ => false

/-- A statement of a module that is a return under a condition is outside all functions. -/
theorem exists_outer_return (there : program.body.any isGuardedReturn = true) :
    ∃ node, program.Outer node ∧ node.isReturn = true := by
  obtain ⟨s, mem, guarded⟩ := List.any_eq_true.mp there
  unfold isGuardedReturn at guarded
  split at guarded
  · exact ⟨_, .part (.statement mem) rfl (List.mem_cons_of_mem _ List.mem_cons_self), rfl⟩
  · contradiction

set_option maxRecDepth 4000 in
/-- A return is left outside all functions, where an ES module has none, and where an arrow function
has lost its body, the text is no module at all. -/
theorem outputs_not_modules :
    parseModule deadSource = .ok deadModule ∧
      (∃ out tree, convert deadModule deadSource "m" .plain = .ok (some out) ∧
        parseModule out.code.toList = .ok tree ∧
        ∃ node, tree.Outer node ∧ node.isReturn = true) ∧
      ∃ out, convert arrowModule arrowSource "m" .plain = .ok (some out) ∧
        (parseModule out.code.toList).toBool = false := by
  refine ⟨rfl, ?_, ?_⟩
  · obtain ⟨out, converted, parsed⟩ := exists_of_any (show
      (convert deadModule deadSource "m" .plain).toOption.join.any (fun out =>
        (parseModule out.code.toList).toOption.any fun tree =>
          tree.body.any isGuardedReturn) = true by decide +kernel)
    obtain ⟨tree, read, there⟩ := exists_ok_of_any parsed
    exact ⟨out, tree, converted, read, exists_outer_return there⟩
  · obtain ⟨out, converted, refused⟩ := exists_of_any (show
      (convert arrowModule arrowSource "m" .plain).toOption.join.any (fun out =>
        !(parseModule out.code.toList).toBool) = true by decide +kernel)
    exact ⟨out, converted, (Bool.not_eq_true' _).mp refused⟩

end ModuleInterop.Conversion
