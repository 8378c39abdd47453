import ModuleInterop.Proofs.Conversion.Locals
import ModuleInterop.Proofs.Usage.Reference
import ModuleInterop.Syntax.Parser.Module

/-!
# Required values

Where the value of a call of `require` is used, the converted module has that value: the call is
replaced by the binding that the import makes, or the binding takes the place of the variable that
the call is the value of (`consumed_require_delivered`).

The value of a call that is all of a statement is not used, and such a call goes with its statement.
The expression that an arrow function without braces consists of is taken for a statement, too,
although it is the value of the function: a call there is lost (`concise_require_lost`).
-/

set_option autoImplicit false

namespace ModuleInterop.Conversion

open ModuleInterop.Syntax ModuleInterop.Scope ModuleInterop.Usage ModuleInterop.Patch

/-- A required module whose value is imported under its name. -/
structure Imported (program : Program) (source : List Char) (options : Options) (out : Converted)
    (target : String) (entry : RequiredModule) : Prop where
  mem : entry ∈ (findingsOf program source options).required
  same : entry.target = target
  bindsValue : entry.bindsValue = true
  line : (valueImport entry.name target).toList <:+: out.code.toList

/-- The value of a call of `require` is there in the converted module: the binding that the import
makes stands for the call, or it takes the place of the variable that the call is the value of. -/
def Delivered (program : Program) (source : List Char) (id : String) (options : Options)
    (out : Converted) (e : Expr) (call : RequireCall) : Prop :=
  ∃ entry, Imported program source options out call.target entry ∧
    (replacement call.span entry.name ∈ (layout program source id options).body.edits ∨
      ∃ home span name, program.Live (.declarator home (.mk span (.binding name) (some e))) ∧
        entry.name = name.text ∧ span ∈ (findingsOf program source options).elided)

variable {program : Program} {source : List Char} {id : String} {options : Options}
  {out : Converted} {edited : Output}

/-- A required module that is found and used is imported. -/
theorem Emitted.imported (h : Emitted program source id options out edited) {target : String}
    {entry : RequiredModule} (found : (findingsOf program source options).find? target = some entry)
    (binds : entry.bindsValue = true) : Imported program source options out target entry := by
  have mem := List.mem_of_find?_eq_some found
  have same : entry.target = target := by
    have := List.find?_some found
    simpa using this
  exact ⟨mem, same, binds, same ▸ h.import_infix mem binds⟩

/-- A call that is not all of a statement is a use by itself or as the value of a variable. -/
theorem Emitted.delivered (h : Emitted program source id options out edited) {place : Place}
    {concise : Bool} {e : Expr} {call : RequireCall} (live : program.Live (.expr place concise e))
    (static : requireCall? (Bindings.ofProgram program) options.ignored e = some call)
    (inner : place.statement? = none) : Delivered program source id options out e call := by
  rcases requireCall_covered live static with use | ⟨-, -, home, span, name, declared, use⟩
  · rw [inner] at use
    obtain ⟨entry, found, binds, edit⟩ := findingsOf_answers source use
    exact ⟨entry, h.imported found binds, .inl (edits_subset_layout edit)⟩
  · obtain ⟨entry, found, binds, placed⟩ := findingsOf_answers source use
    refine ⟨entry, h.imported found binds, ?_⟩
    rcases placed with ⟨named, elided⟩ | edit
    · exact .inr ⟨home, span, name, declared, named, elided⟩
    · exact .inl (edits_subset_layout edit)

/-- A call that an arrow function without braces consists of goes. -/
theorem concise_require_lost {place : Place} {e : Expr} {call : RequireCall}
    (live : program.Live (.expr place true e))
    (static : requireCall? (Bindings.ofProgram program) options.ignored e = some call) :
    ∃ span, place.statement? = some (span, .list) ∧
      TakesOut (layout program source id options).body.edits span .list := by
  obtain ⟨span, statement⟩ := live.statement_of_concise
  refine ⟨span, statement, ?_⟩
  rcases requireCall_covered live static with use | ⟨-, braces, -⟩
  · rw [statement] at use
    obtain ⟨entry, -, out⟩ := findingsOf_answers source use
    exact out.mono edits_subset_layout
  · contradiction

/-- **No value of a call of `require` is lost** where it is used, except at the end of an arrow
function without braces: there the call goes as if it were a statement. -/
theorem consumed_require_delivered (h : convert program source id options = .ok (some out))
    {place : Place} {concise : Bool} {e : Expr} {call : RequireCall}
    (live : program.Live (.expr place concise e))
    (static : requireCall? (Bindings.ofProgram program) options.ignored e = some call)
    (consumed : place.statement? = none ∨ concise = true) :
    ∃ edited, Emitted program source id options out edited ∧
      (concise = false → Delivered program source id options out e call) ∧
      (concise = true → ∃ span, place.statement? = some (span, .list) ∧
        TakesOut (layout program source id options).body.edits span .list) := by
  obtain ⟨edited, emitted⟩ := exists_emitted h
  refine ⟨edited, emitted, ?_, ?_⟩
  · rintro rfl
    rcases consumed with inner | braces
    · exact emitted.delivered live static inner
    · contradiction
  · rintro rfl
    exact concise_require_lost live static

/-! ## An argument, and an arrow function without braces -/

/-- A call of `require` as an argument. -/
def argumentSource : List Char := "f(require('a'));".toList

/-- The call in `argumentSource`. -/
def argumentCall : Expr :=
  .call ⟨2, 14⟩ (.name ⟨2, 9⟩ "require") [.literal ⟨10, 13⟩ (.string "a")]

/-- The tree of `argumentSource`. -/
def argumentModule : Program :=
  ⟨[.expression ⟨0, 16⟩ (.call ⟨0, 15⟩ (.name ⟨0, 1⟩ "f") [argumentCall])]⟩

set_option maxRecDepth 4000 in
/-- The value of the argument is there in the converted module. -/
theorem argument_delivered :
    parseModule argumentSource = .ok argumentModule ∧
      ∃ out, convert argumentModule argumentSource "m" .plain = .ok (some out) ∧
        Delivered argumentModule argumentSource "m" .plain out argumentCall
          ⟨⟨2, 14⟩, "a", 0⟩ := by
  refine ⟨rfl, ?_⟩
  obtain ⟨out, converted⟩ := exists_of_isSome
    (show (convert argumentModule argumentSource "m" .plain).toOption.join.isSome = true by
      decide +kernel)
  have live : argumentModule.Live (.expr .inner false argumentCall) :=
    Program.Live.follow (.statement (List.mem_singleton.mpr rfl)) [0, 1] rfl
  have static : requireCall? (Bindings.ofProgram argumentModule) [] argumentCall =
      some ⟨⟨2, 14⟩, "a", 0⟩ := by
    decide +kernel
  obtain ⟨edited, -, delivered, -⟩ := consumed_require_delivered converted live static (.inl rfl)
  exact ⟨out, converted, delivered rfl⟩

/-- A call of `require` that an arrow function without braces consists of. -/
def arrowSource : List Char := "var f = () => require('a');".toList

/-- The call in `arrowSource`. -/
def arrowCall : Expr :=
  .call ⟨14, 26⟩ (.name ⟨14, 21⟩ "require") [.literal ⟨22, 25⟩ (.string "a")]

/-- The tree of `arrowSource`. -/
def arrowModule : Program :=
  ⟨[.variables ⟨0, 27⟩ .var [.mk ⟨4, 26⟩ (.binding ⟨⟨4, 5⟩, "f"⟩)
    (some (.function ⟨8, 26⟩ (.arrow true) none [] [.expression ⟨14, 26⟩ arrowCall]))]]⟩

set_option maxRecDepth 4000 in
/-- The value of the arrow function is not there in the converted module: the required module is not
imported with a binding. -/
theorem arrow_not_delivered :
    parseModule arrowSource = .ok arrowModule ∧
      arrowModule.Live (.expr (.statement ⟨14, 26⟩ .list) true arrowCall) ∧
      requireCall? (Bindings.ofProgram arrowModule) [] arrowCall = some ⟨⟨14, 26⟩, "a", 1⟩ ∧
      ∃ out, convert arrowModule arrowSource "m" .plain = .ok (some out) ∧
        ¬ Delivered arrowModule arrowSource "m" .plain out arrowCall ⟨⟨14, 26⟩, "a", 1⟩ := by
  refine ⟨rfl, Program.Live.follow (.statement (List.mem_singleton.mpr rfl)) [0, 1, 0, 0] rfl,
    by decide +kernel, ?_⟩
  obtain ⟨out, converted⟩ := exists_of_isSome
    (show (convert arrowModule arrowSource "m" .plain).toOption.join.isSome = true by
      decide +kernel)
  refine ⟨out, converted, ?_⟩
  rintro ⟨entry, imported, -⟩
  have required : (findingsOf arrowModule arrowSource .plain).required =
      [⟨"a", "require$$0", false⟩] := by
    decide +kernel
  have mem := imported.mem
  rw [required, List.mem_singleton] at mem
  have binds := imported.bindsValue
  rw [mem] at binds
  contradiction

end ModuleInterop.Conversion
