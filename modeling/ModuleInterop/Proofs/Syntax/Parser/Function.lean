import ModuleInterop.Proofs.Syntax.Parser.Binding
import ModuleInterop.Syntax.Parser.Function

/-!
# What the parsers of functions and classes give

The decorators of a class come before the word that its span begins with, so a class is laid from
its decorators on.
-/

set_option autoImplicit false

namespace ModuleInterop.Syntax.Parser

open ModuleInterop.Text

attribute [local simp] Node.inside Node.pieces Node.parts Node.bare Node.part Node.listed

variable {source : List Char} {g : Grammar} {c : Context} {s : ParseState}

/-! ## Functions -/

/-- A string that stands as a statement is laid like the directive that it is. -/
theorem laid_directive {faults lo hi : Nat} {statement : Stmt} (directive : isDirective statement = true)
    (laid : LaidAll source faults lo hi [.listed statement]) :
    LaidAll source faults lo hi [.listed (.directive statement.span)] := by
  unfold isDirective at directive
  split at directive
  · have within := laid.head.fits.1
    exact .of_fits within (.none within.ordered) ⟨by simp, rfl⟩
  · contradiction

theorem readsUpTo_bodyStatements (hg : g.Sound source) (isTop : Bool) :
    ReadsUpTo source (bodyStatements g isTop) fun body => body.map .listed := by
  intro c s hs
  unfold bodyStatements
  let keeps (read : List Stmt × Bool) (s' : ParseState) := Step source s s' ∧
    LaidAll source s'.faults s.token.span.start s'.token.span.start (read.1.reverse.map .listed)
  refine gives_iterate keeps _ ⟨.refl hs, .none (by omega)⟩ ?_
  rintro ⟨read, atStart⟩ s₁ ⟨⟨h₁, _, _, _, _, _⟩, laid⟩
  refine token_bind.mpr ?_
  split
  · exact gives_pure ⟨.of h₁ (by omega), laid⟩
  refine (hg.statement true c s₁ h₁).bind fun statement s₂ ⟨⟨h₂, _, _, _, _, _⟩, laid'⟩ => ?_
  split
  · rename_i directive
    have isDirective : isDirective statement = true := (Bool.and_eq_true_iff.mp directive).2
    refine gives_pure ⟨.of h₂ (by omega), ?_⟩
    simpa using (laid.add (laid_directive isDirective laid') (by omega)).wide (by omega)
  · refine gives_pure ⟨.of h₂ (by omega), ?_⟩
    simpa using (laid.add laid' (by omega)).wide (by omega)

theorem reads_functionBody (hg : g.Sound source) :
    Reads source (functionBody g) fun body => body.map .listed := by
  intro c s hs
  unfold functionBody
  refine (passes_expect _ c s hs).bind fun _ s₁ ⟨⟨h₁, _, _, _, _, _⟩, _, _, _⟩ => ?_
  refine ((readsUpTo_bodyStatements hg false).withReader _ c s₁ h₁).bind
    fun body s₂ ⟨⟨h₂, _, _, _, _, _⟩, laid⟩ => ?_
  refine (passes_expect _ c s₂ h₂).bind fun _ s₃ ⟨⟨h₃, _, _, _, _, _⟩, _, _, _⟩ => ?_
  exact gives_pure ⟨.of h₃ (by omega), laid.wide (by omega)⟩

/-- A function that begins before its parameters; its name, if it has one, has been read. -/
theorem gives_functionRest (hg : g.Sound source) (hs : s.Sound source) {first : Nat}
    (start : Boundary source first) (form : FunctionForm) {name : Option Name}
    (named : LaidAll source s.faults first s.token.span.start (name.toList.map .bound))
    (isAsync isGenerator : Bool) :
    (functionRest g first form name isAsync isGenerator).Gives c s fun e s' =>
      Step source s s' ∧ LaidAll source s'.faults first s'.previousEnd [.part e] := by
  have le := named.le
  unfold functionRest
  refine gives_withReader.mpr ?_
  refine (reads_parameters hg _ s hs).bind fun list s₁ ⟨⟨h₁, _, _, _, _, _⟩, laid₁⟩ => ?_
  have le₁ := laid₁.le
  refine at_bind.mpr ?_
  split
  · exact gives_unexpected.bind fun _ _ h => h
  · refine (reads_functionBody hg _ s₁ h₁).bind fun body s₂ ⟨⟨h₂, _, _, _, _, _⟩, laid₂⟩ => ?_
    have pieces : LaidAll source s₂.faults first s₂.previousEnd
        (name.toList.map Node.bound ++ (list.map Node.pattern ++ body.map Node.listed)) :=
      named.add (laid₁.add laid₂ (by omega)) (by omega)
    exact spanFrom_bind.mpr
      (gives_pure (laid_between h₂ start pieces (by omega) ⟨id, rfl, by simp, rfl⟩))

theorem reads_method (hg : g.Sound source) (isAsync isGenerator : Bool) :
    Reads source (method g isAsync isGenerator) fun e => [.part e] := by
  intro c s hs
  unfold method
  exact start_bind.mpr (gives_functionRest hg hs hs.start _ (.none (Nat.le_refl _)) _ _)

theorem looks_atFunction : Looks atFunction := by
  intro c s
  unfold atFunction
  refine atWord_bind.mpr ?_
  split
  · exact gives_pure rfl
  · refine atWord_bind.mpr ?_
    split
    · exact nextToken_bind.mpr (gives_pure rfl)
    · exact gives_pure rfl

theorem gives_functionName (hs : s.Sound source) (role : NameRole) (isAsync isGenerator : Bool) :
    (functionName role isAsync isGenerator).Gives c s fun name s' => Step source s s' ∧
      LaidAll source s'.faults s.previousEnd s'.previousEnd (name.toList.map .bound) := by
  have order := hs.order
  unfold functionName
  refine token_bind.mpr ?_
  split
  · rename_i isName
    refine gives_either (fun _ s' => s.Same s')
      ((notes_checkName _).withReader _ c s) (notes_checkName _ c s) fun _ s₁ same => ?_
    refine (gives_usableWord hs isName same).bind fun name s₂ ⟨moved, span, usable⟩ => gives_pure ?_
    exact ⟨moved.toStep, (laid_name moved hs span usable).wide ⟨order, Nat.le_refl _, Nat.le_refl _⟩⟩
  · split
    · split
      · refine (notes_report _ _ c s).bind fun _ s₁ same => gives_pure ?_
        exact ⟨same.step hs, .none (Nat.le_of_eq same.ended.symm)⟩
      · exact gives_fatal.bind fun _ _ h => h
      · exact gives_pure ⟨.refl hs, .none (Nat.le_refl _)⟩
    · exact gives_pure ⟨.refl hs, .none (Nat.le_refl _)⟩

theorem reads_functionFrom (hg : g.Sound source) (role : NameRole) :
    Reads source (functionFrom g role) fun r => [.part r.1] := by
  intro c s hs
  unfold functionFrom
  refine start_bind.mpr ?_
  refine ((mayPass_eatWord _).goesOn c _ hs).bind fun isAsync s₁ ⟨h₁, _, _, _, _, _⟩ => ?_
  refine (passes_expectWord _ c s₁ h₁).bind fun _ s₂ ⟨⟨h₂, _, _, _, _, _⟩, _, _, _⟩ => ?_
  refine ((mayPass_eat _).goesOn c _ h₂).bind fun isGenerator s₃ ⟨h₃, _, _, _, _, _⟩ => ?_
  refine (gives_functionName h₃ _ _ _).bind fun name s₄ ⟨⟨h₄, _, _, _, _, _⟩, named⟩ => ?_
  refine (gives_functionRest hg h₄ hs.start _ (named.wide (by omega)) _ _).bind
    fun e s₅ ⟨⟨h₅, _, _, _, _, _⟩, laid⟩ => ?_
  exact gives_pure ⟨.of h₅ (by omega), laid⟩

/-! ## Classes -/

theorem mayPass_eatModifier (k : Keyword) (sameLine : Bool) :
    MayPass source (eatModifier k sameLine) := by
  intro c s hs
  unfold eatModifier
  refine atWord_bind.mpr ?_
  split
  · refine nextToken_bind.mpr ?_
    split
    · exact (passes_bump c s hs).bind fun _ _ moved => gives_pure (.inl ⟨rfl, moved⟩)
    · exact gives_pure (.inr ⟨rfl, rfl⟩)
  · exact gives_pure (.inr ⟨rfl, rfl⟩)

theorem notes_checkAccessor (isGetter isSetter : Bool) (offset : Nat) (value : Expr) :
    Notes (checkAccessor isGetter isSetter offset value) := by
  intro c s
  unfold checkAccessor
  split
  · refine gives_noteIf (notes_report _ _) fun s₁ same => ?_
    split
    · exact (notes_report _ _ c s₁).mono fun _ _ same' => same.trans same'
    · exact gives_pure same
  · exact gives_pure (.refl s)

/-- Decorators; where there are none, nothing is read. -/
theorem readsUpTo_decorators (hg : g.Sound source) :
    ReadsUpTo source (decorators g) fun list => list.map .part := by
  intro c s hs
  unfold decorators
  let keeps (read : List Expr) (s' : ParseState) := Step source s s' ∧
    LaidAll source s'.faults s.token.span.start s'.token.span.start (read.reverse.map .part)
  refine gives_iterate keeps _ ⟨.refl hs, .none (by omega)⟩ ?_
  rintro read s₁ ⟨⟨h₁, _, _, _, _, _⟩, laid⟩
  refine (mayPass_eat _ c s₁ h₁).bind fun b s₂ eaten => ?_
  rcases eaten with ⟨rfl, ⟨h₂, _, _, _, _, _⟩, _, _, _⟩ | ⟨rfl, rfl⟩
  · refine (hg.operand.withReader _ c s₂ h₂).bind fun e s₃ ⟨⟨h₃, _, _, _, _, _⟩, laid'⟩ => ?_
    refine gives_pure ⟨.of h₃ (by omega), ?_⟩
    simpa using (laid.add laid' (by omega)).wide (by omega)
  · exact gives_pure ⟨.of h₁ (by omega), laid⟩

/-- The block that a class runs, which begins before its brace. -/
theorem gives_classInitializer (hg : g.Sound source) (hs : s.Sound source) {first : Nat}
    (le : first ≤ s.token.span.start) :
    (classInitializer g first).Gives c s fun m s' =>
      Step source s s' ∧ LaidAll source s'.faults first s'.previousEnd [.member m] := by
  unfold classInitializer
  refine (passes_expect _ c s hs).bind fun _ s₁ ⟨⟨h₁, _, _, _, _, _⟩, _, _, _⟩ => ?_
  refine ((readsUpTo_sequence (hg.statement true).upTo).withReader _ c s₁ h₁).bind
    fun body s₂ ⟨⟨h₂, _, _, _, _, _⟩, laid⟩ => ?_
  refine (passes_expect _ c s₂ h₂).bind fun _ s₃ ⟨⟨h₃, _, _, _, _, _⟩, _, _, _⟩ => ?_
  have wide : LaidAll source s₃.faults first s₃.previousEnd (body.map .listed) := laid.wide (by omega)
  exact spanFrom_bind.mpr (gives_pure ⟨.of h₃ (by omega), .plain wide.le wide ⟨rfl, by simp, rfl⟩⟩)

/-- A word before a member that is looked for unless another one has been found. -/
theorem gives_modifier {b : Prop} [Decidable b] {β : Type} {k : Keyword} {sameLine : Bool}
    {next : Bool → Parser β} {post : β → ParseState → Prop} (hs : s.Sound source)
    (next_gives : ∀ found s', Step source s s' → (next found).Gives c s' post) :
    (if b then pure false >>= next else eatModifier k sameLine >>= next).Gives c s post :=
  gives_either (fun _ s' => Step source s s') (gives_pure (.refl hs))
    ((mayPass_eatModifier _ _).goesOn c _ hs) next_gives

theorem reads_classMember (hg : g.Sound source) :
    Reads source (classMember g) fun m => [.member m] := by
  intro c s hs
  unfold classMember
  refine (readsUpTo_decorators hg c s hs).bind fun marks s₁ ⟨⟨h₁, _, _, _, _, _⟩, decorated⟩ => ?_
  refine start_bind.mpr ?_
  refine ((mayPass_eatModifier _ _).goesOn c _ h₁).bind fun isStatic s₂ ⟨h₂, _, _, _, _, _⟩ => ?_
  refine at_bind.mpr ?_
  split
  · refine (gives_classInitializer hg h₂ (by omega)).mono fun m s₃ ⟨⟨h₃, _, _, _, _, _⟩, laid⟩ => ?_
    exact ⟨.of h₃ (by omega), laid.wide (by omega)⟩
  refine ((mayPass_eatModifier _ _).goesOn c _ h₂).bind fun isAsync s₃ ⟨h₃, _, _, _, _, _⟩ => ?_
  refine gives_modifier h₃ fun _ s₄ ⟨h₄, _, _, _, _, _⟩ => ?_
  refine gives_modifier h₄ fun isGetter s₅ ⟨h₅, _, _, _, _, _⟩ => ?_
  refine gives_modifier h₅ fun isSetter s₆ ⟨h₆, _, _, _, _, _⟩ => ?_
  refine ((mayPass_eat _).goesOn c _ h₆).bind fun isGenerator s₇ ⟨h₇, _, _, _, _, _⟩ => ?_
  refine (gives_memberKey hg h₇).bind fun key s₈ ⟨⟨⟨h₈, _, _, _, _, _⟩, _, _, _⟩, computed⟩ => ?_
  refine at_bind.mpr ?_
  split
  · refine start_bind.mpr ?_
    refine (reads_method hg _ _ c s₈ h₈).bind fun value s₉ ⟨⟨h₉, _, _, _, _, _⟩, laid⟩ => ?_
    refine (notes_checkAccessor _ _ _ _ c s₉).bind fun _ s' same => ?_
    obtain ⟨h', start, ended⟩ := same.after h₉
    have pieces : LaidAll source s'.faults s.token.span.start s'.previousEnd
        (marks.map Node.part ++ key.computed.toList.map Node.part ++ [Node.part value]) :=
      ((decorated.add computed (by omega)).add laid (by omega)).wide (by omega)
    exact spanFrom_bind.mpr
      (gives_pure ⟨.of h' (by omega), .plain pieces.le pieces ⟨rfl, by simp, rfl⟩⟩)
  · refine ((mayPass_eat _).goesOn c _ h₈).bind fun _ s₉ ⟨h₉, _, _, _, _, _⟩ => ?_
    refine gives_optional (hg.assignment.withReader _) h₉ fun value s' ⟨⟨h', _, _, _, _, _⟩, laid⟩ =>
      ?_
    refine (goesOn_endStatement c _ h').bind fun _ s'' ⟨h'', _, _, _, _, _⟩ => ?_
    have pieces : LaidAll source s''.faults s.token.span.start s''.previousEnd
        (marks.map Node.part ++ key.computed.toList.map Node.part ++ value.toList.map Node.part) :=
      ((decorated.add computed (by omega)).add laid (by omega)).wide (by omega)
    exact spanFrom_bind.mpr
      (gives_pure ⟨.of h'' (by omega), .plain pieces.le pieces ⟨rfl, by simp, rfl⟩⟩)

/-- Members; semicolons between them stand for nothing. -/
theorem readsUpTo_classMembers (hg : g.Sound source) :
    ReadsUpTo source (classMembers g) fun list => list.map .member := by
  intro c s hs
  unfold classMembers
  let keeps (read : List Member) (s' : ParseState) := Step source s s' ∧
    LaidAll source s'.faults s.token.span.start s'.token.span.start (read.reverse.map .member)
  refine gives_iterate keeps _ ⟨.refl hs, .none (by omega)⟩ ?_
  rintro read s₁ ⟨⟨h₁, _, _, _, _, _⟩, laid⟩
  refine token_bind.mpr ?_
  split
  · exact gives_pure ⟨.of h₁ (by omega), laid⟩
  refine ((mayPass_eat _).goesOn c _ h₁).bind fun isEmpty s₂ ⟨h₂, _, _, _, _, _⟩ => ?_
  split
  · exact gives_pure ⟨.of h₂ (by omega), laid.wide (by omega)⟩
  · refine (reads_classMember hg c s₂ h₂).bind fun m s₃ ⟨⟨h₃, _, _, _, _, _⟩, laid'⟩ => ?_
    refine gives_pure ⟨.of h₃ (by omega), ?_⟩
    simpa using (laid.add laid' (by omega)).wide (by omega)

/-- A class is laid from its decorators on, which have been read before. -/
theorem gives_classFrom (hg : g.Sound source) (hs : s.Sound source) (role : NameRole) {lo : Nat}
    {marks : List Expr} (decorated : LaidAll source s.faults lo s.token.span.start (marks.map .part)) :
    (classFrom g role marks).Gives c s fun e s' =>
      Step source s s' ∧ LaidAll source s'.faults lo s'.previousEnd [.part e] := by
  have le := decorated.le
  unfold classFrom
  refine start_bind.mpr ?_
  refine (passes_expectWord _ c s hs).bind fun _ s₁ ⟨⟨h₁, _, _, _, _, _⟩, _, _, _⟩ => token_bind.mpr ?_
  refine gives_optional reads_bindingName h₁ fun name s₂ ⟨⟨h₂, _, _, _, _, _⟩, named⟩ => ?_
  dsimp -zeta only
  extract_lets _ body
  have body_gives (s₃ : ParseState) (same : s₂.Same s₃) : (body ()).Gives c s₃ fun e s' =>
      Step source s s' ∧ LaidAll source s'.faults lo s'.previousEnd [.part e] := by
    obtain ⟨h₃, start, ended⟩ := same.after h₂
    refine ((mayPass_eatWord _).goesOn c _ h₃).bind fun _ s₄ ⟨h₄, _, _, _, _, _⟩ => ?_
    refine gives_optional hg.operand h₄ fun heritage s₅ ⟨⟨h₅, _, _, _, _, _⟩, extended⟩ => ?_
    refine (passes_expect _ c s₅ h₅).bind fun _ s₆ ⟨⟨h₆, _, _, _, _, _⟩, _, _, _⟩ => ?_
    refine (readsUpTo_classMembers hg c s₆ h₆).bind fun members s₇ ⟨⟨h₇, _, _, _, _, _⟩, laid⟩ => ?_
    refine (passes_expect _ c s₇ h₇).bind fun _ s₈ ⟨⟨h₈, _, _, _, _, _⟩, _, _, _⟩ => ?_
    have inside : LaidAll source s₈.faults s.token.span.start s₈.previousEnd
        (name.toList.map Node.bound ++ (heritage.toList.map Node.part ++ members.map Node.member)) :=
      (named.add (extended.add laid (by omega)) (by omega)).wide (by omega)
    exact spanFrom_bind.mpr (gives_pure ⟨.of h₈ (by omega),
      .single ⟨.between hs.start h₈.ended (by omega), decorated.later (by omega), inside⟩⟩)
  split
  · exact start_bind.mpr ((notes_report _ _ c s₂).bind fun _ s₃ same => body_gives s₃ same)
  · exact body_gives s₂ (.refl s₂)

end ModuleInterop.Syntax.Parser
