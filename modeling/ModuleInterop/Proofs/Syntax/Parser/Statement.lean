import ModuleInterop.Proofs.Syntax.Parser.Assignment
import ModuleInterop.Syntax.Parser.Statement

/-!
# What the parsers of statements give
-/

set_option autoImplicit false

namespace ModuleInterop.Syntax.Parser

open ModuleInterop.Text

attribute [local simp] Node.inside Node.pieces Node.parts Node.bare Node.part Node.listed
  Node.sole

variable {source : List Char} {g : Grammar} {c : Context} {s : ParseState}

theorem reads_condition (hg : g.Sound source) :
    Reads source (condition g) fun e => [.part e] := by
  intro c s hs
  unfold condition
  refine (passes_expect _ c s hs).bind fun _ s₁ ⟨⟨h₁, _, _, _, _, _⟩, _, _, _⟩ => ?_
  refine (reads_expression hg c s₁ h₁).bind fun e s₂ ⟨⟨h₂, _, _, _, _, _⟩, laid⟩ => ?_
  refine (passes_expect _ c s₂ h₂).bind fun _ s₃ ⟨⟨h₃, _, _, _, _, _⟩, _, _, _⟩ => ?_
  exact gives_pure ⟨.of h₃ (by omega), laid.wide (by omega)⟩

theorem reads_blockBody (hg : g.Sound source) :
    Reads source (blockBody g) fun body => body.map .listed := by
  intro c s hs
  unfold blockBody
  refine (passes_expect _ c s hs).bind fun _ s₁ ⟨⟨h₁, _, _, _, _, _⟩, _, _, _⟩ => ?_
  refine (readsUpTo_sequence (hg.statement true).upTo c s₁ h₁).bind
    fun body s₂ ⟨⟨h₂, _, _, _, _, _⟩, laid⟩ => ?_
  refine (passes_expect _ c s₂ h₂).bind fun _ s₃ ⟨⟨h₃, _, _, _, _, _⟩, _, _, _⟩ => ?_
  exact gives_pure ⟨.of h₃ (by omega), laid.wide (by omega)⟩

/-! ## Declarations -/

theorem notes_checkInitializer (kind : VariableKind) (d : Declarator) :
    Notes (checkInitializer kind d) := by
  intro c s
  unfold checkInitializer
  split
  split
  · exact gives_pure (.refl s)
  · split
    · exact notes_report _ _ c s
    · exact gives_pure (.refl s)
  · exact notes_report _ _ c s

theorem reads_declarator (hg : g.Sound source) (kind : VariableKind) (complete : Bool) :
    Reads source (declarator g kind complete) fun d => [.declarator .list d] := by
  intro c s hs
  unfold declarator
  refine start_bind.mpr ?_
  refine (hg.pattern c s hs).bind fun target s₁ ⟨⟨⟨h₁, _, _, _, _, _⟩, laid⟩, text, _⟩ => ?_
  refine ((mayPass_eat _).goesOn c _ h₁).bind fun _ s₂ ⟨h₂, _, _, _, _, _⟩ => ?_
  refine gives_optional hg.assignment h₂ fun init s₃ ⟨⟨h₃, _, _, _, _, _⟩, laid'⟩ => ?_
  have pieces : LaidAll source s₃.faults s.token.span.start s₃.previousEnd
      ([Node.pattern target] ++ init.toList.map Node.part) := laid.add laid' (by omega)
  refine spanFrom_bind.mpr (gives_noteIf (notes_checkInitializer _ _) fun s₄ same => ?_)
  obtain ⟨h₄, start, ended⟩ := same.after h₃
  have wide : s.token.span.start < s₃.previousEnd := by omega
  exact gives_pure ⟨.of h₄ (by omega),
    .of_fits ⟨.between hs.start h₃.ended (by omega), wide⟩ (pieces.later (by omega))
      ⟨by simp, rfl⟩⟩

theorem reads_declarators (hg : g.Sound source) (kind : VariableKind) (complete : Bool) :
    Reads source (declarators g kind complete) fun list => list.map (.declarator .list) := by
  intro c s hs
  unfold declarators
  refine (reads_declarator hg kind complete c s hs).bind
    fun head s₁ ⟨⟨h₁, _, _, _, _, _⟩, laid⟩ => ?_
  let keeps (read : List Declarator) (s' : ParseState) := Step source s s' ∧
    LaidAll source s'.faults s.token.span.start s'.previousEnd (read.reverse.map (.declarator .list))
  have init : keeps [head] s₁ := ⟨.of h₁ (by omega), laid⟩
  refine gives_iterate keeps _ init ?_
  rintro read s₂ ⟨⟨h₂, _, _, _, _, _⟩, laid₂⟩
  refine ((mayPass_eat _).goesOn c _ h₂).bind fun _ s₃ ⟨h₃, _, _, _, _, _⟩ => ?_
  split
  · refine (reads_declarator hg kind complete c s₃ h₃).bind
      fun d s₄ ⟨⟨h₄, _, _, _, _, _⟩, laid₄⟩ => ?_
    refine gives_pure ⟨.of h₄ (by omega), ?_⟩
    simpa using laid₂.add laid₄ (by omega)
  · exact gives_pure ⟨.of h₃ (by omega), laid₂.wide (by omega)⟩

/-- What begins a declaration of variables is a word. -/
theorem hasText_of_variableKind? {current : Token} {kind : VariableKind}
    (declares : variableKind? current = some kind) : current.kind.hasText = true := by
  unfold variableKind? at declares
  split at declares <;> simp_all [TokenKind.hasText]

/-- The variables of a declaration come after the word that begins it. -/
theorem gives_declarationWord (hs : s.Sound source) :
    declarationWord.Gives c s fun _ s' => Step source s s' ∧
      s.token.span.start < s'.previousEnd := by
  unfold declarationWord
  refine token_bind.mpr ?_
  split
  · exact gives_unexpected
  · rename_i kind declares
    have text := hs.text (hasText_of_variableKind? declares)
    refine (passes_bump c s hs).bind fun _ s₁ ⟨⟨h₁, _, _, _, _, _⟩, _, _, _⟩ => ?_
    split
    · refine (passes_expectWord _ c s₁ h₁).bind fun _ s₂ ⟨⟨h₂, _, _, _, _, _⟩, _, _, _⟩ => ?_
      exact gives_pure ⟨.of h₂ (by omega), by omega⟩
    · exact gives_pure ⟨.of h₁ (by omega), by omega⟩

theorem reads_variableStatement (hg : g.Sound source) (inList : Bool) :
    Reads source (variableStatement g inList) fun s => [.listed s] := by
  intro c s hs
  unfold variableStatement
  refine start_bind.mpr ?_
  refine (gives_declarationWord hs).bind fun kind s₁ ⟨⟨h₁, _, _, _, _, _⟩, after⟩ => ?_
  refine (reads_declarators hg kind true c s₁ h₁).bind fun list s₂ ⟨⟨h₂, _, _, _, _, _⟩, laid⟩ => ?_
  refine (goesOn_endStatement c _ h₂).bind fun _ s₃ ⟨h₃, _, _, _, _, _⟩ => ?_
  have le := laid.le
  have pieces : LaidAll source s₃.faults (s.token.span.start + 1) s₃.previousEnd
      (list.map (.declarator .list)) := laid.wide (by omega)
  refine spanFrom_bind.mpr (gives_noteIf (notes_report _ _) fun s₄ same => ?_)
  obtain ⟨h₄, start, ended⟩ := same.after h₃
  exact gives_pure ⟨.of h₄ (by omega),
    .of_fits (.between hs.start h₃.ended (by omega)) (pieces.later (by omega)) ⟨by simp, rfl⟩⟩

/-- A declaration of variables is one. -/
theorem gives_variables {inList : Bool} : (variableStatement g inList).Gives c s fun d _ =>
    d.isDeclaration = true := by
  unfold variableStatement
  refine start_bind.mpr (gives_any.bind fun kind _ _ => gives_any.bind fun list _ _ =>
    gives_any.bind fun _ _ _ => spanFrom_bind.mpr (gives_noteIf (notes_report _ _) fun _ _ => ?_))
  exact gives_pure rfl

theorem reads_expressionStatement (hg : g.Sound source) :
    Reads source (expressionStatement g) fun s => [.listed s] := by
  intro c s hs
  unfold expressionStatement
  refine start_bind.mpr ?_
  refine (reads_expression hg c s hs).bind fun value s₁ ⟨⟨h₁, _, _, _, _, _⟩, laid⟩ => ?_
  have le := laid.le
  refine token_bind.mpr ?_
  split
  · refine (passes_bump c s₁ h₁).bind fun _ s₂ ⟨⟨h₂, _, _, _, _, _⟩, _, _, _⟩ => ?_
    refine (hg.statement false c s₂ h₂).bind fun body s₃ ⟨⟨h₃, _, _, _, _, _⟩, laid'⟩ => ?_
    have pieces : LaidAll source s₃.faults s.token.span.start s₃.previousEnd [.listed body] :=
      laid'.wide (by omega)
    have le' := laid'.le
    exact spanFrom_bind.mpr
      (gives_pure (laid_between h₃ hs.start pieces (by omega) ⟨id, rfl, by simp, rfl⟩))
  · refine (goesOn_endStatement c _ h₁).bind fun _ s₂ ⟨h₂, _, _, _, _, _⟩ => ?_
    have starts := laid.span_within.lo_le
    exact spanFrom_bind.mpr
        (gives_pure ⟨.of h₂ (by omega), .plain ⟨.between hs.start h₂.ended (by omega), starts⟩
          (laid.wide (by omega)) ⟨rfl, by simp, rfl⟩⟩)

theorem reads_letStatement (hg : g.Sound source) (inList : Bool) :
    Reads source (letStatement g inList) fun s => [.listed s] := by
  intro c s hs
  unfold letStatement
  refine nextToken_bind.mpr ?_
  split
  · exact reads_expressionStatement hg c s hs
  · exact reads_variableStatement hg inList c s hs

theorem looks_atUsing : Looks atUsing := looks_lookahead _

/-- A function or a class that stands as a statement. -/
theorem laid_declaration {faults lo hi : Nat} {value : Expr}
    (laid : LaidAll source faults lo hi [.part value]) :
    LaidAll source faults lo hi [.listed (.declaration value)] :=
  .plain laid.span_within laid ⟨rfl, by simp, rfl⟩

theorem reads_functionStatement (hg : g.Sound source) (inList : Bool) :
    Reads source (functionStatement g inList) fun s => [.listed s] := by
  intro c s hs
  unfold functionStatement
  refine (reads_functionFrom hg _ c s hs).bind
    fun (value, isAsync, isGenerator) s₁ ⟨⟨h₁, _, _, _, _, _⟩, laid⟩ => ?_
  have done (s' : ParseState) (same : s₁.Same s') :
      Gives (pure (.declaration value)) c s' fun d s' => Step source s s' ∧
        LaidAll source s'.faults s.token.span.start s'.previousEnd [.listed d] := by
    obtain ⟨h', start, ended⟩ := same.after h₁
    exact gives_pure ⟨.of h' (by omega), (laid_declaration laid).wide (by omega)⟩
  dsimp only
  split
  · split
    · exact (notes_report _ _ c s₁).bind fun _ => done
    · exact gives_noteIf (notes_report _ _) done
  · exact done s₁ (.refl s₁)

/-- The statement that declares a function is a declaration. -/
theorem gives_functionDeclaration {inList : Bool} : (functionStatement g inList).Gives c s
    fun d _ => d.isDeclaration = true := by
  unfold functionStatement
  refine gives_any.bind fun (value, isAsync, isGenerator) s₁ _ => ?_
  dsimp only
  split
  · split
    · exact (notes_report _ _ c s₁).bind fun _ _ _ => gives_pure rfl
    · exact gives_noteIf (notes_report _ _) fun _ _ => gives_pure rfl
  · exact gives_pure rfl

/-- The statement that declares a class is a declaration. -/
theorem gives_classDeclaration {inList : Bool} {marks : List Expr} :
    (classStatement g inList marks).Gives c s fun d _ => d.isDeclaration = true := by
  unfold classStatement
  exact gives_any.bind fun _ _ _ => gives_noteIf (notes_report _ _) fun _ _ => gives_pure rfl

/-- The declaration of a class, whose decorators have been read before. -/
theorem gives_classStatement (hg : g.Sound source) (hs : s.Sound source) (inList : Bool) {lo : Nat}
    {marks : List Expr} (decorated : LaidAll source s.faults lo s.token.span.start (marks.map .part)) :
    (classStatement g inList marks).Gives c s fun d s' =>
      Step source s s' ∧ LaidAll source s'.faults lo s'.previousEnd [.listed d] := by
  unfold classStatement
  refine (gives_classFrom hg hs _ decorated).bind fun value s₁ ⟨⟨h₁, _, _, _, _, _⟩, laid⟩ => ?_
  refine gives_noteIf (notes_report _ _) fun s₂ same => ?_
  obtain ⟨h₂, start, ended⟩ := same.after h₁
  exact gives_pure ⟨.of h₂ (by omega), (laid_declaration laid).wide (by omega)⟩

/-! ## Branches and loops -/

theorem reads_ifStatement (hg : g.Sound source) :
    Reads source (ifStatement g) fun s => [.listed s] := by
  intro c s hs
  unfold ifStatement
  refine start_bind.mpr ?_
  refine (passes_bump c s hs).bind fun _ s₁ ⟨⟨h₁, _, _, _, _, _⟩, _, _, _⟩ => ?_
  refine (reads_condition hg c s₁ h₁).bind fun test s₂ ⟨⟨h₂, _, _, _, _, _⟩, laid₂⟩ => ?_
  refine (hg.statement _ c s₂ h₂).bind fun yes s₃ ⟨⟨h₃, _, _, _, _, _⟩, laid₃⟩ => ?_
  refine ((mayPass_eatWord _).goesOn c _ h₃).bind fun _ s₄ ⟨h₄, _, _, _, _, _⟩ => ?_
  refine gives_optional (hg.statement _) h₄ fun no s₅ ⟨⟨h₅, _, _, _, _, _⟩, laid₅⟩ => ?_
  have pieces : LaidAll source s₅.faults s.token.span.start s₅.previousEnd
      ([Node.part test] ++ [Node.listed yes] ++ no.toList.map Node.listed) :=
    ((laid₂.add laid₃ (by omega)).add laid₅ (by omega)).wide (by omega)
  have le := pieces.le
  refine spanFrom_bind.mpr
    (gives_pure (laid_between h₅ hs.start pieces (by omega) ⟨id, rfl, ?_, rfl⟩))
  cases no <;> rfl

theorem reads_doStatement (hg : g.Sound source) :
    Reads source (doStatement g) fun s => [.listed s] := by
  intro c s hs
  unfold doStatement
  refine start_bind.mpr ?_
  refine (passes_bump c s hs).bind fun _ s₁ ⟨⟨h₁, _, _, _, _, _⟩, _, _, _⟩ => ?_
  refine (hg.statement _ c s₁ h₁).bind fun body s₂ ⟨⟨h₂, _, _, _, _, _⟩, laid₂⟩ => ?_
  refine (passes_expectWord _ c s₂ h₂).bind fun _ s₃ ⟨⟨h₃, _, _, _, _, _⟩, _, _, _⟩ => ?_
  refine (reads_condition hg c s₃ h₃).bind fun test s₄ ⟨⟨h₄, _, _, _, _, _⟩, laid₄⟩ => ?_
  refine ((mayPass_eat _).goesOn c _ h₄).bind fun _ s₅ ⟨h₅, _, _, _, _, _⟩ => ?_
  have pieces : LaidAll source s₅.faults s.token.span.start s₅.previousEnd
      ([Node.listed body] ++ [Node.part test]) :=
    (laid₂.add laid₄ (by omega)).wide (by omega)
  have le := pieces.le
  exact spanFrom_bind.mpr
    (gives_pure (laid_between h₅ hs.start pieces (by omega) ⟨id, rfl, by simp, rfl⟩))

theorem reads_whileStatement (hg : g.Sound source) :
    Reads source (whileStatement g) fun s => [.listed s] := by
  intro c s hs
  unfold whileStatement
  refine start_bind.mpr ?_
  refine (passes_bump c s hs).bind fun _ s₁ ⟨⟨h₁, _, _, _, _, _⟩, _, _, _⟩ => ?_
  refine (reads_condition hg c s₁ h₁).bind fun test s₂ ⟨⟨h₂, _, _, _, _, _⟩, laid₂⟩ => ?_
  refine (hg.statement _ c s₂ h₂).bind fun body s₃ ⟨⟨h₃, _, _, _, _, _⟩, laid₃⟩ => ?_
  have pieces : LaidAll source s₃.faults s.token.span.start s₃.previousEnd
      ([Node.part test] ++ [Node.listed body]) :=
    (laid₂.add laid₃ (by omega)).wide (by omega)
  have le := pieces.le
  exact spanFrom_bind.mpr
    (gives_pure (laid_between h₃ hs.start pieces (by omega) ⟨id, rfl, by simp, rfl⟩))

/-- A loop with a head of three parts, of which the first one has been read. -/
theorem gives_loopRest (hg : g.Sound source) (hs : s.Sound source) {first : Nat}
    (start : Boundary source first) (isAwait : Bool) (head : Option Stmt)
    (laid : LaidAll source s.faults first s.previousEnd (head.toList.map fun s => (Node.ofFirst s).bare)) :
    (loopRest g first isAwait head).Gives c s fun l s' =>
      Step source s s' ∧ LaidAll source s'.faults first s'.previousEnd [.listed l] := by
  have le := laid.le
  unfold loopRest
  refine (passes_expect _ c s hs).bind fun _ s₁ ⟨⟨h₁, _, _, _, _, _⟩, _, _, _⟩ => ?_
  extract_lets _ rest
  suffices rest_gives : ∀ s₂, s₁.Same s₂ → (rest ()).Gives c s₂ fun l s' =>
      Step source s s' ∧ LaidAll source s'.faults first s'.previousEnd [.listed l] by
    split
    · exact (notes_forM (notes_checkInitializer _) _ c s₁).bind fun _ => rest_gives
    · exact rest_gives s₁ (.refl s₁)
  intro s₂ same
  obtain ⟨h₂, start₂, ended₂⟩ := same.after h₁
  have expression_reads := (reads_expression hg).withReader fun context =>
    { context with inOperator := true }
  refine (looks_either (looks_at _) (looks_at _)).bind fun _ => ?_
  refine gives_optionalUnless expression_reads h₂ fun test s₃ ⟨⟨h₃, _, _, _, _, _⟩, laid₃⟩ => ?_
  refine (passes_expect _ c s₃ h₃).bind fun _ s₄ ⟨⟨h₄, _, _, _, _, _⟩, _, _, _⟩ => at_bind.mpr ?_
  refine gives_optionalUnless expression_reads h₄ fun update s₅ ⟨⟨h₅, _, _, _, _, _⟩, laid₅⟩ => ?_
  refine (passes_expect _ c s₅ h₅).bind fun _ s₆ ⟨⟨h₆, _, _, _, _, _⟩, _, _, _⟩ => ?_
  refine gives_noteIf (notes_report _ _) fun s₇ same => ?_
  obtain ⟨h₇, start₇, ended₇⟩ := same.after h₆
  refine (hg.statement _ c s₇ h₇).bind fun body s₈ ⟨⟨h₈, _, _, _, _, _⟩, laid₈⟩ => ?_
  have pieces : LaidAll source s₈.faults first s₈.previousEnd
      ((head.toList.map fun s => (Node.ofFirst s).bare) ++ test.toList.map Node.part ++
        update.toList.map Node.part ++ [Node.listed body]) :=
    ((laid.add laid₃ (by omega)).add laid₅ (by omega)).add laid₈ (by omega)
  have le := pieces.le
  refine spanFrom_bind.mpr (gives_pure (laid_between h₈ start pieces (by omega) ⟨id, rfl, ?_, rfl⟩))
  cases head <;> cases test <;> cases update <;> rfl

/-- A loop over properties or elements, whose head has been read. -/
theorem gives_eachRest (hg : g.Sound source) (hs : s.Sound source) {first : Nat}
    (start : Boundary source first) (isAwait : Bool) (declared : Option Stmt)
    (stored : Option Pattern)
    (laid : LaidAll source s.faults first s.previousEnd
      ((declared.toList.map fun s => (Node.ofFirst s).bare) ++ stored.toList.map Node.pattern)) :
    (eachRest g first isAwait declared stored).Gives c s fun l s' =>
      Step source s s' ∧ LaidAll source s'.faults first s'.previousEnd [.listed l] := by
  unfold eachRest
  refine atWord_bind.mpr ?_
  refine (passes_bump c s hs).bind fun _ s₁ ⟨⟨h₁, _, _, _, _, _⟩, _, _, _⟩ => ?_
  refine gives_either _ (reads_expression hg c s₁ h₁) (hg.assignment c s₁ h₁)
    fun subject s₂ ⟨⟨h₂, _, _, _, _, _⟩, laid₂⟩ => ?_
  refine (passes_expect _ c s₂ h₂).bind fun _ s₃ ⟨⟨h₃, _, _, _, _, _⟩, _, _, _⟩ => ?_
  refine gives_noteIf (notes_report _ _) fun s₄ same => ?_
  obtain ⟨h₄, start₄, ended₄⟩ := same.after h₃
  refine (hg.statement _ c s₄ h₄).bind fun body s₅ ⟨⟨h₅, _, _, _, _, _⟩, laid₅⟩ => ?_
  have pieces : LaidAll source s₅.faults first s₅.previousEnd
      ((declared.toList.map fun s => (Node.ofFirst s).bare) ++ stored.toList.map Node.pattern ++
        [Node.part subject] ++ [Node.listed body]) :=
    (laid.add laid₂ (by omega)).add laid₅ (by omega)
  have le := pieces.le
  refine spanFrom_bind.mpr (gives_pure (laid_between h₅ start pieces (by omega) ⟨id, rfl, ?_, rfl⟩))
  cases declared <;> cases stored <;> rfl

theorem gives_declaringLoop (hg : g.Sound source) (hs : s.Sound source) {first : Nat}
    (start : Boundary source first) (le : first ≤ s.token.span.start) (isAwait : Bool) :
    (declaringLoop g first isAwait).Gives c s fun l s' =>
      Step source s s' ∧ LaidAll source s'.faults first s'.previousEnd [.listed l] := by
  unfold declaringLoop
  refine start_bind.mpr ?_
  refine (gives_declarationWord hs).bind fun kind s₁ ⟨⟨h₁, _, _, _, _, _⟩, after⟩ => ?_
  refine ((reads_declarators hg kind false).withReader _ c s₁ h₁).bind
    fun list s₂ ⟨⟨h₂, _, _, _, _, _⟩, laid⟩ => ?_
  have le' := laid.le
  have pieces : LaidAll source s₂.faults (s.token.span.start + 1) s₂.previousEnd
      (list.map (.declarator .list)) := laid.wide (by omega)
  refine spanFrom_bind.mpr ?_
  have head : LaidAll source s₂.faults first s₂.previousEnd
      [.listed (.variables ⟨s.token.span.start, s₂.previousEnd⟩ kind list)] :=
    .of_fits (.between hs.start h₂.ended (by omega)) pieces ⟨by simp, rfl⟩
  refine (looks_either (looks_atWord _) (looks_atWord _)).bind fun _ => ?_
  split
  · exact (gives_eachRest hg h₂ start isAwait (some (.variables _ kind list)) none head).mono
      fun l s₃ ⟨⟨h₃, _, _, _, _, _⟩, laid⟩ => ⟨.of h₃ (by omega), laid⟩
  · exact (gives_loopRest hg h₂ start isAwait (some (.variables _ kind list)) head).mono
      fun l s₃ ⟨⟨h₃, _, _, _, _, _⟩, laid⟩ => ⟨.of h₃ (by omega), laid⟩

theorem looks_atLoopDeclaration : Looks atLoopDeclaration := by
  intro c s
  unfold atLoopDeclaration
  refine token_bind.mpr ?_
  split
  · exact gives_pure rfl
  · exact gives_pure rfl
  · exact nextToken_bind.mpr (gives_pure rfl)
  · exact nextToken_bind.mpr (gives_pure rfl)
  · exact looks_atUsing c s
  · exact gives_pure rfl

theorem reads_forStatement (hg : g.Sound source) :
    Reads source (forStatement g) fun s => [.listed s] := by
  intro c s hs
  unfold forStatement
  refine start_bind.mpr ?_
  refine (passes_bump c s hs).bind fun _ s₁ ⟨⟨h₁, _, _, _, _, _⟩, _, _, _⟩ => ?_
  refine start_bind.mpr (atWord_bind.mpr ?_)
  extract_lets loop
  suffices loop_gives : ∀ s₂, Step source s₁ s₂ → (loop ()).Gives c s₂ fun l s' =>
      Step source s s' ∧ LaidAll source s'.faults s.token.span.start s'.previousEnd [.listed l] by
    split
    · refine read_bind.mpr (gives_noteIf (notes_report _ _) fun s₂ same => ?_)
      obtain ⟨h₂, start, ended⟩ := same.after h₁
      refine (passes_bump c s₂ h₂).bind fun _ s₃ ⟨⟨h₃, _, _, _, _, _⟩, _, _, _⟩ => ?_
      exact loop_gives s₃ (.of h₃ (by omega))
    · exact loop_gives s₁ (.refl h₁)
  rintro s₂ ⟨h₂, _, _, _, _, _⟩
  refine (passes_expect _ c s₂ h₂).bind fun _ s₃ ⟨⟨h₃, _, _, _, _, _⟩, _, _, _⟩ => ?_
  have laterThan (s' : ParseState) {a : Stmt} (h : Step source s₃ s' ∧
      LaidAll source s'.faults s.token.span.start s'.previousEnd [.listed a]) : Step source s s' ∧
      LaidAll source s'.faults s.token.span.start s'.previousEnd [.listed a] := by
    obtain ⟨⟨h', _, _, _, _, _⟩, laid⟩ := h
    exact ⟨.of h' (by omega), laid⟩
  refine (looks_either (looks_at _) (looks_at _)).bind fun _ => ?_
  split
  · exact (gives_loopRest hg h₃ hs.start _ none (.none (by omega))).mono fun l s' h => laterThan
      s' h
  refine looks_atLoopDeclaration.bind fun _ => ?_
  split
  · exact (gives_declaringLoop hg h₃ hs.start (by omega) _).mono fun l s' h => laterThan s' h
  refine start_bind.mpr (token_bind.mpr (nextToken_bind.mpr (pure_bind.mpr ?_)))
  refine ((reads_expression hg).withReader _ c s₃ h₃).bind
    fun head s₄ ⟨⟨h₄, _, _, _, _, _⟩, laid⟩ => ?_
  have each (s₅ : ParseState) (same : s₄.Same s₅) : Gives (do
      eachRest g s.token.span.start (isWord s₁.token .await) none (some (← targetOf head))) c s₅
      fun l s' => Step source s s' ∧ LaidAll source s'.faults s.token.span.start s'.previousEnd [.listed l]
        := by
    refine (makes_targetOf laid c s₅).bind fun target s₆ ⟨same', laid⟩ => ?_
    obtain ⟨h₆, start, ended⟩ := (same.trans same').after h₄
    have stored : LaidAll source s₆.faults s.token.span.start s₆.previousEnd [.pattern target] :=
      laid.wide (by omega)
    exact (gives_eachRest hg h₆ hs.start _ none (some target) stored).mono
      fun l s' ⟨⟨h', _, _, _, _, _⟩, laid⟩ => ⟨.of h' (by omega), laid⟩
  refine atWord_bind.mpr ?_
  split
  · exact each s₄ (.refl s₄)
  refine atWord_bind.mpr ?_
  split
  · exact gives_noteIf (notes_report _ _) each
  · have first : LaidAll source s₄.faults s.token.span.start s₄.previousEnd [.part head] :=
      laid.wide (by omega)
    exact (gives_loopRest hg h₄ hs.start _ (some (.expression head.span head)) first).mono
      fun l s' ⟨⟨h', _, _, _, _, _⟩, laid⟩ => ⟨.of h' (by omega), laid⟩

/-! ## Jumps and blocks -/

theorem reads_jumpStatement : Reads source jumpStatement fun s => [.listed s] := by
  intro c s hs
  unfold jumpStatement
  refine start_bind.mpr ?_
  refine (passes_bump c s hs).bind fun _ s₁ ⟨⟨h₁, _, _, _, _, _⟩, _, _, _⟩ => ?_
  refine looks_canEndStatement.bind fun _ => ?_
  extract_lets ending
  have ending_gives (s₂ : ParseState) (step : Step source s₁ s₂) : (ending ()).Gives c s₂
      fun d s' => Step source s s' ∧
        LaidAll source s'.faults s.token.span.start s'.previousEnd [.listed d] := by
    obtain ⟨h₂, _, _, _, _, _⟩ := step
    refine (goesOn_endStatement c _ h₂).bind fun _ s₃ ⟨h₃, _, _, _, _, _⟩ => ?_
    exact spanFrom_bind.mpr (gives_pure (laid_alone h₃ hs.start (by omega) ⟨id, rfl, by simp, rfl⟩))
  split
  · refine token_bind.mpr ?_
    split
    · exact (gives_wordText h₁).bind fun _ s₂ ⟨moved, _⟩ => ending_gives s₂ moved.toStep
    · exact gives_unexpected.bind fun _ _ h => h
  · exact ending_gives s₁ (.refl h₁)

theorem reads_returnStatement (hg : g.Sound source) :
    Reads source (returnStatement g) fun s => [.listed s] := by
  intro c s hs
  unfold returnStatement
  refine start_bind.mpr ?_
  refine (passes_bump c s hs).bind fun _ s₁ ⟨⟨h₁, _, _, _, _, _⟩, _, _, _⟩ => ?_
  refine looks_canEndStatement.bind fun _ => ?_
  extract_lets ending
  have ending_gives (value : Option Expr) (s₂ : ParseState) (step : Step source s₁ s₂)
      (laid : LaidAll source s₂.faults s.token.span.start s₂.previousEnd (value.toList.map .part)) :
      (ending value).Gives c s₂ fun d s' => Step source s s' ∧
        LaidAll source s'.faults s.token.span.start s'.previousEnd [.listed d] := by
    obtain ⟨h₂, _, _, _, _, _⟩ := step
    refine read_bind.mpr (gives_noteIf (notes_report _ _) fun s₃ same => ?_)
    obtain ⟨h₃, start, ended⟩ := same.after h₂
    exact spanFrom_bind.mpr
      (gives_pure (laid_between h₃ hs.start laid (by omega) ⟨id, rfl, by simp, rfl⟩))
  split
  · refine ((mayPass_eat _).goesOn c _ h₁).bind fun _ s₂ step => pure_bind.mpr ?_
    have ended := step.end_le
    exact ending_gives none s₂ step (.none (by omega))
  · refine ((reads_expression hg).withReader _ c s₁ h₁).bind
      fun value s₂ ⟨⟨h₂, _, _, _, _, _⟩, laid⟩ => ?_
    refine (goesOn_endStatement c _ h₂).bind fun _ s₃ ⟨h₃, _, _, _, _, _⟩ => pure_bind.mpr ?_
    exact ending_gives (some value) s₃ (.of h₃ (by omega)) (laid.wide (by omega))

theorem reads_throwStatement (hg : g.Sound source) :
    Reads source (throwStatement g) fun s => [.listed s] := by
  intro c s hs
  unfold throwStatement
  refine start_bind.mpr ?_
  refine (passes_bump c s hs).bind fun _ s₁ ⟨⟨h₁, _, _, _, _, _⟩, _, _, _⟩ => ?_
  refine token_bind.mpr (gives_noteIf (notes_report _ _) fun s₂ same => ?_)
  obtain ⟨h₂, start₂, ended₂⟩ := same.after h₁
  refine (reads_expression hg c s₂ h₂).bind fun value s₃ ⟨⟨h₃, _, _, _, _, _⟩, laid⟩ => ?_
  refine (goesOn_endStatement c _ h₃).bind fun _ s₄ ⟨h₄, _, _, _, _, _⟩ => ?_
  have pieces : LaidAll source s₄.faults s.token.span.start s₄.previousEnd [.part value] :=
    laid.wide (by omega)
  have le := pieces.le
  exact spanFrom_bind.mpr
    (gives_pure (laid_between h₄ hs.start pieces (by omega) ⟨id, rfl, by simp, rfl⟩))

theorem reads_withStatement (hg : g.Sound source) :
    Reads source (withStatement g) fun s => [.listed s] := by
  intro c s hs
  unfold withStatement
  refine start_bind.mpr ?_
  refine (passes_bump c s hs).bind fun _ s₁ ⟨⟨h₁, _, _, _, _, _⟩, _, _, _⟩ => ?_
  refine (reads_condition hg c s₁ h₁).bind fun object s₂ ⟨⟨h₂, _, _, _, _, _⟩, laid₂⟩ => ?_
  refine (hg.statement _ c s₂ h₂).bind fun body s₃ ⟨⟨h₃, _, _, _, _, _⟩, laid₃⟩ => ?_
  have pieces : LaidAll source s₃.faults s.token.span.start s₃.previousEnd
      ([Node.part object] ++ [Node.listed body]) := (laid₂.add laid₃ (by omega)).wide (by omega)
  have le := pieces.le
  exact spanFrom_bind.mpr
    (gives_pure (laid_between h₃ hs.start pieces (by omega) ⟨id, rfl, by simp, rfl⟩))

theorem readsUpTo_switchCase (hg : g.Sound source) :
    ReadsUpTo source (switchCase g) fun x => [.switchCase x] := by
  intro c s hs
  unfold switchCase
  refine token_bind.mpr ?_
  extract_lets body
  have body_gives (test : Option Expr) (s₁ : ParseState) (step : Step source s s₁)
      (laid : LaidAll source s₁.faults s.token.span.start s₁.previousEnd (test.toList.map .part)) :
      (body test).Gives c s₁ fun x s' => Step source s s' ∧
        LaidAll source s'.faults s.token.span.start s'.token.span.start [.switchCase x] := by
    obtain ⟨h₁, _, _, _, _, _⟩ := step
    refine (passes_expect _ c s₁ h₁).bind fun _ s₂ ⟨⟨h₂, _, _, _, _, _⟩, _, _, _⟩ => ?_
    let keeps (read : List Stmt) (s' : ParseState) := Step source s₂ s' ∧
      LaidAll source s'.faults s₂.token.span.start s'.token.span.start (read.reverse.map .listed)
    let done (body : List Stmt) (s' : ParseState) := Step source s₂ s' ∧
      LaidAll source s'.faults s₂.token.span.start s'.token.span.start (body.map .listed)
    have init : keeps [] s₂ := ⟨.refl h₂, .none (by omega)⟩
    refine (gives_iterate keeps done init ?_).bind
      fun body s₃ ⟨⟨h₃, _, _, _, _, _⟩, laid₃⟩ => gives_pure ⟨.of h₃ (by omega), ?_⟩
    · rintro read s₃ ⟨⟨h₃, _, _, _, _, _⟩, laid₃⟩
      have stop : Gives (pure (.inr read.reverse)) c s₃ (After keeps done) :=
        gives_pure ⟨.of h₃ (by omega), laid₃⟩
      refine token_bind.mpr ?_
      split
      · exact stop
      · exact stop
      · exact stop
      · exact stop
      · refine (hg.statement _ c s₃ h₃).bind fun d s₄ ⟨⟨h₄, _, _, _, _, _⟩, laid₄⟩ => ?_
        refine gives_pure ⟨.of h₄ (by omega), ?_⟩
        simpa using (laid₃.add laid₄ (by omega)).wide (by omega)
    · have pieces : LaidAll source s₃.faults s.token.span.start s₃.token.span.start
          (test.toList.map Node.part ++ body.map Node.listed) := laid.add laid₃ (by omega)
      exact .plain pieces.le pieces ⟨rfl, by simp, rfl⟩
  split
  · refine (passes_bump c s hs).bind fun _ s₁ moved => pure_bind.mpr ?_
    exact body_gives none s₁ moved.toStep (.none moved.begun)
  · refine (passes_bump c s hs).bind fun _ s₁ ⟨⟨h₁, _, _, _, _, _⟩, _, _, _⟩ => ?_
    refine Gives.bind (gives_some (reads_expression hg) h₁)
      fun test s₂ ⟨⟨h₂, _, _, _, _, _⟩, laid⟩ => ?_
    exact body_gives test s₂ (.of h₂ (by omega)) (laid.wide (by omega))
  · exact gives_fatal.bind fun _ _ h => h

theorem reads_switchStatement (hg : g.Sound source) :
    Reads source (switchStatement g) fun s => [.listed s] := by
  intro c s hs
  unfold switchStatement
  refine start_bind.mpr ?_
  refine (passes_bump c s hs).bind fun _ s₁ ⟨⟨h₁, _, _, _, _, _⟩, _, _, _⟩ => ?_
  refine (reads_condition hg c s₁ h₁).bind fun subject s₂ ⟨⟨h₂, _, _, _, _, _⟩, laid₂⟩ => ?_
  refine (passes_expect _ c s₂ h₂).bind fun _ s₃ ⟨⟨h₃, _, _, _, _, _⟩, _, _, _⟩ => ?_
  refine (readsUpTo_sequence (readsUpTo_switchCase hg) c s₃ h₃).bind
    fun cases s₄ ⟨⟨h₄, _, _, _, _, _⟩, laid₄⟩ => ?_
  refine (passes_expect _ c s₄ h₄).bind fun _ s₅ ⟨⟨h₅, _, _, _, _, _⟩, _, _, _⟩ => ?_
  have pieces : LaidAll source s₅.faults s.token.span.start s₅.previousEnd
      ([Node.part subject] ++ cases.map Node.switchCase) := (laid₂.add laid₄ (by omega)).wide
        (by omega)
  have le := pieces.le
  exact spanFrom_bind.mpr
    (gives_pure (laid_between h₅ hs.start pieces (by omega) ⟨id, rfl, by simp, rfl⟩))

theorem reads_tryStatement (hg : g.Sound source) :
    Reads source (tryStatement g) fun s => [.listed s] := by
  intro c s hs
  unfold tryStatement
  refine start_bind.mpr ?_
  refine (passes_bump c s hs).bind fun _ s₁ ⟨⟨h₁, _, _, _, _, _⟩, _, _, _⟩ => ?_
  refine (reads_blockBody hg c s₁ h₁).bind fun body s₂ ⟨⟨h₂, _, _, _, _, _⟩, laid₂⟩ => ?_
  refine get_bind.mpr ?_
  refine ((mayPass_eatWord _).goesOn c _ h₂).bind fun hasHandler s₃ ⟨h₃, _, _, _, _, _⟩ => ?_
  extract_lets clauses handled
  have clauses_gives (clause : Option Pattern × List Stmt) (s₄ : ParseState)
      (step : Step source s₂ s₄) (caught : ∀ p ∈ clause.1, p.isCaught = true)
      (laid : LaidAll source s₄.faults s₂.previousEnd s₄.previousEnd
        (clause.1.toList.map Node.pattern ++ clause.2.map Node.listed)) :
      (clauses clause).Gives c s₄ fun d s' => Step source s s' ∧
        LaidAll source s'.faults s.token.span.start s'.previousEnd [.listed d] := by
    obtain ⟨parameter, handler⟩ := clause
    obtain ⟨h₄, _, _, _, _, _⟩ := step
    refine ((mayPass_eatWord _).goesOn c _ h₄).bind fun hasFinalizer s₅ ⟨h₅, _, _, _, _, _⟩ => ?_
    let read (finalizer : List Stmt) (s' : ParseState) := Step source s₅ s' ∧
      LaidAll source s'.faults s₅.previousEnd s'.previousEnd (finalizer.map .listed)
    refine gives_either read ?_ (gives_pure ⟨.refl h₅, .none (by omega)⟩)
      fun finalizer s₆ ⟨⟨h₆, _, _, _, _, _⟩, laid₆⟩ => ?_
    · exact (reads_blockBody hg c s₅ h₅).mono fun _ _ ⟨step, laid⟩ =>
        ⟨step, laid.wide ⟨h₅.order, Nat.le_refl _, Nat.le_refl _⟩⟩
    refine gives_noteIf (notes_report _ _) fun s₇ same => ?_
    obtain ⟨h₇, start, ended⟩ := same.after h₆
    have pieces : LaidAll source s₇.faults s.token.span.start s₇.previousEnd (body.map Node.listed ++
        (parameter.toList.map Node.pattern ++ handler.map Node.listed) ++ finalizer.map
          Node.listed) :=
      ((laid₂.add laid (by omega)).add laid₆ (by omega)).wide (by omega)
    have le := pieces.le
    exact spanFrom_bind.mpr (gives_pure (laid_between h₇ hs.start pieces (by omega)
      ⟨fun within => ⟨within, caught⟩, rfl, by simp, rfl⟩))
  split
  · refine ((mayPass_eat _).goesOn c _ h₃).bind fun _ s₄ ⟨h₄, _, _, _, _, _⟩ => ?_
    have handled_gives (parameter : Option Pattern) (s₅ : ParseState) (step : Step source s₄ s₅)
        (caught : ∀ p ∈ parameter, p.isCaught = true)
        (laid : LaidAll source s₅.faults s₂.previousEnd s₅.previousEnd (parameter.toList.map .pattern)) :
        (handled parameter).Gives c s₅ fun d s' => Step source s s' ∧
          LaidAll source s'.faults s.token.span.start s'.previousEnd [.listed d] := by
      obtain ⟨h₅, _, _, _, _, _⟩ := step
      refine (reads_blockBody hg c s₅ h₅).bind fun handler s₆ ⟨⟨h₆, _, _, _, _, _⟩, laid₆⟩ => ?_
      exact pure_bind.mpr (clauses_gives (parameter, handler) s₆ (.of h₆ (by omega)) caught
        (laid.add laid₆ (by omega)))
    split
    · refine (hg.pattern c s₄ h₄).bind fun pattern s₅ ⟨⟨⟨h₅, _, _, _, _, _⟩, laid⟩, _, caught⟩ => ?_
      refine (passes_expect _ c s₅ h₅).bind fun _ s₆ ⟨⟨h₆, _, _, _, _, _⟩, _, _, _⟩ => pure_bind.mpr ?_
      exact handled_gives (some pattern) s₆ (.of h₆ (by omega)) (by simpa using caught)
        (laid.wide (by omega))
    · exact pure_bind.mpr (handled_gives none s₄ (.refl h₄) (by simp) (.none (by omega)))
  · exact pure_bind.mpr (clauses_gives (none, []) s₃ (.of h₃ (by omega)) (by simp)
      (.none (by omega)))

theorem reads_debuggerStatement : Reads source debuggerStatement fun s => [.listed s] := by
  intro c s hs
  unfold debuggerStatement
  refine start_bind.mpr ?_
  refine (passes_bump c s hs).bind fun _ s₁ ⟨⟨h₁, _, _, _, _, _⟩, _, _, _⟩ => ?_
  refine (goesOn_endStatement c _ h₁).bind fun _ s₂ ⟨h₂, _, _, _, _, _⟩ => ?_
  exact spanFrom_bind.mpr (gives_pure (laid_alone h₂ hs.start (by omega) ⟨id, rfl, by simp, rfl⟩))

theorem reads_plainStatement (hg : g.Sound source) (inList : Bool) :
    Reads source (plainStatement g inList) fun s => [.listed s] := by
  intro c s hs
  unfold plainStatement
  refine token_bind.mpr ?_
  split
  · refine (reads_blockBody hg c s hs).bind fun body s₁ ⟨⟨h₁, _, _, _, _, _⟩, laid⟩ => ?_
    have le := laid.le
    exact spanFrom_bind.mpr
      (gives_pure (laid_between h₁ hs.start laid (by omega) ⟨id, rfl, by simp, rfl⟩))
  · refine (passes_bump c s hs).bind fun _ s₁ moved => gives_pure ⟨moved.toStep, ?_⟩
    exact .of_fits (moved.token_within hs) (.none hs.le) ⟨by simp, rfl⟩
  · exact reads_ifStatement hg c s hs
  · exact reads_doStatement hg c s hs
  · exact reads_whileStatement hg c s hs
  · exact reads_forStatement hg c s hs
  · exact reads_jumpStatement c s hs
  · exact reads_jumpStatement c s hs
  · exact reads_withStatement hg c s hs
  · exact reads_switchStatement hg c s hs
  · exact reads_throwStatement hg c s hs
  · exact reads_tryStatement hg c s hs
  · exact reads_debuggerStatement c s hs
  · exact gives_classStatement hg hs inList (.none (by omega))
  · exact reads_returnStatement hg c s hs
  · exact reads_variableStatement hg inList c s hs
  · exact reads_variableStatement hg inList c s hs
  · split
    · exact reads_expressionStatement hg c s hs
    · exact reads_letStatement hg inList c s hs
  · refine looks_atUsing.bind fun _ => ?_
    split
    · exact reads_variableStatement hg inList c s hs
    · exact reads_expressionStatement hg c s hs
  · refine looks_atUsing.bind fun _ => ?_
    split
    · exact reads_variableStatement hg inList c s hs
    · exact reads_expressionStatement hg c s hs
  · refine looks_atFunction.bind fun _ => ?_
    split
    · exact reads_functionStatement hg inList c s hs
    · exact reads_expressionStatement hg c s hs

end ModuleInterop.Syntax.Parser
