import ModuleInterop.Proofs.Syntax.Parser.Basic
import ModuleInterop.Syntax.Parser.Binding

/-!
# What the parsers of bindings, keys and parameters give
-/

set_option autoImplicit false

namespace ModuleInterop.Syntax.Parser

open ModuleInterop.Text

attribute [local simp] Node.inside Node.pieces Node.parts Node.bare Node.part Node.listed

variable {source : List Char} {g : Grammar} {c : Context} {s : ParseState}

/-- A key that is a word has its text and no expression. -/
theorem gives_propertyKey (hg : g.Sound source) (hs : s.Sound source) :
    (propertyKey g).Gives c s fun key s' => Moved source s s' ∧
      LaidAll source s'.faults s.token.span.start s'.previousEnd (key.computed.toList.map .part) ∧
      (s.token.kind.isWord = true → key.computed = none ∧
        ∃ keyword, s.token.kind = .word (key.name.getD "") keyword) := by
  unfold propertyKey
  refine token_bind.mpr ?_
  split
  case h_4 bracket =>
    refine (passes_bump c s hs).bind fun _ s₁ ⟨⟨h₁, _, _, _, _, _⟩, _, _, _⟩ => ?_
    refine (hg.assignment.withReader _ c s₁ h₁).bind fun e s₂ ⟨⟨h₂, _, _, _, _, _⟩, laid⟩ => ?_
    refine (passes_expect _ c s₂ h₂).bind fun _ s₃ ⟨⟨h₃, _, _, _, _, _⟩, _, _, _⟩ => ?_
    have other : s.token.kind.isWord ≠ true := by simp [bracket, TokenKind.isWord]
    exact gives_pure ⟨⟨.of h₃ (by omega), by omega, by omega, fun _ word => absurd word other⟩,
      laid.wide (by omega), fun word => absurd word other⟩
  case h_5 =>
    refine (gives_wordText hs).bind fun name s₁ ⟨moved, _, word⟩ => ?_
    exact gives_pure ⟨moved, .none moved.begun, fun _ => ⟨rfl, word⟩⟩
  all_goals
    rename_i literal
    refine (passes_advance c s hs).bind fun _ s₁ moved => ?_
    exact gives_pure ⟨moved, .none moved.begun, by simp [literal, TokenKind.isWord]⟩

theorem gives_memberKey (hg : g.Sound source) (hs : s.Sound source) :
    (memberKey g).Gives c s fun key s' => Moved source s s' ∧
      LaidAll source s'.faults s.token.span.start s'.previousEnd (key.computed.toList.map .part) := by
  unfold memberKey
  refine token_bind.mpr ?_
  split
  · refine (passes_advance c s hs).bind fun _ s₁ moved => ?_
    exact gives_pure ⟨moved, .none moved.begun⟩
  · exact (gives_propertyKey hg hs).mono fun _ _ ⟨moved, laid, _⟩ => ⟨moved, laid⟩

/-- A pattern that begins before the token. -/
theorem gives_withDefault (hg : g.Sound source) (hs : s.Sound source) {first : Nat}
    {inner : Pattern} (start : Boundary source first)
    (laid : LaidAll source s.faults first s.previousEnd [.pattern inner]) :
    (withDefault g first inner).Gives c s fun p s' => Step source s s' ∧
      LaidAll source s'.faults first s'.previousEnd [.pattern p] := by
  have le := laid.le
  have order := hs.order
  unfold withDefault
  refine (mayPass_eat _ c s hs).bind fun b s₁ eaten => ?_
  rcases eaten with ⟨rfl, ⟨h₁, _, _, _, _, _⟩, _, _, _⟩ | ⟨rfl, rfl⟩
  · refine (hg.assignment.withReader _ c s₁ h₁).bind fun e s₂ ⟨⟨h₂, _, _, _, _, _⟩, laid'⟩ => ?_
    have pieces : LaidAll source s₂.faults first s₂.previousEnd ([Node.pattern inner] ++ [Node.part e]) :=
      laid.add laid' (by omega)
    exact spanFrom_bind.mpr
      (gives_pure (laid_between h₂ start pieces (by omega) ⟨id, rfl, by simp, rfl⟩))
  · exact gives_pure ⟨.refl hs, laid⟩

theorem reads_patternWithDefault (hg : g.Sound source) :
    Reads source (patternWithDefault g) fun p => [.pattern p] := by
  intro c s hs
  unfold patternWithDefault
  refine start_bind.mpr ?_
  refine (hg.pattern c s hs).bind fun inner s₁ ⟨⟨⟨h₁, _, _, _, _, _⟩, laid⟩, _⟩ => ?_
  refine (gives_withDefault hg h₁ hs.start laid).mono fun p s₂ ⟨⟨h₂, _, _, _, _, _⟩, laid⟩ => ?_
  exact ⟨.of h₂ (by omega), laid⟩

theorem reads_restPattern (hg : g.Sound source) :
    Reads source (restPattern g) fun p => [.pattern p] := by
  intro c s hs
  unfold restPattern
  refine start_bind.mpr ?_
  refine (passes_bump c s hs).bind fun _ s₁ ⟨⟨h₁, _, _, _, _, _⟩, _, _, _⟩ => ?_
  refine (hg.pattern c s₁ h₁).bind fun inner s₂ ⟨⟨⟨h₂, _, _, _, _, _⟩, laid⟩, _⟩ => ?_
  have le := laid.le
  exact spanFrom_bind.mpr
    (gives_pure (laid_between h₂ hs.start laid (by omega) ⟨id, rfl, by simp, rfl⟩))

/-- A list of patterns whose elements may be left out. -/
theorem readsUpTo_patternList (hg : g.Sound source) {close : Punct} {misplaced : Cause}
    {element : Parser (Option Pattern)}
    (h : ReadsUpTo source element fun p => p.toList.map .pattern) :
    ReadsUpTo source (patternList g close misplaced element) fun list => list.map .pattern := by
  intro c s hs
  unfold patternList
  let read (list : List Pattern) (s' : ParseState) := Step source s s' ∧
    LaidAll source s'.faults s.token.span.start s'.token.span.start (list.map .pattern)
  let keeps (list : PatternList) := read list.read.reverse
  refine gives_iterate keeps _ ⟨.refl hs, .none (by omega)⟩ ?_
  rintro list s₁ ⟨⟨h₁, _, _, _, _, _⟩, laid⟩
  refine token_bind.mpr ?_
  split
  · exact gives_pure ⟨.of h₁ (by omega), laid⟩
  extract_lets element tail stop separator
  have element_gives (s₂ : ParseState) (reached : keeps list s₂) :
      (element ()).Gives c s₂ (After keeps read) := by
    obtain ⟨⟨h₂, _, _, _, _, _⟩, laid₂⟩ := reached
    refine start_bind.mpr (at_bind.mpr ?_)
    split
    · refine (reads_restPattern hg c s₂ h₂).bind fun p s₃ ⟨⟨h₃, _, _, _, _, _⟩, laid₃⟩ => ?_
      refine gives_pure ⟨.of h₃ (by omega), ?_⟩
      simpa using (laid₂.add laid₃ (by omega)).wide (by omega)
    · refine (h c s₂ h₂).bind fun p s₃ ⟨⟨h₃, _, _, _, _, _⟩, laid₃⟩ =>
        gives_pure ⟨.of h₃ (by omega), ?_⟩
      cases p <;> simpa using laid₂.add laid₃ (by omega)
  have tail_gives (s₂ : ParseState) (reached : keeps list s₂) :
      (tail ()).Gives c s₂ (After keeps read) := by
    unfold tail
    split
    · refine (notes_report _ _ c s₂).bind fun _ s₃ same => element_gives s₃ ?_
      obtain ⟨⟨h₂, _, _, _, _, _⟩, laid₂⟩ := reached
      obtain ⟨h₃, start, ended⟩ := same.after h₂
      exact ⟨.of h₃ (by omega), laid₂.wide (by omega)⟩
    · exact element_gives s₂ reached
  split
  · split
    · exact Gives.bind gives_fatal fun _ _ h => h
    · refine (passes_bump c s₁ h₁).bind fun _ s₂ ⟨⟨h₂, _, _, _, _, _⟩, _, _, _⟩ => at_bind.mpr ?_
      split
      · refine gives_noteIf (notes_report _ _) fun s₃ same => ?_
        obtain ⟨h₃, start, ended⟩ := same.after h₂
        exact gives_pure ⟨.of h₃ (by omega), laid.wide (by omega)⟩
      · exact tail_gives s₂ ⟨.of h₂ (by omega), laid.wide (by omega)⟩
  · exact tail_gives s₁ ⟨.of h₁ (by omega), laid⟩

theorem reads_bindingProperty (hg : g.Sound source) :
    Reads source (bindingProperty g) fun p => [.pattern p] := by
  intro c s hs
  unfold bindingProperty
  refine token_bind.mpr ?_
  refine (gives_propertyKey hg hs).bind
    fun key s₁ ⟨⟨⟨h₁, _, _, _, _, _⟩, _, passed, alone⟩, computed, word⟩ => ?_
  refine at_bind.mpr ?_
  extract_lets finish name
  have finish_gives (s₂ : ParseState) (value : Pattern) (step : Step source s₁ s₂)
      (laid : LaidAll source s₂.faults s.token.span.start s₂.previousEnd
        (key.computed.toList.map Node.part ++ [Node.pattern value])) :
      (finish value).Gives c s₂ fun p s' => Step source s s' ∧
        LaidAll source s'.faults s.token.span.start s'.previousEnd [.pattern p] := by
    obtain ⟨h₂, _, _, _, _, _⟩ := step
    exact spanFrom_bind.mpr
      (gives_pure (laid_between h₂ hs.start laid (by omega) ⟨id, rfl, by simp, rfl⟩))
  split
  · rename_i short
    -- The name is the token, which is a key without an expression.
    have isName : s.token.kind.isName = true := by
      simp_all
    obtain ⟨none, keyword, word⟩ := word (TokenKind.isWord_of_isName isName)
    have laid : LaidAll source s₁.faults s.token.span.start s₁.previousEnd [.pattern (.binding name)] :=
      laid_name ⟨.of h₁ (by omega), by omega, passed, alone⟩ hs rfl (hs.usable isName word alone)
    refine (gives_withDefault hg h₁ hs.start laid).bind fun value s₂ ⟨step, laid⟩ => ?_
    refine finish_gives s₂ value step ?_
    simpa [none] using laid
  · refine (passes_expect _ c s₁ h₁).bind fun _ s₂ ⟨⟨h₂, _, _, _, _, _⟩, _, _, _⟩ => ?_
    refine (reads_patternWithDefault hg c s₂ h₂).bind fun value s₃ ⟨⟨h₃, _, _, _, _, _⟩, laid⟩ => ?_
    exact finish_gives s₃ value (.of h₃ (by omega)) (computed.add laid (by omega))

theorem readsUpTo_bindingElement (hg : g.Sound source) :
    ReadsUpTo source (bindingElement g) fun p => p.toList.map .pattern := by
  intro c s hs
  unfold bindingElement
  refine at_bind.mpr ?_
  split
  · exact gives_pure ⟨.refl hs, .none (by omega)⟩
  · exact ((reads_patternWithDefault hg).upTo c s hs).bind fun p s₁ read => gives_pure read

/-- A list in which no element is left out. -/
theorem readsUpTo_some {element : Parser Pattern} (h : Reads source element fun p => [.pattern p]) :
    ReadsUpTo source (some <$> element) fun p => p.toList.map .pattern :=
  fun c s hs => (h.upTo c s hs).map fun _ _ read => read

/-- A pattern of a declaration is laid between its ends, and has text; it is a name, an array or an
object. -/
theorem gives_bindingPattern (hg : g.Sound source) (hs : s.Sound source) :
    (bindingPattern g).Gives c s fun p s' =>
      (Step source s s' ∧ LaidAll source s'.faults s.token.span.start s'.previousEnd [.pattern p]) ∧
        s.token.span.start < s'.previousEnd ∧ p.isCaught = true := by
  unfold bindingPattern
  refine token_bind.mpr ?_
  split
  · rename_i brace
    have text := hs.text (by rw [brace]; rfl)
    refine (passes_bump c s hs).bind fun _ s₁ ⟨⟨h₁, _, _, _, _, _⟩, _, _, _⟩ => ?_
    refine (readsUpTo_patternList hg (readsUpTo_some (reads_bindingProperty hg)) c s₁ h₁).bind
      fun list s₂ ⟨⟨h₂, _, _, _, _, _⟩, laid⟩ => ?_
    extract_lets close
    have close_gives : (close ()).Gives c s₂ fun p s' => (Step source s s' ∧
        LaidAll source s'.faults s.token.span.start s'.previousEnd [.pattern p]) ∧
          s.token.span.start < s'.previousEnd ∧ p.isCaught = true := by
      refine (passes_expect _ c s₂ h₂).bind fun _ s₃ ⟨⟨h₃, _, _, _, _, _⟩, _, _, _⟩ => ?_
      exact spanFrom_bind.mpr (gives_pure
        ⟨laid_between h₃ hs.start laid (by omega) ⟨id, rfl, by simp, rfl⟩, by omega, rfl⟩)
    split
    · exact close_gives
    · exact gives_fatal.bind fun _ _ h => h
    · exact close_gives
  · rename_i bracket
    have text := hs.text (by rw [bracket]; rfl)
    refine (passes_bump c s hs).bind fun _ s₁ ⟨⟨h₁, _, _, _, _, _⟩, _, _, _⟩ => ?_
    refine (readsUpTo_patternList hg (readsUpTo_bindingElement hg) c s₁ h₁).bind
      fun list s₂ ⟨⟨h₂, _, _, _, _, _⟩, laid⟩ => ?_
    refine (passes_expect _ c s₂ h₂).bind fun _ s₃ ⟨⟨h₃, _, _, _, _, _⟩, _, _, _⟩ => ?_
    exact spanFrom_bind.mpr (gives_pure
      ⟨laid_between h₃ hs.start laid (by omega) ⟨id, rfl, by simp, rfl⟩, by omega, rfl⟩)
  · refine (gives_bindingName hs).bind fun name s₁ ⟨moved, span, usable⟩ => ?_
    have passed := moved.passed
    have text := span ▸ usable.text
    exact gives_pure ⟨⟨moved.toStep, laid_name moved hs span usable⟩, by omega, rfl⟩

theorem reads_parameters (hg : g.Sound source) :
    Reads source (parameters g) fun list => list.map .pattern := by
  intro c s hs
  unfold parameters
  refine (passes_expect _ c s hs).bind fun _ s₁ ⟨⟨h₁, _, _, _, _, _⟩, _, _, _⟩ => ?_
  refine (readsUpTo_patternList hg (readsUpTo_some (reads_patternWithDefault hg)) c s₁ h₁).bind
    fun list s₂ ⟨⟨h₂, _, _, _, _, _⟩, laid⟩ => ?_
  refine (passes_expect _ c s₂ h₂).bind fun _ s₃ ⟨⟨h₃, _, _, _, _, _⟩, _, _, _⟩ => ?_
  exact gives_pure ⟨.of h₃ (by omega), laid.wide (by omega)⟩

end ModuleInterop.Syntax.Parser
