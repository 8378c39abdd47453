import ModuleInterop.Proofs.Syntax.Layout
import ModuleInterop.Proofs.Syntax.Lexer
import ModuleInterop.Syntax.Parser.Basic

/-!
# What parsers give

`Parser.Gives` says what holds of the result and of the state after a run that does not fail.  A
state is sound if its token and the text after it stand where they say; `Step` is the relation between
the states before and after a run, and `Moved` that at least the token was passed.  A run that goes on
in spite of a problem counts it (`ParseState.faults`).

Most productions are described by the nodes that they give: these are laid between the token at the
beginning and the end of the last token read (`Reads`), or, where nothing need be read, the token
after them (`ReadsUpTo`).
-/

set_option autoImplicit false

namespace ModuleInterop.Syntax

open ModuleInterop.Text

variable {source : List Char} {α β σ : Type} {c : Context} {s s' : ParseState}

/-! ## Runs -/

namespace Parser

/-- What holds of the result and of the state after a run that does not fail. -/
def Gives (p : Parser α) (c : Context) (s : ParseState) (post : α → ParseState → Prop) : Prop :=
  ∀ a s', p c s = .ok (a, s') → post a s'

theorem Gives.bind {p : Parser α} {f : α → Parser β} {mid : α → ParseState → Prop}
    {post : β → ParseState → Prop} (h : p.Gives c s mid)
    (next : ∀ a s', mid a s' → (f a).Gives c s' post) : (p >>= f).Gives c s post := by
  intro b after run
  change (p c s >>= fun r => f r.1 c r.2) = .ok (b, after) at run
  cases first : p c s with
  | error failure =>
    rw [first] at run
    contradiction
  | ok r =>
    rw [first] at run
    exact next r.1 r.2 (h _ _ first) _ _ run

theorem Gives.mono {p : Parser α} {post post' : α → ParseState → Prop} (h : p.Gives c s post)
    (weaker : ∀ a s', post a s' → post' a s') : p.Gives c s post' :=
  fun a s' run => weaker a s' (h a s' run)

theorem Gives.and {p : Parser α} {post post' : α → ParseState → Prop} (h : p.Gives c s post)
    (h' : p.Gives c s post') : p.Gives c s fun a s' => post a s' ∧ post' a s' :=
  fun a s' run => ⟨h a s' run, h' a s' run⟩

/-- Of a run of which nothing need be known. -/
theorem gives_any {p : Parser α} : p.Gives c s fun _ _ => True :=
  fun _ _ _ => trivial

theorem Gives.map {p : Parser α} {f : α → β} {mid : α → ParseState → Prop}
    {post : β → ParseState → Prop} (h : p.Gives c s mid)
    (next : ∀ a s', mid a s' → post (f a) s') : (f <$> p).Gives c s post := by
  intro b after run
  change (p c s >>= fun r => Except.ok (f r.1, r.2)) = .ok (b, after) at run
  cases first : p c s with
  | error failure =>
    rw [first] at run
    contradiction
  | ok r =>
    rw [first] at run
    obtain ⟨rfl, rfl⟩ := Prod.mk.inj (Except.ok.inj run)
    exact next r.1 r.2 (h _ _ first)

theorem gives_pure {a : α} {post : α → ParseState → Prop} (h : post a s) :
    (pure a : Parser α).Gives c s post := by
  intro b after run
  obtain ⟨rfl, rfl⟩ := Prod.mk.inj (Except.ok.inj run)
  exact h

theorem gives_throw {failure : Failure} {post : α → ParseState → Prop} :
    (throw failure : Parser α).Gives c s post := by
  intro b after run
  contradiction

theorem gives_fatal {cause : Cause} {offset : Nat} {post : α → ParseState → Prop} :
    (fatal cause offset : Parser α).Gives c s post := by
  intro b after run
  contradiction

theorem gives_missing {wanted : String} {post : α → ParseState → Prop} :
    (missing wanted : Parser α).Gives c s post := by
  intro b after run
  contradiction

/-! What only looks at the state leaves it as it is. -/

section Looking

variable {post : β → ParseState → Prop}

theorem pure_bind {a : α} {f : α → Parser β} :
    ((pure a : Parser α) >>= f).Gives c s post ↔ (f a).Gives c s post := Iff.rfl

theorem get_bind {f : ParseState → Parser β} :
    ((get : Parser ParseState) >>= f).Gives c s post ↔ (f s).Gives c s post := Iff.rfl

theorem read_bind {f : Context → Parser β} :
    (bind (ReaderT.read : Parser Context) f : Parser β).Gives c s post ↔ (f c).Gives c s post :=
  Iff.rfl

theorem token_bind {f : Token → Parser β} :
    (token >>= f).Gives c s post ↔ (f s.token).Gives c s post := Iff.rfl

theorem start_bind {f : Nat → Parser β} :
    (start >>= f).Gives c s post ↔ (f s.token.span.start).Gives c s post := Iff.rfl

theorem nextToken_bind {f : Token → Parser β} :
    (nextToken >>= f).Gives c s post ↔
      (f (ModuleInterop.Syntax.nextToken s.pos s.rest).token).Gives c s post := Iff.rfl

theorem spanFrom_bind {first : Nat} {f : Span → Parser β} :
    (spanFrom first >>= f).Gives c s post ↔ (f ⟨first, s.previousEnd⟩).Gives c s post := Iff.rfl

theorem at_bind {p : Punct} {f : Bool → Parser β} :
    (at_ p >>= f).Gives c s post ↔ (f (s.token.kind == .punct p)).Gives c s post := Iff.rfl

theorem atWord_bind {k : Keyword} {f : Bool → Parser β} :
    (atWord k >>= f).Gives c s post ↔ (f (isWord s.token k)).Gives c s post := Iff.rfl

theorem gives_withReader {p : Parser β} {change : Context → Context} :
    (withReader change p).Gives c s post ↔ p.Gives (change c) s post := Iff.rfl

end Looking

theorem gives_unexpected {post : α → ParseState → Prop} :
    (unexpected : Parser α).Gives c s post := by
  unfold unexpected
  refine get_bind.mpr ?_
  split
  · exact gives_throw
  · exact gives_throw
  · exact gives_fatal

end Parser

/-! ## Sound states -/

/-- The number of problems that have been met. -/
def ParseState.faults (s : ParseState) : Nat := s.lexical.length + s.problems.length

theorem TokenKind.isWord_of_isName {kind : TokenKind} (h : kind.isName = true) :
    kind.isWord = true := by
  cases kind with
  | word => rfl
  | _ => contradiction

theorem TokenKind.hasText_of_isWord {kind : TokenKind} (h : kind.isWord = true) :
    kind.hasText = true := by
  cases kind with
  | word => rfl
  | _ => contradiction

/-- The token and the text after it stand where a state says. -/
structure ParseState.Sound (source : List Char) (s : ParseState) : Prop where
  stands : LeftAt source s.pos s.rest
  ended : Boundary source s.previousEnd
  start : Boundary source s.token.span.start
  stop : s.token.span.stop = s.pos
  order : s.previousEnd ≤ s.token.span.start
  le : s.token.span.start ≤ s.token.span.stop
  text : s.token.kind.hasText = true → s.token.span.start < s.token.span.stop
  word : s.token.Spelled source
  parted : s.faults = 0 → PartedAt source s.pos s.rest
  seam : s.faults = 0 → s.token.kind.isWord = true → Seam source s.token.span.start
  wordEnd : s.token.kind.isWord = true → WordEnd source s.pos s.rest

/-- Reading has gone from one state to another one. -/
structure Step (source : List Char) (s s' : ParseState) : Prop where
  sound : s'.Sound source
  start_le : s.token.span.start ≤ s'.token.span.start
  end_le : s.previousEnd ≤ s'.previousEnd
  order : s'.previousEnd ≤ s'.token.span.start
  le : s'.token.span.start ≤ s'.token.span.stop
  faults_le : s.faults ≤ s'.faults

/-- Reading has passed the token. -/
structure Moved (source : List Char) (s s' : ParseState) : Prop extends Step source s s' where
  begun : s.token.span.start ≤ s'.previousEnd
  passed : s.token.span.stop ≤ s'.previousEnd
  alone : s'.faults = 0 → s.token.kind.isWord = true → s.token.span.Alone source

/-- Nothing has been read; problems and the like may have been noted. -/
structure ParseState.Same (s s' : ParseState) : Prop where
  token : s'.token = s.token
  ended : s'.previousEnd = s.previousEnd
  rest : s'.rest = s.rest
  pos : s'.pos = s.pos
  faults_le : s.faults ≤ s'.faults

namespace ParseState

theorem Sound.end_boundary (h : s.Sound source) : Boundary source s.token.span.stop :=
  h.stop ▸ h.stands.boundary

/-- A word that may be used as a name is one where it stands. -/
theorem Sound.usable (h : s.Sound source) (isName : s.token.kind.isName = true) {text : String}
    {keyword : Option Keyword} (word : s.token.kind = .word text keyword) {faults : Nat}
    (alone : faults = 0 → s.token.kind.isWord = true → s.token.span.Alone source) :
    Name.Usable source faults ⟨s.token.span, text⟩ := by
  obtain ⟨rfl, spells, -⟩ := h.word _ _ word
  have isWord := TokenKind.isWord_of_isName isName
  refine ⟨h.text (TokenKind.hasText_of_isWord isWord), spells, ?_, fun fine => alone fine isWord⟩
  rw [word] at isName
  show isReservedWord text = false
  unfold isReservedWord
  cases known : Keyword.ofText? text with
  | none => rfl
  | some k =>
    rw [known] at isName
    simpa [TokenKind.isName] using isName

/-- The problems of a token are added to those before. -/
theorem faults_adopt (s : ParseState) (lexed : Lexed) :
    (s.adopt lexed).faults = lexed.problems.length + s.faults := by
  simp [adopt, faults, Nat.add_assoc]

theorem Same.refl (s : ParseState) : s.Same s := ⟨rfl, rfl, rfl, rfl, Nat.le_refl _⟩

theorem Same.trans {s'' : ParseState} (h : s.Same s') (h' : s'.Same s'') : s.Same s'' :=
  ⟨h'.token.trans h.token, h'.ended.trans h.ended, h'.rest.trans h.rest, h'.pos.trans h.pos,
    Nat.le_trans h.faults_le h'.faults_le⟩

theorem Same.sound (h : s.Same s') (sound : s.Sound source) : s'.Sound source := by
  obtain ⟨token, ended, rest, pos, le⟩ := h
  obtain ⟨h1, h2, h3, h4, h5, h6, h7, h8, h9, h10, h11⟩ := sound
  have fine (none : s'.faults = 0) : s.faults = 0 := Nat.le_zero.mp (none ▸ le)
  constructor <;> simp_all

theorem Same.after (h : s.Same s') (sound : s.Sound source) : s'.Sound source ∧
    s'.token.span.start = s.token.span.start ∧ s'.previousEnd = s.previousEnd ∧
      s.faults ≤ s'.faults :=
  ⟨h.sound sound, by rw [h.token], h.ended, h.faults_le⟩

end ParseState

theorem Step.of (sound : s'.Sound source)
    (le : s.token.span.start ≤ s'.token.span.start ∧ s.previousEnd ≤ s'.previousEnd ∧
      s.faults ≤ s'.faults) :
    Step source s s' :=
  ⟨sound, le.1, le.2.1, sound.order, sound.le, le.2.2⟩

theorem Step.refl (sound : s.Sound source) : Step source s s :=
  .of sound ⟨Nat.le_refl _, Nat.le_refl _, Nat.le_refl _⟩

theorem Step.trans {s'' : ParseState} (h : Step source s s') (h' : Step source s' s'') :
    Step source s s'' :=
  .of h'.sound ⟨Nat.le_trans h.start_le h'.start_le, Nat.le_trans h.end_le h'.end_le,
    Nat.le_trans h.faults_le h'.faults_le⟩

theorem ParseState.Same.step (h : s.Same s') (sound : s.Sound source) : Step source s s' :=
  .of (h.sound sound) ⟨Nat.le_of_eq (by rw [h.token]), Nat.le_of_eq h.ended.symm, h.faults_le⟩

theorem ParseState.Same.moved {s₁ : ParseState} (h : s.Same s₁) (moved : Moved source s₁ s') :
    Moved source s s' := by
  obtain ⟨⟨sound, h1, h2, h3, h4, h5⟩, h6, h7, h8⟩ := moved
  rw [h.token] at h1 h6 h7 h8
  rw [h.ended] at h2
  exact ⟨⟨sound, h1, h2, h3, h4, Nat.le_trans h.faults_le h5⟩, h6, h7, h8⟩

/-- The token lies in what has been read. -/
theorem Moved.token_within (moved : Moved source s s') (hs : s.Sound source) :
    s.token.span.Within source s.token.span.start s'.previousEnd :=
  ⟨Nat.le_refl _, hs.le, moved.passed, hs.start, hs.end_boundary⟩

/-- What has been read since `first` becomes a node without pieces before its span. -/
theorem laid_between {first faults lo lo' hi : Nat} {node : Node} {nodes : List Node}
    (sound : s'.Sound source) (start : Boundary source first)
    (laid : LaidAll source faults lo' hi nodes)
    (le : (s.token.span.start ≤ s'.token.span.start ∧ s.previousEnd ≤ s'.previousEnd ∧
        s.faults ≤ s'.faults) ∧
      (lo ≤ first ∧ first ≤ s'.previousEnd ∧ s'.previousEnd ≤ s'.previousEnd) ∧
      lo ≤ lo' ∧ hi ≤ s'.previousEnd ∧ faults ≤ s'.faults)
    (shape : (Span.Within source lo s'.previousEnd ⟨first, s'.previousEnd⟩ →
        node.Fits source s'.faults lo s'.previousEnd) ∧
      node.frame lo s'.previousEnd = (lo, s'.previousEnd) ∧ node.inside = nodes ∧
      node.leading = []) :
    Step source s s' ∧ LaidAll source s'.faults lo s'.previousEnd [node] :=
  ⟨.of sound le.1, .plain (shape.1 (.between start sound.ended le.2.1)) (laid.wide le.2.2) shape.2⟩

/-- What has been read since `first` becomes a node whose pieces all lie in it. -/
theorem laid_from {first faults lo lo' hi : Nat} {node : Node} {nodes : List Node}
    (sound : s'.Sound source) (start : Boundary source first)
    (laid : LaidAll source faults lo' hi nodes)
    (le : (s.token.span.start ≤ s'.token.span.start ∧ s.previousEnd ≤ s'.previousEnd ∧
        s.faults ≤ s'.faults) ∧
      (lo ≤ first ∧ first ≤ s'.previousEnd ∧ s'.previousEnd ≤ s'.previousEnd) ∧
      first ≤ lo' ∧ hi ≤ s'.previousEnd ∧ faults ≤ s'.faults)
    (shape : (Span.Within source lo s'.previousEnd ⟨first, s'.previousEnd⟩ →
        node.Fits source s'.faults lo s'.previousEnd) ∧
      node.frame lo s'.previousEnd = (first, s'.previousEnd) ∧ node.inside = nodes ∧
      node.leading = []) :
    Step source s s' ∧ LaidAll source s'.faults lo s'.previousEnd [node] := by
  refine ⟨.of sound le.1, .of_fits (shape.1 (.between start sound.ended le.2.1)) ?_ shape.2.2⟩
  rw [shape.2.1]
  exact laid.wide le.2.2

/-- What has been read since `first` becomes a node without any pieces. -/
theorem laid_alone {first lo : Nat} {node : Node} (sound : s'.Sound source)
    (start : Boundary source first)
    (le : (s.token.span.start ≤ s'.token.span.start ∧ s.previousEnd ≤ s'.previousEnd ∧
        s.faults ≤ s'.faults) ∧ lo ≤ first ∧ first ≤ s'.previousEnd)
    (shape : (Span.Within source lo s'.previousEnd ⟨first, s'.previousEnd⟩ →
        node.Fits source s'.faults lo s'.previousEnd) ∧
      node.frame lo s'.previousEnd = (lo, s'.previousEnd) ∧ node.inside = [] ∧ node.leading = []) :
    Step source s s' ∧ LaidAll source s'.faults lo s'.previousEnd [node] :=
  laid_between sound start
    (show LaidAll source s'.faults s'.previousEnd s'.previousEnd [] from .none (Nat.le_refl _))
    (by omega) shape

/-- A parser gives nodes that are laid from the token on up to the end of the last token read. -/
def Reads (source : List Char) (p : Parser α) (nodes : α → List Node) : Prop :=
  ∀ c s, s.Sound source → p.Gives c s fun a s' =>
    Step source s s' ∧ LaidAll source s'.faults s.token.span.start s'.previousEnd (nodes a)

/-- A parser gives nodes that are laid from the token on up to the token after them. -/
def ReadsUpTo (source : List Char) (p : Parser α) (nodes : α → List Node) : Prop :=
  ∀ c s, s.Sound source → p.Gives c s fun a s' =>
    Step source s s' ∧ LaidAll source s'.faults s.token.span.start s'.token.span.start (nodes a)

/-- A parser goes on, whatever it gives. -/
def GoesOn (source : List Char) (p : Parser α) : Prop :=
  ∀ c s, s.Sound source → p.Gives c s fun _ s' => Step source s s'

/-- A parser passes at least one token. -/
def Passes (source : List Char) (p : Parser α) : Prop :=
  ∀ c s, s.Sound source → p.Gives c s fun _ s' => Moved source s s'

/-- A parser passes a token, or leaves the state as it is, and its answer tells which. -/
def MayPass (source : List Char) (p : Parser Bool) : Prop :=
  ∀ c s, s.Sound source → p.Gives c s fun b s' =>
    b = true ∧ Moved source s s' ∨ b = false ∧ s' = s

/-- A parser leaves the state as it is. -/
def Looks (p : Parser α) : Prop := ∀ c s, p.Gives c s fun _ s' => s' = s

/-- A parser may note something, but reads nothing. -/
def Notes (p : Parser α) : Prop := ∀ c s, p.Gives c s fun _ s' => s.Same s'

theorem Reads.upTo {p : Parser α} {nodes : α → List Node} (h : Reads source p nodes) :
    ReadsUpTo source p nodes := fun c s hs =>
  (h c s hs).mono fun _ _ ⟨step, laid⟩ => ⟨step, laid.mono (Nat.le_refl _) step.order⟩

/-- Other parameters of the grammar make no difference. -/
theorem Reads.withReader {p : Parser α} {nodes : α → List Node} (h : Reads source p nodes)
    (change : Context → Context) : Reads source (withReader change p) nodes :=
  fun c s hs => h (change c) s hs

theorem ReadsUpTo.withReader {p : Parser α} {nodes : α → List Node} (h : ReadsUpTo source p nodes)
    (change : Context → Context) : ReadsUpTo source (withReader change p) nodes :=
  fun c s hs => h (change c) s hs

theorem Notes.withReader {p : Parser α} (h : Notes p) (change : Context → Context) :
    Notes (withReader change p) := fun c s => h (change c) s

theorem Looks.bind {p : Parser α} {f : α → Parser β} {post : β → ParseState → Prop} (h : Looks p)
    (next : ∀ a, (f a).Gives c s post) : (p >>= f).Gives c s post :=
  (h c s).bind fun a _ same => same ▸ next a

theorem GoesOn.bind {p : Parser α} {f : α → Parser β} (h : GoesOn source p)
    (next : ∀ a, GoesOn source (f a)) : GoesOn source (p >>= f) := fun c s hs =>
  (h c s hs).bind fun a s₁ step =>
    (next a c s₁ step.sound).mono fun _ _ step' => step.trans step'

theorem GoesOn.reads {p : Parser α} {f : α → Parser β} {nodes : β → List Node}
    (h : GoesOn source p) (next : ∀ a, Reads source (f a) nodes) : Reads source (p >>= f) nodes :=
  fun c s hs => (h c s hs).bind fun a s₁ step =>
    (next a c s₁ step.sound).mono fun _ _ ⟨step', laid⟩ =>
      ⟨step.trans step', laid.wide ⟨step.start_le, Nat.le_refl _, Nat.le_refl _⟩⟩

theorem goesOn_pure (a : α) : GoesOn source (pure a : Parser α) := fun _ _ hs =>
  Parser.gives_pure (.refl hs)

theorem Passes.goesOn {p : Parser α} (h : Passes source p) : GoesOn source p := fun c s hs =>
  (h c s hs).mono fun _ _ moved => moved.toStep

theorem Reads.goesOn {p : Parser α} {nodes : α → List Node} (h : Reads source p nodes) :
    GoesOn source p := fun c s hs => (h c s hs).mono fun _ _ read => read.1

theorem MayPass.goesOn {p : Parser Bool} (h : MayPass source p) : GoesOn source p := by
  intro c s hs
  refine (h c s hs).mono fun b s' moved => ?_
  rcases moved with ⟨-, moved⟩ | ⟨-, rfl⟩
  · exact moved.toStep
  · exact .refl hs

namespace Parser

/-! ## Small parsers -/

theorem notes_modify {f : ParseState → ParseState} (h : ∀ s : ParseState, s.Same (f s)) :
    Notes (modify f : Parser Unit) := by
  intro c s b after run
  obtain ⟨rfl, rfl⟩ := Prod.mk.inj (Except.ok.inj run)
  exact h s

/-- A report counts as a fault. -/
theorem gives_report (cause : Cause) (offset : Nat) :
    (report cause offset).Gives c s fun _ s' => s.faults < s'.faults := by
  intro b after run
  obtain ⟨rfl, rfl⟩ := Prod.mk.inj (Except.ok.inj run)
  exact Nat.lt_succ_self _

theorem notes_report (cause : Cause) (offset : Nat) : Notes (report cause offset) :=
  notes_modify fun _ => ⟨rfl, rfl, rfl, rfl, Nat.le_succ _⟩

theorem passes_advance : Passes source advance := by
  intro c s hs b after run
  obtain ⟨rfl, rfl⟩ := Prod.mk.inj (Except.ok.inj run)
  have placed := placed_nextToken hs.stands
  have stop := hs.stop
  have le := hs.le
  have order := hs.order
  have next := placed.first_le
  have count := s.faults_adopt (ModuleInterop.Syntax.nextToken s.pos s.rest)
  have clean (fine : (s.adopt (ModuleInterop.Syntax.nextToken s.pos s.rest)).faults = 0) :
      s.faults = 0 ∧ (ModuleInterop.Syntax.nextToken s.pos s.rest).problems = [] :=
    ⟨by omega, List.eq_nil_of_length_eq_zero (by omega)⟩
  have blank : ∀ start, TriviaMode.blank ≠ .block start := by simp
  have sound : ParseState.Sound source
      { s.adopt (ModuleInterop.Syntax.nextToken s.pos s.rest) with previousEnd := s.token.span.stop } := by
    refine ⟨placed.stands, ?_, placed.start, placed.stop, ?_, placed.start_le, placed.text,
      spelled_nextToken hs.stands, fun fine => ?_, fun fine => ?_, wordEnd_tokenAfter hs.stands blank⟩
    · rw [stop]
      exact hs.stands.boundary
    · simp only [ParseState.adopt]
      omega
    · exact parted_tokenAfter hs.stands blank (clean fine).2
    · exact seam_tokenAfter hs.stands fun _ => hs.parted (clean fine).1
  refine ⟨⟨sound, ?_, ?_, ?_, placed.start_le, ?_⟩, le, Nat.le_refl _, fun fine word => ?_⟩
  · simp only [ParseState.adopt]
    omega
  · dsimp only
    omega
  · simp only [ParseState.adopt]
    omega
  · exact Nat.le.intro ((Nat.add_comm _ _).trans count.symm)
  · have ended := hs.wordEnd word
    have fine' := (clean fine).2
    rw [← stop] at ended fine'
    exact alone_of_seam (hs.seam (clean fine).1 word) le ended fine'

theorem passes_bump : Passes source bump := by
  intro c s hs
  unfold bump
  refine token_bind.mpr ?_
  split
  · split
    · refine (notes_report _ _ c s).bind fun _ s' same => ?_
      exact (passes_advance c s' (same.sound hs)).mono fun _ _ moved => same.moved moved
    · exact passes_advance c s hs
  · exact passes_advance c s hs

/-- A token that is a word of the grammar is spelled as a word. -/
theorem kind_of_isWord {current : Token} {k : Keyword} (h : isWord current k = true) :
    ∃ name, current.kind = .word name (some k) := by
  unfold isWord at h
  split at h
  case h_1 name keyword kind => exact ⟨name, by rw [kind, beq_iff_eq.mp h]⟩
  case h_2 => cases h

/-- A word of the grammar that has been passed stands in the text alone and as it is. -/
theorem gives_bump_keyword (hs : s.Sound source) {name : String} {k : Keyword}
    (word : s.token.kind = .word name (some k)) :
    bump.Gives c s fun _ s' => s'.faults = 0 → StandsAlone source s.token.span.start k.text.toList := by
  have isWord : s.token.kind.isWord = true := by rw [word]; rfl
  obtain ⟨known, -, shown⟩ := hs.word _ _ word
  obtain rfl : k.text = name := by
    simpa using List.find?_some (p := fun k : Keyword => k.text == name) known.symm
  unfold bump
  refine token_bind.mpr ?_
  simp only [word]
  split
  · refine ((notes_report _ _ c s).and (gives_report _ _)).bind fun _ s₁ ⟨same, met⟩ => ?_
    refine (passes_advance c s₁ (same.sound hs)).mono fun _ s' moved fine => ?_
    have later := moved.faults_le
    omega
  · rename_i plain
    refine (passes_advance c s hs).mono fun _ s' moved fine => ?_
    exact (moved.alone fine isWord).standsAlone (shown (Bool.eq_false_iff.mpr plain))

theorem mayPass_eat (p : Punct) : MayPass source (eat p) := by
  intro c s hs
  unfold eat
  refine at_bind.mpr ?_
  split
  · exact (passes_bump c s hs).bind fun _ _ moved => gives_pure (.inl ⟨rfl, moved⟩)
  · exact gives_pure (.inr ⟨rfl, rfl⟩)

theorem mayPass_eatWord (k : Keyword) : MayPass source (eatWord k) := by
  intro c s hs
  unfold eatWord
  refine atWord_bind.mpr ?_
  split
  · exact (passes_bump c s hs).bind fun _ _ moved => gives_pure (.inl ⟨rfl, moved⟩)
  · exact gives_pure (.inr ⟨rfl, rfl⟩)

theorem passes_expect (p : Punct) : Passes source (expect p) := by
  intro c s hs
  unfold expect
  refine at_bind.mpr ?_
  split
  · exact passes_bump c s hs
  · exact gives_missing

theorem passes_expectWord (k : Keyword) : Passes source (expectWord k) := by
  intro c s hs
  unfold expectWord
  refine atWord_bind.mpr ?_
  split
  · exact passes_bump c s hs
  · exact gives_missing

theorem looks_either {p q : Parser Bool} (hp : Looks p) (hq : Looks q) : Looks (p <||> q) :=
  fun c s => hp.bind fun b => by
    cases b with
    | true => exact gives_pure rfl
    | false => exact hq c s

theorem looks_at (p : Punct) : Looks (at_ p) := fun _ _ => at_bind.mpr (gives_pure rfl)

theorem looks_atWord (k : Keyword) : Looks (atWord k) := fun _ _ =>
  atWord_bind.mpr (gives_pure rfl)

theorem looks_canEndStatement : Looks canEndStatement := by
  intro c s
  unfold canEndStatement
  refine token_bind.mpr ?_
  split <;> exact gives_pure rfl

/-- Where a semicolon is left out nothing is read. -/
theorem goesOn_endStatement : GoesOn source endStatement := by
  intro c s hs
  unfold endStatement
  refine looks_canEndStatement.bind fun _ => ?_
  split
  · exact (mayPass_eat .semicolon).goesOn.bind (fun _ => goesOn_pure _) c s hs
  · exact get_bind.mpr gives_fatal

/-- Of a run whose effects are taken back only what it tells is left. -/
theorem gives_lookahead {p : Parser α} {post : α → ParseState → Prop} (h : p.Gives c s post) :
    (lookahead p).Gives c s fun a s' => s' = s ∧ ∃ later, post a later := by
  intro a after run
  unfold lookahead at run
  split at run
  · rename_i b later first
    obtain ⟨rfl, rfl⟩ := Prod.mk.inj (Except.ok.inj run)
    exact ⟨rfl, later, h _ _ first⟩
  · contradiction

/-- A run whose effects are taken back. -/
theorem looks_lookahead (p : Parser α) : Looks (lookahead p) := fun _ _ =>
  (gives_lookahead gives_any).mono fun _ _ h => h.1

/-- A run that is taken back if it fails. -/
theorem gives_attempt {p : Parser α} {post : Option α → ParseState → Prop}
    (succeeds : p.Gives c s fun a s' => post (some a) s')
    (fails : ∀ s', s.Same s' → post none s') : (attempt p).Gives c s post := by
  intro a after run
  unfold attempt at run
  split at run
  · rename_i b s' first
    obtain ⟨rfl, rfl⟩ := Prod.mk.inj (Except.ok.inj run)
    exact succeeds _ _ first
  · obtain ⟨rfl, rfl⟩ := Prod.mk.inj (Except.ok.inj run)
    exact fails _ ⟨rfl, rfl, rfl, rfl, Nat.le_refl _⟩

/-- What holds after one step of a loop: it goes on, or has a result. -/
abbrev After (keeps : σ → ParseState → Prop) (post : α → ParseState → Prop) :
    σ ⊕ α → ParseState → Prop
  | .inl x, s => keeps x s
  | .inr a, s => post a s

/-- A loop keeps what each of its steps keeps. -/
theorem gives_iterate {step : σ → Parser (σ ⊕ α)} {x : σ} (keeps : σ → ParseState → Prop)
    (post : α → ParseState → Prop) (init : keeps x s)
    (each : ∀ x s, keeps x s → (step x).Gives c s (After keeps post)) :
    (iterate step x).Gives c s post := by
  have loop (limit : Nat) : ∀ x s, keeps x s → (iterateFor step limit x).Gives c s post := by
    induction limit with
    | zero => exact fun _ _ _ => gives_unexpected
    | succ limit ih =>
      intro x s here
      refine (each x s here).bind fun r s' next => ?_
      cases r with
      | inl x => exact ih x s' next
      | inr a => exact gives_pure next
  exact get_bind.mpr (loop _ x s init)

/-- A note that is made only sometimes. -/
theorem gives_noteIf {b : Prop} [Decidable b] {p : Parser Unit} {next : Unit → Parser β}
    {post : β → ParseState → Prop} (notes : Notes p)
    (h : ∀ s', s.Same s' → (next ()).Gives c s' post) :
    (if b then p >>= next else next ()).Gives c s post := by
  split
  · exact (notes c s).bind fun _ => h
  · exact h s (.refl s)

/-- Past a token stands the one that follows it. -/
theorem gives_advance_next : advance.Gives c s fun _ s' =>
    s'.token = (ModuleInterop.Syntax.nextToken s.pos s.rest).token := by
  intro b after run
  obtain ⟨rfl, rfl⟩ := Prod.mk.inj (Except.ok.inj run)
  rfl

theorem gives_bump_next : bump.Gives c s fun _ s' =>
    s'.token = (ModuleInterop.Syntax.nextToken s.pos s.rest).token := by
  unfold bump
  refine token_bind.mpr ?_
  split
  · refine gives_noteIf (notes_report _ _) fun s₁ same => ?_
    rw [← same.pos, ← same.rest]
    exact gives_advance_next
  · exact gives_advance_next

/-- What must not be the case. -/
theorem gives_failIf {b : Prop} [Decidable b] {cause : Cause} {offset : Nat}
    {next : Unit → Parser β} {post : β → ParseState → Prop}
    (h : ¬b → (next ()).Gives c s post) :
    (if b then fatal cause offset >>= next else next ()).Gives c s post := by
  split
  · exact gives_fatal.bind fun _ _ h => h
  · exact h (by assumption)

/-- Either of two runs, and what follows both of them. -/
theorem gives_either {b : Prop} [Decidable b] {p q : Parser α} {next : α → Parser β}
    (mid : α → ParseState → Prop) {post : β → ParseState → Prop} (yes : p.Gives c s mid)
    (no : q.Gives c s mid) (h : ∀ a s', mid a s' → (next a).Gives c s' post) :
    (if b then p >>= next else q >>= next).Gives c s post := by
  split
  · exact yes.bind h
  · exact no.bind h

/-! What is read only sometimes. -/

section Optional

variable {p : Parser α} {node : α → Node}

theorem gives_some (h : Reads source p fun a => [node a]) (hs : s.Sound source) :
    (some <$> p).Gives c s fun o s' => Step source s s' ∧
      LaidAll source s'.faults s.previousEnd s'.previousEnd (o.toList.map node) :=
  (h c s hs).map fun _ _ ⟨step, laid⟩ => ⟨step, laid.wide ⟨hs.order, Nat.le_refl _, Nat.le_refl _⟩⟩

theorem gives_none (hs : s.Sound source) :
    (pure none : Parser (Option α)).Gives c s fun o s' => Step source s s' ∧
      LaidAll source s'.faults s.previousEnd s'.previousEnd (o.toList.map node) :=
  gives_pure ⟨.refl hs, .none (by omega)⟩

variable {b : Prop} [Decidable b] {next : Option α → Parser β} {post : β → ParseState → Prop}
  (h : Reads source p fun a => [node a]) (hs : s.Sound source)
  (next_gives : ∀ o s', Step source s s' ∧
    LaidAll source s'.faults s.previousEnd s'.previousEnd (o.toList.map node) → (next o).Gives c s' post)

include h hs next_gives

theorem gives_optional :
    (if b then (some <$> p) >>= next else pure none >>= next).Gives c s post :=
  gives_either _ (gives_some h hs) (gives_none hs) next_gives

theorem gives_optionalUnless :
    (if b then pure none >>= next else (some <$> p) >>= next).Gives c s post :=
  gives_either _ (gives_none hs) (gives_some h hs) next_gives

end Optional

theorem notes_forM {f : α → Parser Unit} (h : ∀ a, Notes (f a)) (list : List α) :
    Notes (list.forM f) := by
  intro c s
  induction list generalizing s with
  | nil => exact gives_pure (.refl s)
  | cons a list ih =>
    refine (h a c s).bind fun _ s₁ same => ?_
    exact (ih s₁).mono fun _ _ same' => same.trans same'

/-! ## Names and lists -/

theorem notes_checkName (current : Token) : Notes (checkName current) := by
  intro c s
  unfold checkName
  refine read_bind.mpr ?_
  split
  · exact notes_report _ _ c s
  · split
    · exact notes_report _ _ c s
    · exact gives_pure (.refl s)

/-- A word is passed. -/
theorem gives_wordText (hs : s.Sound source) :
    wordText.Gives c s fun name s' => Moved source s s' ∧ name.span = s.token.span ∧
      ∃ keyword, s.token.kind = .word name.text keyword := by
  unfold wordText
  refine token_bind.mpr ?_
  split
  · rename_i word
    exact (passes_advance c s hs).bind fun _ s' moved => gives_pure ⟨moved, rfl, _, word⟩
  · exact gives_unexpected

theorem passes_wordText : Passes source wordText := fun _ _ hs =>
  (gives_wordText hs).mono fun _ _ h => h.1

/-- A word that may be used as a name, after something may have been noted. -/
theorem gives_usableWord {s₁ : ParseState} (hs : s.Sound source)
    (isName : s.token.kind.isName = true) (same : s.Same s₁) :
    wordText.Gives c s₁ fun name s' =>
      Moved source s s' ∧ name.span = s.token.span ∧ name.Usable source s'.faults := by
  refine (gives_wordText (same.sound hs)).mono fun name s₂ ⟨moved, span, keyword, word⟩ => ?_
  rw [same.token] at span word
  have usable := hs.usable isName word (same.moved moved).alone
  rw [← span] at usable
  exact ⟨same.moved moved, span, usable⟩

/-- A word that is checked as a name. -/
theorem gives_checkedWord (hs : s.Sound source) (isName : s.token.kind.isName = true)
    (current : Token) :
    Gives (do checkName current; wordText) c s fun name s' =>
      Moved source s s' ∧ name.span = s.token.span ∧ name.Usable source s'.faults :=
  (notes_checkName _ c s).bind fun _ _ same => gives_usableWord hs isName same

theorem gives_bindingName (hs : s.Sound source) :
    bindingName.Gives c s fun name s' =>
      Moved source s s' ∧ name.span = s.token.span ∧ name.Usable source s'.faults := by
  unfold bindingName
  refine token_bind.mpr ?_
  split
  · rename_i isName
    exact gives_checkedWord hs isName _
  · split
    · exact gives_fatal
    · exact gives_unexpected

/-- A name that stands where the token is, as a pattern. -/
theorem laid_name (moved : Moved source s s') (hs : s.Sound source) {name : Name}
    (span : name.span = s.token.span) (usable : name.Usable source s'.faults) :
    LaidAll source s'.faults s.token.span.start s'.previousEnd [.pattern (.binding name)] := by
  have within : name.span.Within source s.token.span.start s'.previousEnd :=
    span ▸ moved.token_within hs
  exact .plain ⟨within, usable⟩ (.none moved.begun) ⟨rfl, rfl, rfl⟩

/-- A name that is bound, as a pattern. -/
theorem reads_bindingName : Reads source bindingName fun name => [.pattern (.binding name)] := by
  intro c s hs
  refine (gives_bindingName hs).mono fun name s₁ ⟨moved, span, usable⟩ => ?_
  exact ⟨moved.toStep, laid_name moved hs span usable⟩

theorem reads_reference : Reads source reference fun e => [.part e] := by
  intro c s hs
  unfold reference
  refine token_bind.mpr ?_
  split
  · rename_i isName
    refine (notes_checkName _ c s).bind fun _ s₁ same => ?_
    refine (gives_usableWord hs isName same).bind fun name s₂ ⟨moved, span, usable⟩ => ?_
    have laid := laid_name moved hs span usable
    exact gives_pure ⟨moved.toStep, .leaf laid.head.fits ⟨rfl, rfl⟩⟩
  · exact gives_unexpected

theorem passes_stringLiteral : Passes source stringLiteral := by
  intro c s hs
  unfold stringLiteral
  refine token_bind.mpr ?_
  split
  · exact (passes_advance c s hs).bind fun _ _ moved => gives_pure moved
  · exact gives_unexpected

/-- A list with commas.  If each element ends with the last token read, so does a list that is not
empty. -/
theorem gives_delimited {close : Punct} {element : Parser α} {nodes : α → List Node} (tight : Prop)
    (h : ∀ c s, s.Sound source → element.Gives c s fun a s' => Step source s s' ∧
      LaidAll source s'.faults s.token.span.start s'.token.span.start (nodes a) ∧
      (tight → LaidAll source s'.faults s.token.span.start s'.previousEnd (nodes a))) (hs : s.Sound source) :
    (delimited close element).Gives c s fun r s' => Step source s s' ∧
      LaidAll source s'.faults s.token.span.start s'.token.span.start (r.1.flatMap nodes) ∧
      (tight → r.1 = [] ∨ LaidAll source s'.faults s.token.span.start s'.previousEnd (r.1.flatMap nodes)) :=
        by
  unfold delimited
  refine token_bind.mpr ?_
  split
  · exact gives_pure ⟨.refl hs, .none (by omega), fun _ => .inl rfl⟩
  · refine gives_iterate (fun read s' => Step source s s' ∧
      LaidAll source s'.faults s.token.span.start s'.token.span.start (read.reverse.flatMap nodes)) _
      ⟨.refl hs, .none (by omega)⟩ ?_
    rintro read s₁ ⟨⟨h₁, _, _, _, _, _⟩, laid₁⟩
    refine (h c s₁ h₁).bind fun a s₂ ⟨⟨h₂, _, _, _, _, _⟩, laid₂, ended⟩ => ?_
    have laid : LaidAll source s₂.faults s.token.span.start s₂.token.span.start
        ((a :: read).reverse.flatMap nodes) := by
      simpa using laid₁.add laid₂ (by omega)
    refine token_bind.mpr ?_
    split
    · refine gives_pure ⟨.of h₂ (by omega), laid, fun isTight => .inr ?_⟩
      simpa using laid₁.add (ended isTight) (by omega)
    · split
      · refine (passes_bump c s₂ h₂).bind fun _ s₃ ⟨⟨h₃, _, _, _, _, _⟩, _, _, _⟩ => ?_
        refine at_bind.mpr ?_
        split
        · exact gives_pure ⟨.of h₃ (by omega), laid.wide (by omega), fun _ => .inr
            (laid.wide (by omega))⟩
        · exact gives_pure ⟨.of h₃ (by omega), laid.wide (by omega)⟩
      · exact gives_fatal

theorem readsUpTo_delimited {close : Punct} {element : Parser α} (node : α → Node)
    (h : ReadsUpTo source element fun a => [node a]) :
    ReadsUpTo source (delimited close element) fun r => r.1.map node := by
  intro c s hs
  have element_gives (c : Context) (s : ParseState) (hs : s.Sound source) :
      element.Gives c s fun a s' => Step source s s' ∧
        LaidAll source s'.faults s.token.span.start s'.token.span.start [node a] ∧
        (False → LaidAll source s'.faults s.token.span.start s'.previousEnd [node a]) :=
    (h c s hs).mono fun _ _ ⟨step, laid⟩ => ⟨step, laid, False.elim⟩
  refine (gives_delimited False element_gives hs).mono fun r s' ⟨step, laid, _⟩ => ⟨step, ?_⟩
  rw [← List.map_eq_flatMap] at laid
  exact laid

theorem readsUpTo_sequence {element : Parser α} {node : α → Node}
    (h : ReadsUpTo source element fun a => [node a]) :
    ReadsUpTo source (sequence element) fun list => list.map node := by
  intro c s hs
  unfold sequence
  let keeps (read : List α) (s' : ParseState) := Step source s s' ∧
    LaidAll source s'.faults s.token.span.start s'.token.span.start (read.reverse.map node)
  refine gives_iterate keeps _ ⟨.refl hs, .none (by omega)⟩ ?_
  rintro read s₁ ⟨⟨h₁, _, _, _, _, _⟩, laid₁⟩
  refine token_bind.mpr ?_
  split
  · exact gives_pure ⟨.of h₁ (by omega), laid₁⟩
  · refine (h c s₁ h₁).bind fun a s₂ ⟨⟨h₂, _, _, _, _, _⟩, laid₂⟩ => gives_pure ⟨.of h₂ (by omega), ?_⟩
    simpa using laid₁.add laid₂ (by omega)

end Parser

/-- The productions that are called back give laid nodes. -/
structure Grammar.Sound (source : List Char) (g : Grammar) : Prop where
  assignment : Reads source g.assignment fun e => [.part e]
  unary : Reads source g.unary fun e => [.part e]
  binary : ∀ level, Reads source (g.binary level) fun e => [.part e]
  member : Reads source g.member fun r => [.part r.1]
  operand : Reads source g.operand fun e => [.part e]
  pattern : ∀ c s, s.Sound source → g.pattern.Gives c s fun p s' =>
    (Step source s s' ∧ LaidAll source s'.faults s.token.span.start s'.previousEnd [.pattern p]) ∧
      s.token.span.start < s'.previousEnd ∧ p.isCaught = true
  statement : ∀ inList, Reads source (g.statement inList) fun s => [.listed s]

end ModuleInterop.Syntax
