import ModuleInterop.Proofs.Scope.Receive
import ModuleInterop.Proofs.Syntax.Parser.Module
import ModuleInterop.Proofs.Usage.Place

/-!
# Positions of names, and the variables that receive a value

The names of a module occur in the order of the text, and those of the uses that are variables with
the value of a call of `require` are declared in that order, too (`exists_tally`).  Both are shown
for all pieces of syntax at once, since a piece that is laid in an interval of the text has its names
there (`Tally`, `Tallies`).

There may be uses where nothing occurs: what is stored to, but is neither a name nor a member, is not
looked at for names.  Hence only those variables count whose names are declared among the occurrences.
-/

set_option autoImplicit false

namespace ModuleInterop.Usage

open ModuleInterop.Syntax ModuleInterop.Scope

/-- The variable that receives the value of a call. -/
def Use.receiver? : Use → Option String
  | .requiredVariable _ text _ => some text
  | _ => none

/-- The variables that receive the value of a call. -/
def receivers (uses : List Use) : List String := uses.filterMap Use.receiver?

/-- The variables that receive the value of a call, with their spans. -/
def stretches (uses : List Use) : List (Span × String) :=
  uses.filterMap fun
    | .requiredVariable span text _ => some (span, text)
    | _ => none

theorem receivers_eq (uses : List Use) : receivers uses = (stretches uses).map Prod.snd := by
  induction uses with
  | nil => rfl
  | cons use uses ih =>
    have others : receivers (use :: uses) = use.receiver?.toList ++ receivers uses := by
      unfold receivers
      cases here : use.receiver? <;> simp [here]
    rw [others, ih]
    cases use <;> rfl

/-- Where no variable receives a value, there is no stretch of one. -/
theorem stretches_eq_nil {uses : List Use} (none : receivers uses = []) : stretches uses = [] := by
  rw [receivers_eq] at none
  exact List.map_eq_nil_iff.mp none

@[simp] theorem stretches_append (uses others : List Use) :
    stretches (uses ++ others) = stretches uses ++ stretches others := by
  simp [stretches]

@[simp] theorem receivers_append (uses others : List Use) :
    receivers (uses ++ others) = receivers uses ++ receivers others := by
  simp [receivers]

theorem receivers_usesOfName (context : Context) (span : Span) (text : String) (shorthand : Bool) :
    receivers (usesOfName context span text shorthand) = [] := by
  apply List.filterMap_eq_nil_iff.mpr
  intro use mem
  obtain ⟨name, -, -, rfl⟩ := mem_usesOfName.mp mem
  rfl

theorem receivers_usesOfSpecifiers (context : Context) (specifiers : List ExportSpecifier) :
    receivers (usesOfSpecifiers context specifiers) = [] := by
  induction specifiers with
  | nil => rfl
  | cons s specifiers ih =>
    have here : receivers (if s.inner.isString then [] else
        usesOfName context s.inner.span s.inner.text false) = [] := by
      split
      · rfl
      · exact receivers_usesOfName _ _ _ _
    show receivers (_ ++ usesOfSpecifiers context specifiers) = []
    rw [receivers_append, here, ih, List.append_nil]

/-- The call of a required module is one reference. -/
theorem ofExpr_of_requireCall {bindings : Bindings} {ignored : List String} {e : Expr}
    {call : RequireCall} (h : requireCall? bindings ignored e = some call) :
    ∃ offset text, ofExpr e = [.refer offset text false] ∧
      call.scope = bindings.scopeAt offset ∧ bindings.isFreeAt offset = true := by
  obtain ⟨callee, argument, rfl, fixed, -, scope, free⟩ := requireCall?_eq_some h
  refine ⟨callee.start, "require", ?_, scope, free⟩
  have still : ofExpr argument = [] := by
    unfold fixedText? at fixed
    split at fixed
    · simp [ofExpr]
    · simp [ofExpr, ofExprs]
    · contradiction
  simp [ofExpr, ofExprs, still]

end ModuleInterop.Usage

namespace ModuleInterop.Syntax

/-- What surrounds nodes does not change where they are. -/
theorem LaidAll.of_bare {source : List Char} {lo hi : Nat} {nodes : List Node}
    (h : LaidAll source 0 lo hi (nodes.map Node.bare)) : LaidAll source 0 lo hi nodes := by
  induction nodes generalizing lo with
  | nil => exact h
  | cons node nodes ih =>
    cases h with
    | cons first others => exact .cons first.of_bare (ih others)

end ModuleInterop.Syntax

namespace ModuleInterop.Usage

open ModuleInterop.Syntax ModuleInterop.Scope

/-- The span of a variable that receives a value lies in an interval, and among the occurrences there no
other name is declared in it, and none is referred to that has a declaration. -/
structure Stretch (bindings : Bindings) (lo hi : Nat) (occurrences : List Occurrence)
    (names : List Name) (s : Span × String) : Prop where
  low : lo ≤ s.1.start
  high : s.1.stop ≤ hi
  name : ∃ name ∈ names, name.text = s.2 ∧ s.1.start ≤ name.span.start ∧
    name.span.start < s.1.stop ∧ ∀ n ∈ declaredOffsets occurrences,
      s.1.start ≤ n → n < s.1.stop → n = name.span.start
  free : ∀ n ∈ referredOffsets occurrences, s.1.start ≤ n → n < s.1.stop →
    bindings.isFreeAt n = true

/-- What is known of the occurrences and the uses in a piece of syntax that is laid in an interval:
the names that occur stand there in order, and so do the names of the variables that receive a value,
which are declared with a reference right after them unless they do not occur. -/
structure Tally (bindings : Bindings) (lo hi : Nat) (occurrences : List Occurrence)
    (uses : List Use) (names : List Name) : Prop where
  ascending : Ascending lo hi (offsets occurrences)
  texts : receivers uses = names.map Name.text
  within : ∀ name ∈ names, lo ≤ name.span.start ∧ name.span.start < hi
  constant : ∀ name ∈ names, bindings.isConstantAt name.span.start = true
  receives : Receives bindings occurrences
    (names.filter fun name => (declaredOffsets occurrences).contains name.span.start)
  stretches : ∀ s ∈ stretches uses, Stretch bindings lo hi occurrences names s

namespace Tally

variable {bindings : Bindings} {lo mid hi lo' hi' : Nat} {occurrences others : List Occurrence}
  {uses uses' : List Use} {names names' : List Name}

/-- Where no variable receives a value, only the positions count. -/
theorem of_ascending (h : Ascending lo hi (offsets occurrences)) (none : receivers uses = []) :
    Tally bindings lo hi occurrences uses [] :=
  ⟨h, none, by simp, by simp, .none _, by simp [stretches_eq_nil none]⟩

theorem mono (h : Tally bindings lo hi occurrences uses names) (low : lo' ≤ lo) (high : hi ≤ hi') :
    Tally bindings lo' hi' occurrences uses names :=
  { h with
    ascending := h.ascending.mono low high
    within := fun name mem => ⟨Nat.le_trans low (h.within name mem).1,
      Nat.lt_of_lt_of_le (h.within name mem).2 high⟩
    stretches := fun s mem => { h.stretches s mem with
      low := Nat.le_trans low (h.stretches s mem).low
      high := Nat.le_trans (h.stretches s mem).high high } }

theorem declared_within (h : Tally bindings lo hi occurrences uses names) {n : Nat}
    (mem : n ∈ declaredOffsets occurrences) : lo ≤ n ∧ n < hi :=
  h.ascending.within n ((declaredOffsets_sublist occurrences).subset mem)

theorem referred_within (h : Tally bindings lo hi occurrences uses names) {n : Nat}
    (mem : n ∈ referredOffsets occurrences) : lo ≤ n ∧ n < hi :=
  h.ascending.within n ((referredOffsets_sublist occurrences).subset mem)

/-- **Pieces that follow one another.**  A name in one of them is not declared in the other. -/
theorem append (h : Tally bindings lo mid occurrences uses names)
    (h' : Tally bindings mid hi others uses' names') (low : lo ≤ mid) (high : mid ≤ hi) :
    Tally bindings lo hi (occurrences ++ others) (uses ++ uses') (names ++ names') := by
  have first : (names.filter fun name =>
      (declaredOffsets (occurrences ++ others)).contains name.span.start) =
      names.filter fun name => (declaredOffsets occurrences).contains name.span.start := by
    apply List.filter_congr
    intro name mem
    have here := h.within name mem
    have elsewhere : name.span.start ∉ declaredOffsets others := fun mem' => by
      have := h'.declared_within mem'
      omega
    simp [elsewhere]
  have second : (names'.filter fun name =>
      (declaredOffsets (occurrences ++ others)).contains name.span.start) =
      names'.filter fun name => (declaredOffsets others).contains name.span.start := by
    apply List.filter_congr
    intro name mem
    have here := h'.within name mem
    have elsewhere : name.span.start ∉ declaredOffsets occurrences := fun mem' => by
      have := h.declared_within mem'
      omega
    simp [elsewhere]
  constructor
  · rw [offsets_append]
    exact h.ascending.append h'.ascending low high
  · rw [receivers_append, h.texts, h'.texts, List.map_append]
  · exact List.forall_mem_append.mpr ⟨(h.mono (Nat.le_refl _) high).within,
      (h'.mono low (Nat.le_refl _)).within⟩
  · exact List.forall_mem_append.mpr ⟨h.constant, h'.constant⟩
  · rw [List.filter_append, first, second]
    exact h.receives.append h'.receives
  · rw [stretches_append]
    refine List.forall_mem_append.mpr ⟨fun s mem => ?_, fun s mem => ?_⟩
    · obtain ⟨le, le', ⟨name, named, same, begins, ends, only⟩, free⟩ := h.stretches s mem
      refine ⟨le, Nat.le_trans le' high,
        ⟨name, List.mem_append_left _ named, same, begins, ends, ?_⟩, ?_⟩
      · intro n mem' start stop
        rw [declaredOffsets_append] at mem'
        rcases List.mem_append.mp mem' with mem' | mem'
        · exact only n mem' start stop
        · have := h'.declared_within mem'
          omega
      · intro n mem' start stop
        rw [referredOffsets_append] at mem'
        rcases List.mem_append.mp mem' with mem' | mem'
        · exact free n mem' start stop
        · have := h'.referred_within mem'
          omega
    · obtain ⟨le, le', ⟨name, named, same, begins, ends, only⟩, free⟩ := h'.stretches s mem
      refine ⟨Nat.le_trans low le, le',
        ⟨name, List.mem_append_right _ named, same, begins, ends, ?_⟩, ?_⟩
      · intro n mem' start stop
        rw [declaredOffsets_append] at mem'
        rcases List.mem_append.mp mem' with mem' | mem'
        · have := h.declared_within mem'
          omega
        · exact only n mem' start stop
      · intro n mem' start stop
        rw [referredOffsets_append] at mem'
        rcases List.mem_append.mp mem' with mem' | mem'
        · have := h.referred_within mem'
          omega
        · exact free n mem' start stop

/-- A scope has the names that occur in it. -/
theorem scope (h : Tally bindings lo hi occurrences uses names) (holdsVars : Bool) :
    Tally bindings lo hi (enclosed holdsVars occurrences) uses names := by
  constructor
  · rw [offsets_enclosed]
    exact h.ascending
  · exact h.texts
  · exact h.within
  · exact h.constant
  · rw [declaredOffsets_enclosed]
    exact h.receives.enclosed holdsVars
  · intro s mem
    obtain ⟨low, high, name, free⟩ := h.stretches s mem
    refine ⟨low, high, by simpa using name, fun n mem' => free n ?_⟩
    simpa [referredOffsets, enclosed, Occurrence.referred?] using mem'

end Tally

/-- The occurrences and the uses in pieces of syntax tally wherever the pieces are laid. -/
def Tallies (bindings : Bindings) (nodes : List Node) (occurrences : List Occurrence)
    (uses : List Use) : Prop :=
  ∀ ⦃source : List Char⦄ ⦃lo hi : Nat⦄, LaidAll source 0 lo hi nodes →
    ∃ names, Tally bindings lo hi occurrences uses names

namespace Tallies

variable {bindings : Bindings} {node : Node} {nodes nodes' nodes'' : List Node}
  {occurrences others : List Occurrence} {uses uses' : List Use}

/-- Nothing that has a position. -/
theorem silent (still : offsets occurrences = []) (none : receivers uses = []) :
    Tallies bindings nodes occurrences uses := by
  intro source lo hi _
  refine ⟨[], .of_ascending ?_ none⟩
  rw [still]
  exact .nil

theorem nil : Tallies bindings nodes [] [] := silent rfl rfl

theorem append (h : Tallies bindings nodes occurrences uses)
    (h' : Tallies bindings nodes' others uses') :
    Tallies bindings (nodes ++ nodes') (occurrences ++ others) (uses ++ uses') := by
  intro source lo hi laid
  obtain ⟨mid, first, second⟩ := laid.exists_mid
  obtain ⟨names, tally⟩ := h first
  obtain ⟨names', tally'⟩ := h' second
  exact ⟨names ++ names', tally.append tally' first.le second.le⟩

theorem scope (holdsVars : Bool) (h : Tallies bindings nodes occurrences uses) :
    Tallies bindings nodes (enclosed holdsVars occurrences) uses := by
  intro source lo hi laid
  obtain ⟨names, tally⟩ := h laid
  exact ⟨names, tally.scope holdsVars⟩

/-- The end of the parameters of a function. -/
theorem settled (h : Tallies bindings nodes occurrences uses) :
    Tallies bindings nodes (occurrences ++ [.settle]) uses := by
  have same : offsets (occurrences ++ [.settle]) = offsets occurrences := by
    rw [offsets_append]
    exact List.append_nil _
  have same' : declaredOffsets (occurrences ++ [.settle]) = declaredOffsets occurrences := by
    rw [declaredOffsets_append]
    exact List.append_nil _
  have same'' : referredOffsets (occurrences ++ [.settle]) = referredOffsets occurrences := by
    rw [referredOffsets_append]
    exact List.append_nil _
  intro source lo hi laid
  obtain ⟨names, tally⟩ := h laid
  have receives := tally.receives.append (.none [.settle])
  rw [List.append_nil] at receives
  refine ⟨names, same ▸ tally.ascending, tally.texts, tally.within, tally.constant,
    same' ▸ receives, fun s mem => ?_⟩
  obtain ⟨low, high, name, free⟩ := tally.stretches s mem
  exact ⟨low, high, same' ▸ name, same'' ▸ free⟩

/-- The uses are left out. -/
theorem mute (h : Tallies bindings nodes occurrences uses) (none : receivers uses' = []) :
    Tallies bindings nodes occurrences uses' := by
  intro source lo hi laid
  obtain ⟨names, tally⟩ := h laid
  exact ⟨[], .of_ascending tally.ascending none⟩

/-- The uses in a branch that may be left out. -/
theorem branch {condition : Prop} [Decidable condition]
    (h : Tallies bindings nodes occurrences uses) :
    Tallies bindings nodes occurrences (if condition then [] else uses) := by
  split
  · exact h.mute rfl
  · exact h

/-- The occurrences are left out. -/
theorem ghost (h : Tallies bindings nodes occurrences uses) : Tallies bindings nodes [] uses := by
  intro source lo hi laid
  obtain ⟨names, tally⟩ := h laid
  refine ⟨names, .nil, tally.texts, tally.within, tally.constant, ?_, fun s mem => ?_⟩
  · have none : (names.filter fun name => (declaredOffsets []).contains name.span.start) = [] := by
      simp [declaredOffsets]
    rw [none]
    exact .nil
  · obtain ⟨low, high, ⟨name, named, same, begins, ends, -⟩, -⟩ := tally.stretches s mem
    exact ⟨low, high, ⟨name, named, same, begins, ends, fun _ mem =>
      absurd mem List.not_mem_nil⟩, fun _ mem => absurd mem List.not_mem_nil⟩

/-- Other uses with the same variables. -/
theorem congr (h : Tallies bindings nodes occurrences uses) (same : stretches uses' = stretches uses) :
    Tallies bindings nodes occurrences uses' := by
  intro source lo hi laid
  obtain ⟨names, tally⟩ := h laid
  refine ⟨names, { tally with texts := ?_, stretches := same ▸ tally.stretches }⟩
  rw [receivers_eq, same, ← receivers_eq]
  exact tally.texts

/-- A node has what its pieces have. -/
theorem pieces (h : Tallies bindings node.pieces occurrences uses) :
    Tallies bindings [node] occurrences uses := by
  intro source lo hi laid
  obtain ⟨low, high⟩ := laid.head.fits.frame_within
  exact h (laid.head.pieces.mono (Nat.le_refl _) high)

/-- A node has what its parts have. -/
theorem parts (h : Tallies bindings (node.parts fun _ => none) occurrences uses) :
    Tallies bindings [node] occurrences uses := by
  apply pieces
  intro source lo hi laid
  exact h (laid.sublist node.parts_sublist_pieces).of_bare

/-- A name that is all of a node, or that the node begins with. -/
theorem leaf (span : Span) {occurrence : Occurrence}
    (here : occurrence.offset? = some span.start)
    (fits : ∀ {source : List Char} {lo hi : Nat}, node.Fits source 0 lo hi →
      span.Within source lo hi ∧ span.start < span.stop) (none : receivers uses = []) :
    Tallies bindings [node] [occurrence] uses := by
  intro source lo hi laid
  obtain ⟨within, long⟩ := fits laid.head.fits
  refine ⟨[], .of_ascending ?_ none⟩
  have same : offsets [occurrence] = [span.start] := by
    simp [offsets, here]
  rw [same]
  exact .single within.lo_le (Nat.lt_of_lt_of_le long within.le_hi)

/-- A target that is written as a name alone comes before its default. -/
theorem shorthand {context : Context} {span : Span} {name : Name} {default : Option Expr}
    (h : Tallies bindings (default.toList.map (.expr .shorthandDefault false)) occurrences uses) :
    Tallies bindings [.pattern (.shorthand span name default)]
      (.refer name.span.start name.text true :: occurrences)
      (usesOfName context name.span name.text true ++ uses) := by
  intro source lo hi laid
  have inside : LaidAll source 0 name.span.stop hi
      ((default.toList.map (Node.expr .shorthandDefault false)).map Node.bare) := laid.head.inside
  obtain ⟨within, ⟨long, -⟩⟩ : name.span.Within source lo hi ∧ name.Usable source 0 := laid.head.fits
  obtain ⟨names, tally⟩ := h inside.of_bare
  have first : Tally bindings lo name.span.stop [.refer name.span.start name.text true]
      (usesOfName context name.span name.text true) [] :=
    .of_ascending (.single within.lo_le long) (receivers_usesOfName _ _ _ _)
  exact ⟨names, first.append tally (Nat.le_trans within.lo_le within.ordered) within.le_hi⟩

/-- An expression that is stored to: what is no place has no occurrences. -/
theorem place {context : Context} {place place' : Place} {concise : Bool} {e : Expr}
    (h : Tallies bindings [.expr place concise e] (ofExpr e) (usesOfExpr context place' e)) :
    Tallies bindings [.expr place concise e] (ofPlace e) (usesOfExpr context place' e) := by
  cases e with
  | name span text =>
    have named : Tallies bindings [.expr place concise (.name span text)]
        [.refer span.start text true] (usesOfName context span text (place' = .shorthand)) :=
      .leaf span rfl (And.imp_right Name.Usable.text) (receivers_usesOfName _ _ _ _)
    exact named.branch
  | member | privateMember | index => exact h
  | _ => exact h.ghost

/-- The parameter of a handler. -/
theorem caught {context : Context} {p : Pattern}
    (h : Tallies bindings [.pattern p] (ofPattern .here p) (usesOfPattern context p)) :
    Tallies bindings [.pattern p] (ofCaught p) (usesOfPattern context p) := by
  cases p with
  | binding name => exact .leaf name.span rfl (And.imp_right Name.Usable.text) rfl
  | array | object => exact h
  | _ => exact h.ghost

/-- A variable that is declared where it receives its value. -/
theorem receive {context : Context} {rule : DeclarationRule} {home home' : Home} {span : Span}
    {target : Pattern} {init : Option Expr} {use : Use}
    (h : Tallies context.bindings
      ((Node.declarator home' (.mk span target init)).parts fun _ => none)
      (ofPattern rule target ++ ofOptional init) uses)
    (joins : rule ≠ .shadowing)
    (taken : requiredVariable? context home (.mk span target init) = some use) :
    Tallies context.bindings [.declarator home' (.mk span target init)]
      (ofPattern rule target ++ ofOptional init) [use] := by
  obtain ⟨_, name, value, call, same, rfl, static, -, top, constant⟩ :=
    requiredVariable?_eq_some taken
  obtain ⟨rfl, rfl, rfl⟩ := Declarator.mk.inj same
  obtain ⟨offset, text, called, scope, free⟩ := ofExpr_of_requireCall static
  rw [scope] at top
  have occurrences : ofPattern rule (.binding name) ++ ofOptional (some value) =
      [.declare rule name, .refer offset text false] := by
    simp [ofPattern, ofOptional, called]
  have declared : declaredOffsets [.declare rule name, .refer offset text false] =
      [name.span.start] := rfl
  rw [occurrences] at h ⊢
  intro source lo hi laid
  obtain ⟨low, high⟩ := laid.head.fits.frame_within
  have inside : LaidAll source 0 span.start span.stop
      (Node.pieces (.declarator home' (.mk span (.binding name) (some value)))) := laid.head.inside
  obtain ⟨_, tally⟩ := h (inside.sublist (Node.parts_sublist_pieces _)).of_bare
  have here := tally.declared_within (n := name.span.start)
    (by rw [declared]; exact List.mem_singleton_self _)
  refine ⟨[name], tally.ascending.mono low high, rfl, ?_, ?_, ?_, ?_⟩
  · intro other mem
    obtain rfl := List.mem_singleton.mp mem
    exact ⟨Nat.le_trans low here.1, Nat.lt_of_lt_of_le here.2 high⟩
  · intro other mem
    rw [List.mem_singleton.mp mem]
    exact constant
  · rw [declared]
    simpa using Receives.take joins top constant .nil
  · intro s mem
    obtain rfl := List.mem_singleton.mp mem
    refine ⟨low, high, ⟨name, List.mem_singleton_self _, rfl, here.1, here.2, ?_⟩, ?_⟩
    · intro n mem' _ _
      rw [declared] at mem'
      exact List.mem_singleton.mp mem'
    · intro n mem' _ _
      obtain rfl : n = offset := List.mem_singleton.mp mem'
      exact free

/-- Nodes in another grouping. -/
theorem assoc (h : Tallies bindings (nodes ++ nodes' ++ nodes'') occurrences uses) :
    Tallies bindings (nodes ++ (nodes' ++ nodes'')) occurrences uses := by
  rwa [List.append_assoc] at h

end Tallies

/-! ## All pieces of syntax -/

section Names

variable {bindings : Bindings}

/-- The names that a function, a class or an import binds. -/
theorem tallies_declareAll (rule : DeclarationRule) (names : List Name) :
    Tallies bindings (names.map .bound) (declareAll rule names) [] := by
  induction names with
  | nil => exact .nil
  | cons name names ih =>
    have here : Tallies bindings [.bound name] [.declare rule name] [] :=
      .leaf name.span rfl (And.imp_right Name.Usable.text) rfl
    exact here.append ih

/-- The names that an export list takes from the module. -/
theorem tallies_exportReferences (entries : List ExportSpecifier) :
    Tallies bindings ((entries.filter fun s => !s.inner.isString).map .specifier)
      (exportReferences entries) [] := by
  induction entries with
  | nil => exact .nil
  | cons entry entries ih =>
    unfold exportReferences
    cases isString : entry.inner.isString with
    | true => simpa [isString] using ih
    | false =>
      have here : Tallies bindings [.specifier entry]
          [.refer entry.inner.span.start entry.inner.text false] [] :=
        .leaf entry.inner.span rfl (fun fits => ⟨fits.1, fits.2.1⟩) rfl
      simpa [isString] using here.append ih

end Names

mutual

/-- The occurrences and the uses in an expression tally. -/
theorem tallies_ofExpr (context : Context) {place place' : Place} {concise : Bool} :
    (e : Expr) → Tallies context.bindings [.expr place concise e] (ofExpr e)
      (usesOfExpr context place' e)
  | .name span text => by
    have named : Tallies context.bindings [.expr place concise (.name span text)]
        [.refer span.start text false] (usesOfName context span text (place' = .shorthand)) :=
      .leaf span rfl (And.imp_right Name.Usable.text) (receivers_usesOfName _ _ _ _)
    exact named.branch
  | .this span => by
    apply Tallies.silent rfl
    rw [usesOfExpr]
    split <;> rfl
  | .literal _ _ | .atom _ | .hole _ => .nil
  | .paren _ inner | .spread _ inner => .parts (tallies_ofExpr context inner)
  | .chain _ inner => .parts (tallies_ofExpr context inner)
  | .unary span op operand => by
    have inner : Tallies context.bindings [.expr place concise (.unary span op operand)]
        (ofExpr operand) (usesOfExpr context .inner operand) :=
      .parts (tallies_ofExpr context operand)
    unfold usesOfExpr
    split
    · exact inner.mute rfl
    · exact inner
  | .update _ target => .parts (tallies_ofExpr context target).place
  | .binary _ _ left right | .logical _ _ left right =>
    .parts ((tallies_ofExpr context left).append (tallies_ofExpr context right))
  | .conditional _ test yes no =>
    .parts (((tallies_ofExpr context test).append (tallies_ofExpr context yes).branch).append
      (tallies_ofExpr context no).branch)
  | .assign span plain target value => by
    have stored := tallies_ofPattern context .here target
    have assigned : Tallies context.bindings [.part value] (ofExpr value)
        (usesOfExpr context .inner value) := tallies_ofExpr context value
    rw [usesOfExpr]
    split
    · have hidden : Tallies context.bindings [.pattern target] (ofPattern .here target) [] :=
        stored.mute rfl
      exact .congr (.parts (hidden.append assigned)) rfl
    · exact .parts (stored.append assigned)
  | .member _ object _ | .privateMember _ object => .parts (tallies_ofExpr context object)
  | .index _ object key =>
    .parts ((tallies_ofExpr context object).append (tallies_ofExpr context key))
  | .call span callee arguments => by
    have called : Tallies context.bindings [.part callee] (ofExpr callee)
        (usesOfExpr context .inner callee) := tallies_ofExpr context callee
    have all := called.append (tallies_ofExprs context arguments)
    rw [usesOfExpr]
    split
    · exact .parts (all.mute rfl)
    · exact .parts all
  | .template _ _ values => .parts (tallies_ofExprs context values)
  | .group _ _ parts => .parts (tallies_ofExprs context parts)
  | .array _ elements _ => .parts (tallies_ofExprs context elements)
  | .object _ properties _ => .parts (tallies_ofProperties context properties)
  | .function span form name parameters body => by
    have named := @tallies_declareAll context.bindings .here name.toList
    have inner := ((tallies_ofPatterns context.within .here parameters).settled).append
      (tallies_ofStmts context.within .list body)
    apply Tallies.pieces
    show Tallies context.bindings (name.toList.map .bound ++
      (parameters.map .pattern ++ body.map .listed)) _ (usesOfPatterns context.within parameters ++
        usesOfStmts context.within .list body)
    by_cases declares : form = .declaration
    · simpa [ofExpr, declares] using named.append (inner.scope true)
    · simpa [ofExpr, declares] using (named.append inner).scope true
  | .class span isDeclaration decorators name heritage members => by
    have decorated : Tallies context.bindings (decorators.map .part) (ofExprs decorators)
        (usesOfExprs context.within decorators) := tallies_ofExprs context.within decorators
    have named := @tallies_declareAll context.bindings .here name.toList
    have inner := (tallies_ofOptional context.within heritage).append
      (tallies_ofMembers context.within members)
    apply Tallies.pieces
    show Tallies context.bindings (decorators.map .part ++ (name.toList.map .bound ++
      (heritage.toList.map .part ++ members.map .member))) _ (usesOfExprs context.within decorators ++
        usesOfOptional context.within heritage ++ usesOfMembers context.within members)
    cases isDeclaration with
    | true => simpa [ofExpr] using decorated.append (named.append (inner.scope false))
    | false => simpa [ofExpr] using decorated.append ((named.append inner).scope false)

theorem tallies_ofExprs (context : Context) : (es : List Expr) →
    Tallies context.bindings (es.map .part) (ofExprs es) (usesOfExprs context es)
  | [] => .nil
  | e :: es => (tallies_ofExpr context e).append (tallies_ofExprs context es)

theorem tallies_ofOptional (context : Context) : (e : Option Expr) →
    Tallies context.bindings (e.toList.map .part) (ofOptional e) (usesOfOptional context e)
  | none => .nil
  | some e => tallies_ofExpr context e

theorem tallies_ofProperties (context : Context) : (ps : List Property) →
    Tallies context.bindings (ps.map .property) (ofProperties ps) (usesOfProperties context ps)
  | [] => .nil
  | .keyed _ _ computed value :: ps =>
    .append (.parts ((tallies_ofOptional context computed).append (tallies_ofExpr context value)))
      (tallies_ofProperties context ps)
  | .shorthand _ name _ :: ps =>
    .append (.leaf name.span rfl (by exact And.imp_right Name.Usable.text)
      (receivers_usesOfName _ _ _ _))
      (tallies_ofProperties context ps)
  | .spread _ inner :: ps =>
    .append (.parts (tallies_ofExpr context inner)) (tallies_ofProperties context ps)

theorem tallies_ofPattern (context : Context) (rule : DeclarationRule) : (p : Pattern) →
    Tallies context.bindings [.pattern p] (ofPattern rule p) (usesOfPattern context p)
  | .binding name =>
    .leaf name.span rfl (And.imp_right Name.Usable.text) rfl
  | .target place => .parts (tallies_ofExpr context place).place
  | .withDefault _ inner default =>
    .parts ((tallies_ofPattern context rule inner).append (tallies_ofExpr context default))
  | .array _ elements => .parts (tallies_ofPatterns context rule elements)
  | .object _ properties => .parts (tallies_ofPatterns context rule properties)
  | .property _ computed value =>
    .parts ((tallies_ofOptional context computed).append (tallies_ofPattern context rule value))
  | .shorthand _ _ none => .shorthand .nil
  | .shorthand _ _ (some default) => .shorthand (tallies_ofExpr context default)
  | .rest _ inner => .parts (tallies_ofPattern context rule inner)

theorem tallies_ofPatterns (context : Context) (rule : DeclarationRule) : (ps : List Pattern) →
    Tallies context.bindings (ps.map .pattern) (ofPatterns rule ps) (usesOfPatterns context ps)
  | [] => .nil
  | p :: ps => (tallies_ofPattern context rule p).append (tallies_ofPatterns context rule ps)

theorem tallies_ofMembers (context : Context) : (ms : List Member) →
    Tallies context.bindings (ms.map .member) (ofMembers ms) (usesOfMembers context ms)
  | [] => .nil
  | .method _ decorators computed value :: ms =>
    .append (.parts (((tallies_ofExprs context decorators).append
      (tallies_ofOptional context computed)).append (tallies_ofExpr context value)))
      (tallies_ofMembers context ms)
  | .field _ decorators computed value :: ms =>
    .append (.parts (((tallies_ofExprs context decorators).append
      (tallies_ofOptional context computed)).append (tallies_ofOptional context value)))
      (tallies_ofMembers context ms)
  | .initializer _ body :: ms =>
    .append (.parts ((tallies_ofStmts context .list body).scope true))
      (tallies_ofMembers context ms)

/-- The occurrences and the uses in a statement tally. -/
theorem tallies_ofStmt (context : Context) (home : Home) {home' : Home} {concise : Bool} :
    (s : Stmt) → Tallies context.bindings [.stmt home' concise s] (ofStmt s)
      (usesOfStmt context home s)
  | .expression _ value => .parts (tallies_ofExpr context value)
  | .directive _ | .simple _ | .exportAll _ _ => .nil
  | .variables _ kind list => by
    have joins : ruleOf kind ≠ .shadowing := by
      cases kind <;> simp [ruleOf]
    have declared : Tallies context.bindings (list.map (.declarator home'))
        (ofDeclarators (ruleOf kind) list) (usesOfDeclarators context home list) :=
      tallies_ofDeclarators context home joins list
    apply Tallies.congr (.parts declared)
    simp [usesOfStmt, stretches]
  | .declaration value | .throwing _ value | .exportDefault _ value
  | .exportDefaultDeclaration _ value => .parts (tallies_ofExpr context value)
  | .block _ body => .parts ((tallies_ofStmts context .list body).scope false)
  | .ifElse _ test yes no =>
    .parts (((tallies_ofExpr context test).append (tallies_ofStmt context .sole yes).branch).append
      (tallies_ofOptionalStmt context no).branch)
  | .loop _ first test update body =>
    .parts (((((tallies_ofFirst context first).append (tallies_ofOptional context test)).append
      (tallies_ofOptional context update)).append (tallies_ofStmt context .sole body)).scope false)
  | .each _ declared none subject body =>
    .parts (.scope false (.assoc ((((tallies_ofFirst context declared).append .nil).append
      (tallies_ofExpr context subject)).append (tallies_ofStmt context .sole body))))
  | .each _ declared (some stored) subject body =>
    .parts (.scope false (.assoc ((((tallies_ofFirst context declared).append
      (tallies_ofPattern context .here stored)).append (tallies_ofExpr context subject)).append
        (tallies_ofStmt context .sole body))))
  | .whileLoop _ test body =>
    .parts ((tallies_ofExpr context test).append (tallies_ofStmt context .sole body))
  | .doWhile _ body test =>
    .parts ((tallies_ofStmt context .sole body).append (tallies_ofExpr context test))
  | .returning _ value => by
    have returned := tallies_ofOptional context value
    apply Tallies.congr (.parts returned)
    rw [usesOfStmt]
    split <;> rfl
  | .withObject _ object body =>
    .parts ((tallies_ofExpr context object).append ((tallies_ofStmt context .sole body).scope false))
  | .switch _ subject cases =>
    .parts ((tallies_ofExpr context subject).append ((tallies_ofCases context cases).scope false))
  | .guarded _ body none handler finalizer => by
    have guarded := (tallies_ofStmts context .list body).scope false
    have handled := ((tallies_ofStmts context .list handler).scope false).scope false
    have last := (tallies_ofStmts context .list finalizer).scope false
    apply Tallies.parts
    show Tallies context.bindings (body.map .listed ++ [] ++ handler.map .listed ++
      finalizer.map .listed) _ (usesOfStmts context .list body ++ [] ++
        usesOfStmts context .list handler ++ usesOfStmts context .list finalizer)
    simpa [ofStmt] using guarded.append (handled.append last)
  | .guarded _ body (some parameter) handler finalizer => by
    have guarded := (tallies_ofStmts context .list body).scope false
    have handled := ((tallies_ofPattern context .here parameter).caught.append
      ((tallies_ofStmts context .list handler).scope false)).scope false
    have last := (tallies_ofStmts context .list finalizer).scope false
    apply Tallies.parts
    show Tallies context.bindings (body.map .listed ++ [.pattern parameter] ++
      handler.map .listed ++ finalizer.map .listed) _ (usesOfStmts context .list body ++
        usesOfPattern context parameter ++ usesOfStmts context .list handler ++
          usesOfStmts context .list finalizer)
    simpa [ofStmt] using guarded.append (handled.append last)
  | .labeled _ body => .parts (tallies_ofStmt context .sole body)
  | .importing _ bindings => .pieces (tallies_declareAll .here bindings)
  | .exportDeclaration _ declaration => .parts (tallies_ofStmt context .exported declaration)
  | .exportNames _ entries none =>
    .parts ((tallies_exportReferences entries).mute (receivers_usesOfSpecifiers context entries))
  | .exportNames _ _ (some _) => .nil

/-- The occurrences and the uses in statements tally. -/
theorem tallies_ofStmts (context : Context) (home : Home) : (ss : List Stmt) →
    Tallies context.bindings (ss.map .listed) (ofStmts ss) (usesOfStmts context home ss)
  | [] => .nil
  | s :: ss => (tallies_ofStmt context home s).append (tallies_ofStmts context home ss)

theorem tallies_ofOptionalStmt (context : Context) : (s : Option Stmt) →
    Tallies context.bindings (s.toList.flatMap fun s => Node.unlessKnown none true (.sole s))
      (ofOptionalStmt s) (usesOfOptionalStmt context s)
  | none => .nil
  | some s => tallies_ofStmt context .sole s

theorem tallies_ofFirst (context : Context) : (s : Option Stmt) →
    Tallies context.bindings (s.toList.map .ofFirst) (ofOptionalStmt s) (usesOfFirst context s)
  | none => .nil
  | some (.expression _ value) => tallies_ofExpr context value
  | some (.directive _) | some (.variables _ _ _) | some (.declaration _) | some (.block _ _)
  | some (.ifElse _ _ _ _) | some (.loop _ _ _ _ _) | some (.each _ _ _ _ _)
  | some (.whileLoop _ _ _) | some (.doWhile _ _ _) | some (.returning _ _)
  | some (.throwing _ _) | some (.simple _) | some (.withObject _ _ _) | some (.switch _ _ _)
  | some (.guarded _ _ _ _ _) | some (.labeled _ _) | some (.importing _ _)
  | some (.exportDefault _ _) | some (.exportDefaultDeclaration _ _)
  | some (.exportDeclaration _ _) | some (.exportNames _ _ _) | some (.exportAll _ _) =>
    tallies_ofStmt context .sole _

theorem tallies_ofDeclarators (context : Context) (home : Home) {home' : Home}
    {rule : DeclarationRule} (joins : rule ≠ .shadowing) : (ds : List Declarator) →
    Tallies context.bindings (ds.map (.declarator home')) (ofDeclarators rule ds)
      (usesOfDeclarators context home ds)
  | [] => .nil
  | .mk span target init :: ds => by
    have others : Tallies context.bindings (ds.map (.declarator home')) (ofDeclarators rule ds)
        (usesOfDeclarators context home ds) := tallies_ofDeclarators context home joins ds
    have here : Tallies context.bindings
        ((Node.declarator home' (.mk span target init)).parts fun _ => none)
        (ofPattern rule target ++ ofOptional init)
        (usesOfPattern context target ++ usesOfOptional context init) :=
      (tallies_ofPattern context rule target).append (tallies_ofOptional context init)
    have first : Tallies context.bindings [.declarator home' (.mk span target init)]
        (ofPattern rule target ++ ofOptional init)
        (match requiredVariable? context home (.mk span target init) with
          | some use => [use]
          | none => usesOfPattern context target ++ usesOfOptional context init) := by
      split
      · rename_i use taken
        exact here.receive joins taken
      · exact .parts here
    exact first.append others

theorem tallies_ofCases (context : Context) : (cs : List SwitchCase) →
    Tallies context.bindings (cs.map .switchCase) (ofCases cs) (usesOfCases context cs)
  | [] => .nil
  | .mk test body :: cs =>
    .append (.parts ((tallies_ofOptional context test).append (tallies_ofStmts context .list body)))
      (tallies_ofCases context cs)

end

/-- **The names of a module occur in order**, and so do the variables that receive a value. -/
theorem exists_tally {source : List Char} {program : Program}
    (parsed : parseModule source = .ok program) (bindings : Bindings) (ignored : List String) :
    ∃ names, Tally bindings 0 (Text.byteLength source) (ofStmts program.body)
      (usesOf bindings ignored program) names :=
  tallies_ofStmts ⟨bindings, ignored, false⟩ .body program.body (laid_parseModule parsed)

end ModuleInterop.Usage
