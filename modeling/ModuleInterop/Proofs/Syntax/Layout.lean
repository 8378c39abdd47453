import ModuleInterop.Proofs.Syntax.Node
import ModuleInterop.Proofs.Syntax.Seam

/-!
# How nodes lie in the text

The pieces of a node lie one after the other in the text: a node is laid in an interval if its own
span lies there and its pieces are laid in intervals that follow one another (`Laid`, `LaidAll`).  An
interval may be wider than the span: the decorators of a class stand before its own span.

Some kinds of node say more about where their other pieces are.  Those of an expression lie in its
span, and so do those of a statement, except for what may stand before a class; the declarators of a
statement come after the word that begins it, a variable and its value lie inside the declarator's own
span, and the default of a shorthand property comes after the name.  What is stored to is a name or a
member.  A name that is bound or referred to is the word that reading the source gives there, and no
reserved word (`Name.Usable`).

Of a text in which no faults have been met, more is known: the names that are bound or referred to stand
alone in it, and so does the word that begins an import or an export (`Announced`).

The names that functions, classes and imports bind are no parts of them, but they have their places
among the pieces, too.
-/

set_option autoImplicit false

namespace ModuleInterop.Syntax

open ModuleInterop.Text

/-- A span lies in an interval of the source, and its ends are positions between characters. -/
structure Span.Within (source : List Char) (lo hi : Nat) (span : Span) : Prop where
  lo_le : lo ≤ span.start
  ordered : span.start ≤ span.stop
  le_hi : span.stop ≤ hi
  start : Boundary source span.start
  stop : Boundary source span.stop

/-- Whether a word is reserved, so that it cannot be the name of a binding. -/
def isReservedWord (text : String) : Bool := ((Keyword.ofText? text).map Keyword.isReserved).getD false

/-- A name that is bound or referred to stands in the source, and it is no reserved word.  It stands
there alone unless faults have been met. -/
structure Name.Usable (source : List Char) (faults : Nat) (name : Name) : Prop where
  text : name.span.start < name.span.stop
  spells : name.span.Spells source name.text
  notReserved : isReservedWord name.text = false
  alone : faults = 0 → name.span.Alone source

/-- One of the words that begin imports and exports stands alone at a position. -/
def Announced (source : List Char) (n : Nat) : Prop :=
  StandsAlone source n "import".toList ∨ StandsAlone source n "export".toList

/-- Whether a statement declares variables, a function or a class. -/
def Stmt.isDeclaration : Stmt → Bool
  | .variables _ _ _ | .declaration _ => true
  | _ => false

/-- Whether an expression can be stored to: it is a name or a member. -/
def Expr.isPlace : Expr → Bool
  | .name _ _ | .member _ _ _ | .privateMember _ _ | .index _ _ _ => true
  | _ => false

/-- Whether a pattern is what a handler can have as its parameter: a name, an array or an object. -/
def Pattern.isCaught : Pattern → Bool
  | .binding _ | .array _ _ | .object _ _ => true
  | _ => false

variable {source : List Char} {faults faults' lo hi lo' hi' mid : Nat}

theorem Name.Usable.later {name : Name} (h : name.Usable source faults) (le : faults ≤ faults') :
    name.Usable source faults' :=
  { h with alone := fun fine => h.alone (Nat.le_zero.mp (fine ▸ le)) }

theorem Span.Within.mono {span : Span} (h : span.Within source lo hi) (low : lo' ≤ lo)
    (high : hi ≤ hi') : span.Within source lo' hi' :=
  { h with lo_le := Nat.le_trans low h.lo_le, le_hi := Nat.le_trans h.le_hi high }

theorem Span.Within.le {span : Span} (h : span.Within source lo hi) : lo ≤ hi :=
  Nat.le_trans h.lo_le (Nat.le_trans h.ordered h.le_hi)

namespace Node

/-- A node without what its surroundings say about it. -/
def bare : Node → Node
  | .expr _ _ e => part e
  | .stmt _ _ s => listed s
  | .declarator _ d => .declarator .list d
  | node => node

/-- A name that is bound, as a pattern. -/
def bound (name : Name) : Node := .pattern (.binding name)

/-- The pieces of a node in the order of the text: its parts, and the names that functions, classes
and imports bind.  Those of a property count that are in use only once it has become a pattern. -/
def pieces : Node → List Node
  | .property (.shorthand _ _ default) => default.toList.map part
  | .expr _ _ (.function _ _ name parameters body) =>
    name.toList.map bound ++ (parameters.map .pattern ++ body.map listed)
  | .expr _ _ (.class _ _ decorators name heritage members) =>
    decorators.map part ++ (name.toList.map bound ++ (heritage.toList.map part ++
      members.map .member))
  | .stmt _ _ (.importing _ bindings) => bindings.map bound
  | node => (node.parts fun _ => none).map bare

/-- The pieces of a node that stand before its span. -/
def leading : Node → List Node
  | .expr _ _ (.class _ _ decorators _ _ _) => decorators.map part
  | _ => []

/-- The pieces of a node that do not stand before its span. -/
def inside : Node → List Node
  | .expr _ _ (.class _ _ _ name heritage members) =>
    name.toList.map bound ++ (heritage.toList.map part ++ members.map .member)
  | node => node.pieces

/-- What a node says of its own place in an interval. -/
def Fits (source : List Char) (faults lo hi : Nat) : Node → Prop
  | .expr _ _ (.name span text) => span.Within source lo hi ∧ Name.Usable source faults ⟨span, text⟩
  | .expr _ _ (.this span) => span.Within source lo hi ∧ span.start < span.stop
  | .expr _ _ (.update span target) => span.Within source lo hi ∧ target.isPlace = true
  | .expr _ _ e => e.span.Within source lo hi
  | .property (.keyed span _ _ _) | .property (.spread span _) => span.Within source lo hi
  | .property (.shorthand _ name _) | .pattern (.shorthand _ name _) | .pattern (.binding name) =>
    name.span.Within source lo hi ∧ name.Usable source faults
  | .pattern (.target place) => place.span.Within source lo hi ∧ place.isPlace = true
  | .pattern p => p.span.Within source lo hi
  | .stmt _ _ (.expression span value) =>
    span.Within source lo hi ∧ span.start ≤ value.span.start
  | .stmt _ _ (.exportDeclaration span declaration) =>
    span.Within source lo hi ∧ declaration.isDeclaration = true ∧
      (faults = 0 → Announced source span.start)
  | .stmt _ _ (.importing span _) | .stmt _ _ (.exportDefault span _)
  | .stmt _ _ (.exportDefaultDeclaration span _) | .stmt _ _ (.exportNames span _ _)
  | .stmt _ _ (.exportAll span _) =>
    span.Within source lo hi ∧ (faults = 0 → Announced source span.start)
  | .stmt _ _ (.guarded span _ parameter _ _) =>
    span.Within source lo hi ∧ ∀ p ∈ parameter, p.isCaught = true
  | .stmt _ _ s => s.span.Within source lo hi
  | .declarator _ (.mk span _ _) => span.Within source lo hi ∧ span.start < span.stop
  | .specifier s =>
    s.inner.span.Within source lo hi ∧ s.inner.span.start < s.inner.span.stop ∧
      (s.inner.isString = false → s.inner.span.Spells source s.inner.text ∧
        (faults = 0 → s.inner.span.Alone source))
  | .member _ | .switchCase _ => lo ≤ hi

/-- The interval for the pieces inside a node that lies in an interval. -/
def frame (lo hi : Nat) : Node → Nat × Nat
  | .expr _ _ e => (e.span.start, e.span.stop)
  | .property (.shorthand _ name _) | .pattern (.shorthand _ name _) => (name.span.stop, hi)
  | .stmt _ _ (.variables span _ _) => (span.start + 1, span.stop)
  | .stmt _ _ (.declaration _) => (lo, hi)
  | .stmt _ _ (.expression span _) | .stmt _ _ (.exportDefaultDeclaration span _)
  | .stmt _ _ (.exportDeclaration span _) => (lo, span.stop)
  | .stmt _ _ s => (s.span.start, s.span.stop)
  | .declarator _ (.mk span _ _) => (span.start, span.stop)
  | _ => (lo, hi)

/-- What surrounds a node does not change its pieces. -/
theorem pieces_bare (node : Node) : node.bare.pieces = node.pieces := by
  cases node with
  | expr place concise e => cases e <;> simp [bare, pieces, parts, part]
  | stmt home concise s =>
    cases s <;> simp [bare, pieces, parts, listed, part]
  | declarator home d =>
    cases d
    simp [bare, pieces, parts]
  | _ => rfl

@[simp] theorem bare_part (e : Expr) : (part e).bare = part e := rfl

@[simp] theorem bare_listed (s : Stmt) : (listed s).bare = listed s := rfl

@[simp] theorem bare_sole (s : Stmt) : (sole s).bare = listed s := rfl

@[simp] theorem bare_comp_part : bare ∘ part = part := rfl

@[simp] theorem bare_comp_listed : bare ∘ listed = listed := rfl

@[simp] theorem bare_comp_stmt (home : Usage.Home) (concise : Bool) :
    bare ∘ Node.stmt home concise = listed := rfl

@[simp] theorem bare_comp_declarator (home : Usage.Home) :
    bare ∘ Node.declarator home = .declarator .list := rfl

@[simp] theorem bare_comp_property : bare ∘ Node.property = .property := rfl

@[simp] theorem bare_comp_pattern : bare ∘ Node.pattern = .pattern := rfl

@[simp] theorem bare_comp_member : bare ∘ Node.member = .member := rfl

@[simp] theorem bare_comp_switchCase : bare ∘ Node.switchCase = .switchCase := rfl

@[simp] theorem bare_comp_specifier : bare ∘ Node.specifier = .specifier := rfl

theorem leading_append_inside (node : Node) : node.leading ++ node.inside = node.pieces := by
  cases node with
  | expr place concise e =>
    cases e with
    | «class» span named decorators name heritage members =>
      simp [leading, inside, pieces]
    | _ => rfl
  | _ => rfl

theorem Fits.mono {node : Node} (h : node.Fits source faults lo hi) (low : lo' ≤ lo) (high : hi ≤ hi') :
    node.Fits source faults lo' hi' := by
  unfold Fits at h ⊢
  split at h
  all_goals first
    | exact Nat.le_trans low (Nat.le_trans h high)
    | exact h.mono low high
    | exact ⟨h.1.mono low high, h.2⟩

theorem Fits.later {node : Node} (h : node.Fits source faults lo hi) (le : faults ≤ faults') :
    node.Fits source faults' lo hi := by
  have none (fine : faults' = 0) : faults = 0 := Nat.le_zero.mp (fine ▸ le)
  unfold Fits at h ⊢
  split at h
  all_goals first
    | exact h
    | exact ⟨h.1, h.2.later le⟩
    | exact ⟨h.1, fun fine => h.2 (none fine)⟩
    | exact ⟨h.1, h.2.1, fun fine => h.2.2 (none fine)⟩
    | exact ⟨h.1, h.2.1, fun plain => ⟨(h.2.2 plain).1, fun fine => (h.2.2 plain).2 (none fine)⟩⟩

theorem Fits.le {node : Node} (h : node.Fits source faults lo hi) : lo ≤ hi := by
  unfold Fits at h
  split at h
  all_goals first
    | exact h
    | exact h.le
    | exact h.1.le

theorem Fits.span_within {place : Usage.Place} {concise : Bool} {e : Expr}
    (h : (Node.expr place concise e).Fits source faults lo hi) : e.span.Within source lo hi := by
  cases e with
  | name span text => exact h.1
  | this span => exact h.1
  | update span target => exact h.1
  | _ => exact h

theorem Fits.stmt_within {home : Usage.Home} {concise : Bool} {s : Stmt}
    (h : (Node.stmt home concise s).Fits source faults lo hi) : s.span.Within source lo hi := by
  cases s with
  | expression span value => exact h.1
  | exportDeclaration span declaration => exact h.1
  | importing span bindings => exact h.1
  | exportDefault span value => exact h.1
  | exportDefaultDeclaration span declaration => exact h.1
  | exportNames span specifiers taken => exact h.1
  | exportAll span exported => exact h.1
  | guarded span body parameter handler finalizer => exact h.1
  | _ => exact h

/-- The interval for the pieces inside a node lies in the interval of the node. -/
theorem Fits.frame_within {node : Node} (h : node.Fits source faults lo hi) :
    lo ≤ (node.frame lo hi).1 ∧ (node.frame lo hi).2 ≤ hi := by
  unfold frame
  split
  · exact ⟨h.span_within.lo_le, h.span_within.le_hi⟩
  · exact ⟨Nat.le_trans h.1.lo_le h.1.ordered, Nat.le_refl _⟩
  · exact ⟨Nat.le_trans h.1.lo_le h.1.ordered, Nat.le_refl _⟩
  · exact ⟨Nat.le_trans h.lo_le (Nat.le_succ _), h.le_hi⟩
  · exact ⟨Nat.le_refl _, Nat.le_refl _⟩
  · exact ⟨Nat.le_refl _, h.1.le_hi⟩
  · exact ⟨Nat.le_refl _, h.1.le_hi⟩
  · exact ⟨Nat.le_refl _, h.1.le_hi⟩
  · exact ⟨h.stmt_within.lo_le, h.stmt_within.le_hi⟩
  · exact ⟨h.1.lo_le, h.1.le_hi⟩
  · exact ⟨Nat.le_refl _, Nat.le_refl _⟩

end Node

mutual

/-- A node is laid in an interval of the source. -/
inductive Laid (source : List Char) (faults : Nat) : Nat → Nat → Node → Prop where
  | intro {lo hi : Nat} {node : Node} (fits : node.Fits source faults lo hi)
      (leading : LaidAll source faults lo (node.frame lo hi).1 node.leading)
      (inside : LaidAll source faults (node.frame lo hi).1 (node.frame lo hi).2 node.inside) :
      Laid source faults lo hi node

/-- Nodes are laid one after the other in an interval of the source. -/
inductive LaidAll (source : List Char) (faults : Nat) : Nat → Nat → List Node → Prop where
  | nil {lo hi : Nat} (le : lo ≤ hi) : LaidAll source faults lo hi []
  | cons {lo mid hi : Nat} {node : Node} {nodes : List Node} (first : Laid source faults lo mid node)
      (others : LaidAll source faults mid hi nodes) : LaidAll source faults lo hi (node :: nodes)

end

theorem Laid.fits {node : Node} (h : Laid source faults lo hi node) : node.Fits source faults lo hi := by
  cases h
  assumption

theorem Laid.leading {node : Node} (h : Laid source faults lo hi node) :
    LaidAll source faults lo (node.frame lo hi).1 node.leading := by
  cases h
  assumption

theorem Laid.inside {node : Node} (h : Laid source faults lo hi node) :
    LaidAll source faults (node.frame lo hi).1 (node.frame lo hi).2 node.inside := by
  cases h
  assumption

theorem Laid.le {node : Node} (h : Laid source faults lo hi node) : lo ≤ hi := h.fits.le

theorem LaidAll.le {nodes : List Node} (h : LaidAll source faults lo hi nodes) : lo ≤ hi := by
  induction nodes generalizing lo with
  | nil =>
    cases h
    assumption
  | cons node nodes ih =>
    cases h with
    | cons first others => exact Nat.le_trans first.le (ih others)

theorem Node.frame_mono (node : Node) (low : lo' ≤ lo) (high : hi ≤ hi') :
    (node.frame lo' hi').1 ≤ (node.frame lo hi).1 ∧
      (node.frame lo hi).2 ≤ (node.frame lo' hi').2 := by
  unfold frame
  split <;> constructor <;> first | exact Nat.le_refl _ | assumption

/-- Only a class has pieces before its span, which does not depend on the interval. -/
theorem Node.leading_eq_nil_or_frame_eq (node : Node) :
    node.leading = [] ∨ ∀ lo hi lo' hi', node.frame lo hi = node.frame lo' hi' := by
  unfold leading
  split
  · exact .inr fun _ _ _ _ => rfl
  · exact .inl rfl

mutual

theorem Laid.mono {lo' hi' : Nat} : ∀ {lo hi : Nat} {node : Node}, Laid source faults lo hi node →
    lo' ≤ lo → hi ≤ hi' → Laid source faults lo' hi' node
  | lo, hi, node, .intro fits leading inside, low, high => by
    have wider := node.frame_mono low high
    have fits' := fits.mono low high
    refine .intro fits' ?_ (inside.mono wider.1 wider.2)
    rcases node.leading_eq_nil_or_frame_eq with none | same
    · rw [none]
      exact .nil fits'.frame_within.1
    · rw [same lo' hi' lo hi]
      exact leading.mono low (Nat.le_refl _)

theorem LaidAll.mono {lo' hi' : Nat} : ∀ {lo hi : Nat} {nodes : List Node},
    LaidAll source faults lo hi nodes → lo' ≤ lo → hi ≤ hi' → LaidAll source faults lo' hi' nodes
  | _, _, _, .nil le, low, high => .nil (Nat.le_trans low (Nat.le_trans le high))
  | _, _, _, .cons first others, low, high =>
    .cons (first.mono low (Nat.le_refl _)) (others.mono (Nat.le_refl _) high)

end

mutual

/-- What was laid when fewer faults had been met stays so. -/
theorem Laid.later (le : faults ≤ faults') : ∀ {lo hi : Nat} {node : Node},
    Laid source faults lo hi node → Laid source faults' lo hi node
  | _, _, _, .intro fits leading inside =>
    .intro (fits.later le) (leading.later le) (inside.later le)

theorem LaidAll.later (le : faults ≤ faults') : ∀ {lo hi : Nat} {nodes : List Node},
    LaidAll source faults lo hi nodes → LaidAll source faults' lo hi nodes
  | _, _, _, .nil le => .nil le
  | _, _, _, .cons first others => .cons (first.later le) (others.later le)

end

/-- The pieces inside a node lie in its interval. -/
theorem Laid.inside_within {node : Node} (h : Laid source faults lo hi node) :
    LaidAll source faults lo hi node.inside :=
  h.inside.mono h.fits.frame_within.1 h.fits.frame_within.2

/-- An expression is laid up to the end of its span. -/
theorem Laid.upTo_span {place : Usage.Place} {concise : Bool} {e : Expr}
    (h : Laid source faults lo hi (.expr place concise e)) :
    Laid source faults lo e.span.stop (.expr place concise e) := by
  have within := h.fits.span_within
  have tight : e.span.Within source lo e.span.stop := { within with le_hi := Nat.le_refl _ }
  refine ⟨?_, h.leading, h.inside⟩
  cases e with
  | name span text => exact ⟨tight, h.fits.2⟩
  | this span => exact ⟨tight, h.fits.2⟩
  | update span target => exact ⟨tight, h.fits.2⟩
  | _ => exact tight

/-- An expression without pieces before its span is laid in its span. -/
theorem Laid.tight {place : Usage.Place} {concise : Bool} {e : Expr}
    (h : Laid source faults lo hi (.expr place concise e))
    (none : (Node.expr place concise e).leading = []) :
    Laid source faults e.span.start e.span.stop (.expr place concise e) := by
  have within := h.fits.span_within
  have tight : e.span.Within source e.span.start e.span.stop :=
    { within with lo_le := Nat.le_refl _, le_hi := Nat.le_refl _ }
  refine ⟨?_, by rw [none]; exact .nil (Nat.le_refl _), h.inside⟩
  cases e with
  | name span text => exact ⟨tight, h.fits.2⟩
  | this span => exact ⟨tight, h.fits.2⟩
  | update span target => exact ⟨tight, h.fits.2⟩
  | _ => exact tight

theorem LaidAll.append {nodes others : List Node} (h : LaidAll source faults lo mid nodes)
    (h' : LaidAll source faults mid hi others) : LaidAll source faults lo hi (nodes ++ others) := by
  induction nodes generalizing lo with
  | nil => exact h'.mono h.le (Nat.le_refl _)
  | cons node nodes ih =>
    cases h with
    | cons first rest => exact .cons first (ih rest)

/-- All pieces of a node lie up to the end of those inside. -/
theorem Laid.pieces {node : Node} (h : Laid source faults lo hi node) :
    LaidAll source faults lo (node.frame lo hi).2 node.pieces := by
  rw [← node.leading_append_inside]
  exact h.leading.append h.inside

namespace LaidAll

variable {node : Node} {nodes others : List Node}

theorem exists_mid (h : LaidAll source faults lo hi (nodes ++ others)) :
    ∃ mid, LaidAll source faults lo mid nodes ∧ LaidAll source faults mid hi others := by
  induction nodes generalizing lo with
  | nil => exact ⟨lo, .nil (Nat.le_refl _), h⟩
  | cons node nodes ih =>
    cases h with
    | cons first rest =>
      obtain ⟨mid, before, after⟩ := ih rest
      exact ⟨mid, .cons first before, after⟩

theorem sublist (h : LaidAll source faults lo hi nodes) (sub : others.Sublist nodes) :
    LaidAll source faults lo hi others := by
  induction sub generalizing lo with
  | slnil => exact h
  | cons node sub ih =>
    cases h with
    | cons first rest => exact (ih rest).mono first.le (Nat.le_refl _)
  | cons_cons node sub ih =>
    cases h with
    | cons first rest => exact .cons first (ih rest)

theorem single (h : Laid source faults lo hi node) : LaidAll source faults lo hi [node] :=
  .cons h (.nil (Nat.le_refl _))

theorem head (h : LaidAll source faults lo hi [node]) : Laid source faults lo hi node := by
  cases h with
  | cons first rest => exact first.mono (Nat.le_refl _) rest.le

/-! The bounds of intervals are linear arithmetic, so they are left to `omega`. -/

theorem wide (h : LaidAll source faults lo hi nodes) (le : lo' ≤ lo ∧ hi ≤ hi' ∧ faults ≤ faults') :
    LaidAll source faults' lo' hi' nodes :=
  (h.later le.2.2).mono le.1 le.2.1

theorem add {mid' : Nat} (h : LaidAll source faults lo mid nodes)
    (h' : LaidAll source faults' mid' hi others) (le : mid ≤ mid' ∧ faults ≤ faults') :
    LaidAll source faults' lo hi (nodes ++ others) :=
  ((h.later le.2).mono (Nat.le_refl _) le.1).append h'

theorem none (le : lo ≤ hi) : LaidAll source faults lo hi [] := .nil le

/-- A node on its own without pieces before its span, with the others given in any form. -/
theorem of_fits (fits : node.Fits source faults lo hi)
    (h : LaidAll source faults (node.frame lo hi).1 (node.frame lo hi).2 nodes)
    (shape : node.inside = nodes ∧ node.leading = []) : LaidAll source faults lo hi [node] := by
  refine single ⟨fits, ?_, shape.1 ▸ h⟩
  rw [shape.2]
  exact .nil fits.frame_within.1

/-- A node on its own whose pieces lie in the same interval. -/
theorem plain (fits : node.Fits source faults lo hi) (h : LaidAll source faults lo hi nodes)
    (shape : node.frame lo hi = (lo, hi) ∧ node.inside = nodes ∧ node.leading = []) :
    LaidAll source faults lo hi [node] :=
  of_fits fits (by rwa [shape.1]) shape.2

/-- An expression without pieces. -/
theorem leaf {e : Expr} (fits : (Node.part e).Fits source faults lo hi)
    (shape : (Node.part e).inside = [] ∧ (Node.part e).leading = []) :
    LaidAll source faults lo hi [.part e] :=
  of_fits fits (.nil (Node.Fits.span_within fits).ordered) shape

/-- The pieces of a node are laid in its interval. -/
theorem inner (h : LaidAll source faults lo hi [node]) (same : node.pieces = nodes) :
    LaidAll source faults lo hi nodes := by
  rw [← same]
  exact h.head.pieces.mono (Nat.le_refl _) h.head.fits.frame_within.2

theorem tail (h : LaidAll source faults lo hi (node :: nodes)) :
    ∃ mid, LaidAll source faults lo mid [node] ∧ LaidAll source faults mid hi nodes := by
  cases h with
  | cons first others => exact ⟨_, .single first, others⟩

theorem span_within {e : Expr} (h : LaidAll source faults lo hi [.part e]) :
    e.span.Within source lo hi :=
  Node.Fits.span_within h.head.fits

end LaidAll

theorem Span.Within.of {span : Span} (start : Boundary source span.start)
    (stop : Boundary source span.stop)
    (le : lo ≤ span.start ∧ span.start ≤ span.stop ∧ span.stop ≤ hi) : span.Within source lo hi :=
  ⟨le.1, le.2.1, le.2.2, start, stop⟩

theorem Span.Within.between {first last : Nat} (start : Boundary source first)
    (stop : Boundary source last) (le : lo ≤ first ∧ first ≤ last ∧ last ≤ hi) :
    Span.Within source lo hi ⟨first, last⟩ :=
  .of start stop le

end ModuleInterop.Syntax
