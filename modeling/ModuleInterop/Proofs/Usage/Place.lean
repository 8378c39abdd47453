import ModuleInterop.Proofs.Syntax.Layout
import ModuleInterop.Proofs.Usage.Reference

/-!
# Where uses stand in the text

The own uses of a node that is laid in an interval lie there, before the parts that are looked at
for further uses (`Laid.exists_mid`).  What a node hides is skipped: the left side of an assignment
that exports lies before the value, which is looked at, and all other nodes that hide something show
nothing.
-/

set_option autoImplicit false

namespace ModuleInterop.Usage

open ModuleInterop.Syntax

/-- The text that a use is about lies in an interval, and there is some.  Of variables this says
nothing: whether they go depends on other uses. -/
def Use.Lies (source : List Char) (lo hi : Nat) : Use → Prop
  | .name _ span _ | .outerThis span | .typeofValue span _ =>
    span.Within source lo hi ∧ span.start < span.stop
  | .requiring call none => call.span.Within source lo hi ∧ call.span.start < call.span.stop
  | .requiring _ (some (span, _)) => span.Within source lo hi ∧ span.start < span.stop
  | .outerReturn | .exporting _ _ _ => True
  | .requiredVariable _ _ _ | .declared _ _ _ => False

end ModuleInterop.Usage

namespace ModuleInterop.Syntax

open ModuleInterop.Usage ModuleInterop.Text

variable {source : List Char} {lo hi : Nat} {context : Usage.Context}

namespace Node

/-- The statement that an expression is all of lies in an interval, and the expression lies in it. -/
def Homed (source : List Char) (lo hi : Nat) : Node → Prop
  | .expr place _ e =>
    ∀ span home, place.statement? = some (span, home) →
      span.Within source lo hi ∧ span.start ≤ e.span.start ∧ e.span.stop ≤ span.stop
  | _ => True

/-- Whether a node is a variable of a declaration. -/
def isDeclarator : Node → Bool
  | .declarator _ _ => true
  | _ => false

theorem unlessKnown_sublist (known : Option Bool) (dead : Bool) (node : Node) :
    (unlessKnown known dead node).Sublist [node] := by
  unfold unlessKnown
  split
  · exact List.nil_sublist _
  · exact List.Sublist.refl _

/-- Branches that are left out leave the order of the parts as it is. -/
theorem parts_sublist (known : Expr → Option Bool) (node : Node) :
    (node.parts known).Sublist (node.parts fun _ => none) := by
  cases node with
  | expr place concise e =>
    cases e with
    | conditional span test yes no =>
      exact ((unlessKnown_sublist _ _ _).append (unlessKnown_sublist _ _ _)).cons_cons _
    | _ => exact List.Sublist.refl _
  | stmt home concise s =>
    cases s with
    | ifElse span test yes no =>
      refine ((unlessKnown_sublist _ _ _).append ?_).cons_cons _
      cases no with
      | none => exact List.Sublist.refl _
      | some s =>
        have left := unlessKnown_sublist (known test) true (sole s)
        simpa [unlessKnown] using left
    | _ => exact List.Sublist.refl _
  | declarator home d =>
    cases d
    exact List.Sublist.refl _
  | switchCase c =>
    cases c
    exact List.Sublist.refl _
  | _ => exact List.Sublist.refl _

/-- The parts that are looked at come in the order of all parts. -/
theorem visited_sublist (context : Usage.Context) (node : Node) :
    (node.visited context).Sublist (node.parts Expr.truth?) := by
  cases node with
  | expr place concise e =>
    cases e with
    | unary span op operand =>
      cases op with
      | typeof =>
        simp only [visited]
        split
        · exact List.nil_sublist _
        · exact List.Sublist.refl _
      | _ => exact List.Sublist.refl _
    | assign span plain target value =>
      simp only [visited]
      split
      · exact List.sublist_cons_self _ _
      · exact List.Sublist.refl _
    | call span callee arguments =>
      simp only [visited]
      split
      · exact List.nil_sublist _
      · exact List.Sublist.refl _
    | _ => exact List.Sublist.refl _
  | declarator home d =>
    obtain ⟨span, target, init⟩ := d
    simp only [visited]
    split
    · exact List.nil_sublist _
    · exact List.Sublist.refl _
  | _ => exact List.Sublist.refl _

/-- The pieces of a node are its parts, with names between them. -/
theorem parts_sublist_pieces (node : Node) :
    ((node.parts fun _ => none).map bare).Sublist node.pieces := by
  unfold pieces
  split
  · simp [parts]
  · simp [parts]
  · simp [parts, List.append_assoc]
  · simp [parts]
  · simp

theorem visited_sublist_pieces (context : Usage.Context) (node : Node) :
    ((node.visited context).map bare).Sublist node.pieces :=
  (((node.visited_sublist context).trans (parts_sublist _ node)).map bare).trans
    node.parts_sublist_pieces

theorem frame_bare (node : Node) : node.bare.frame lo hi = node.frame lo hi := by
  cases node with
  | expr place concise e => cases e <;> rfl
  | stmt home concise s => cases s <;> rfl
  | declarator home d => cases d; rfl
  | _ => rfl

theorem fits_bare (node : Node) : node.bare.Fits source 0 lo hi = node.Fits source 0 lo hi := by
  cases node with
  | expr place concise e => cases e <;> rfl
  | stmt home concise s => cases s <;> rfl
  | declarator home d => cases d; rfl
  | _ => rfl

theorem leading_bare (node : Node) : node.bare.leading = node.leading := by
  cases node with
  | expr place concise e => cases e <;> rfl
  | _ => rfl

theorem inside_bare (node : Node) : node.bare.inside = node.inside := by
  have all := node.pieces_bare
  rw [← leading_append_inside, ← leading_append_inside node, leading_bare] at all
  exact List.append_cancel_left all

end Node

/-- What is known of conditions only leaves nodes out. -/
theorem Program.Reaches.unconditional {program : Program} {known : Expr → Option Bool}
    {enters : Node → Bool} {node : Node} (h : program.Reaches known enters node) :
    program.Reaches (fun _ => none) enters node := by
  induction h with
  | statement mem => exact .statement mem
  | part _ enters piece ih => exact .part ih enters ((Node.parts_sublist _ _).subset piece)

/-- What surrounds a node does not change where it is. -/
theorem Laid.of_bare {node : Node} (h : Laid source 0 lo hi node.bare) : Laid source 0 lo hi node := by
  obtain ⟨fits, leading, inside⟩ := h
  rw [node.fits_bare] at fits
  rw [node.frame_bare, node.leading_bare] at leading
  rw [node.frame_bare, node.inside_bare] at inside
  exact ⟨fits, leading, inside⟩

/-- The parts that are looked at are laid up to the end of the pieces inside. -/
theorem Laid.visited {node : Node} (h : Laid source 0 lo hi node) (context : Usage.Context) :
    LaidAll source 0 lo (node.frame lo hi).2 ((node.visited context).map Node.bare) :=
  h.pieces.sublist (node.visited_sublist_pieces context)

/-- Where no pieces stand before a node, the parts that are looked at are laid inside it. -/
theorem Laid.visited_inside {node : Node} (h : Laid source 0 lo hi node)
    (none : node.leading = []) (context : Usage.Context) :
    LaidAll source 0 (node.frame lo hi).1 (node.frame lo hi).2
      ((node.visited context).map Node.bare) := by
  have all := node.leading_append_inside
  rw [none, List.nil_append] at all
  exact (all ▸ h.inside).sublist (node.visited_sublist_pieces context)

/-- A path has text. -/
theorem Laid.text_of_path {e : Expr} {path : Nat × List String} (laid : Laid source 0 lo hi (.part e))
    (h : path? e = some path) : e.span.start < e.span.stop := by
  induction e using path?.induct generalizing lo hi path with
  | case1 span text => exact laid.fits.2.text
  | case2 span object property ih =>
    obtain ⟨inner, way, -⟩ := Option.map_eq_some_iff.mp h
    have piece : LaidAll source 0 span.start span.stop [.part object] := laid.inside
    have text := ih piece.head way
    have low := piece.span_within.lo_le
    have high := piece.span_within.le_hi
    show span.start < span.stop
    omega
  | case3 e other other' =>
    rw [path?.eq_3 e other other'] at h
    contradiction

/-- A call that an import can stand for has text. -/
theorem Laid.text_of_requireCall {place : Place} {concise : Bool} {e : Expr}
    {bindings : Scope.Bindings} {ignored : List String} {call : RequireCall}
    (laid : Laid source 0 lo hi (.expr place concise e))
    (static : requireCall? bindings ignored e = some call) : e.span.start < e.span.stop := by
  obtain ⟨callee, argument, rfl, -⟩ := requireCall?_eq_some static
  have pieces : LaidAll source 0 call.span.start call.span.stop
    [.part (.name callee "require"), .part argument] := laid.inside
  obtain ⟨mid, name, rest⟩ := pieces.tail
  obtain ⟨⟨low, -, high, -⟩, usable⟩ := name.head.fits
  have text : callee.start < callee.stop := usable.text
  have := rest.le
  show call.span.start < call.span.stop
  omega

/-- **A node is used before its parts**: its own uses lie before a position, and the parts that are
looked at after it. -/
theorem Laid.exists_mid {node : Node} (laid : Laid source 0 lo hi node)
    (homed : node.Homed source lo hi) (other : node.isVariables = false)
    (notDeclarator : node.isDeclarator = false) (context : Usage.Context) :
    ∃ mid, lo ≤ mid ∧ mid ≤ hi ∧ (∀ use ∈ node.own context, use.Lies source lo mid) ∧
      LaidAll source 0 mid hi ((node.visited context).map Node.bare) := by
  obtain ⟨low, high⟩ := laid.fits.frame_within
  -- Most nodes have no use of their own, and those that have one mostly hide or have no parts.
  have before (lies : ∀ use ∈ node.own context, use.Lies source lo lo) :
      ∃ mid, lo ≤ mid ∧ mid ≤ hi ∧ (∀ use ∈ node.own context, use.Lies source lo mid) ∧
        LaidAll source 0 mid hi ((node.visited context).map Node.bare) :=
    ⟨lo, Nat.le_refl _, laid.le, lies, (laid.visited context).mono (Nat.le_refl _) high⟩
  have alone (none : node.visited context = [])
      (lies : ∀ use ∈ node.own context, use.Lies source lo hi) :
      ∃ mid, lo ≤ mid ∧ mid ≤ hi ∧ (∀ use ∈ node.own context, use.Lies source lo mid) ∧
        LaidAll source 0 mid hi ((node.visited context).map Node.bare) :=
    ⟨hi, laid.le, Nat.le_refl _, lies, by rw [none]; exact .nil (Nat.le_refl _)⟩
  have named {span : Span} {text : String} {shorthand : Bool} {mid : Nat}
      (lies : span.Within source lo mid ∧ span.start < span.stop) :
      ∀ use ∈ usesOfName context span text shorthand, use.Lies source lo mid := by
    intro use mem
    obtain ⟨name, -, -, rfl⟩ := mem_usesOfName.mp mem
    exact lies
  cases node with
  | expr place concise e =>
    cases e with
    | name span text =>
      refine alone rfl ?_
      intro use mem
      simp only [Node.own] at mem
      split at mem
      · contradiction
      · exact named ⟨laid.fits.1, laid.fits.2.text⟩ use mem
    | this span =>
      refine alone rfl ?_
      intro use mem
      simp only [Node.own] at mem
      split at mem
      · contradiction
      · obtain rfl := List.mem_singleton.mp mem
        exact laid.fits
    | unary span op operand =>
      cases op with
      | typeof =>
        cases object : objectRoot? context.bindings operand with
        | none => exact before (by simp [Node.own, object])
        | some root =>
          refine alone (by simp [Node.visited, object]) ?_
          intro use mem
          obtain rfl : use = .typeofValue span root := by simpa [Node.own, object] using mem
          obtain ⟨_, _, path, -⟩ := objectRoot?_eq_some object
          have inside : LaidAll source 0 span.start span.stop [.part operand] := laid.inside
          have text := inside.head.text_of_path path
          have low := inside.span_within.lo_le
          have high := inside.span_within.le_hi
          exact ⟨laid.fits, by omega⟩
      | _ => exact before (by simp [Node.own])
    | assign span plain target value =>
      refine before ?_
      intro use mem
      simp only [Node.own, Option.mem_toList, Option.map_eq_some_iff] at mem
      obtain ⟨path, -, rfl⟩ := mem
      trivial
    | call span callee arguments =>
      cases static : requireCall? context.bindings context.ignored
          (.call span callee arguments) with
      | none => exact before (by simp [Node.own, static])
      | some call =>
        refine alone (by simp [Node.visited, static]) ?_
        intro use mem
        obtain rfl : use = .requiring call place.statement? := by
          simpa [Node.own, static] using mem
        have text := laid.text_of_requireCall static
        cases standing : place.statement? with
        | none =>
          obtain ⟨name, argument, same, -⟩ := requireCall?_eq_some static
          obtain ⟨rfl, -⟩ := Expr.call.inj same
          exact ⟨laid.fits, text⟩
        | some statement =>
          obtain ⟨within, start, stop⟩ := homed _ _ standing
          exact ⟨within, Nat.lt_of_le_of_lt start (Nat.lt_of_lt_of_le text stop)⟩
    | _ => exact before (by simp [Node.own])
  | property p =>
    cases p with
    | shorthand span name default =>
      exact alone rfl (named ⟨laid.fits.1, laid.fits.2.text⟩)
    | _ => exact before (by simp [Node.own])
  | pattern p =>
    cases p with
    | shorthand span name default =>
      have visited := laid.visited_inside rfl context
      have within : name.span.Within source lo name.span.stop :=
        { laid.fits.1 with le_hi := Nat.le_refl _ }
      exact ⟨_, low, Nat.le_trans visited.le high, named ⟨within, laid.fits.2.text⟩,
        visited.mono (Nat.le_refl _) high⟩
    | _ => exact before (by simp [Node.own])
  | stmt home concise s =>
    cases s with
    | «variables» span kind list => contradiction
    | returning span value =>
      refine before ?_
      intro use mem
      simp only [Node.own] at mem
      split at mem
      · contradiction
      · obtain rfl := List.mem_singleton.mp mem
        trivial
    | _ => exact before (by simp [Node.own])
  | declarator home d => contradiction
  | specifier s => exact alone rfl (named ⟨laid.fits.1, laid.fits.2.1⟩)
  | _ => exact before (by simp [Node.own])

/-- A node has at most one use of its own. -/
theorem Node.own_eq_toList (context : Usage.Context) (node : Node) :
    ∃ use : Option Use, node.own context = use.toList := by
  have named (span : Span) (text : String) (shorthand : Bool) :
      ∃ use : Option Use, usesOfName context span text shorthand = use.toList := by
    unfold usesOfName
    split
    · split
      · exact ⟨some _, rfl⟩
      · exact ⟨none, rfl⟩
    · exact ⟨none, rfl⟩
  unfold Node.own
  split
  · split
    · split
      · exact ⟨none, rfl⟩
      · exact named _ _ _
    · split
      · exact ⟨none, rfl⟩
      · exact ⟨some _, rfl⟩
    · exact ⟨_, rfl⟩
    · exact ⟨_, rfl⟩
    · exact ⟨_, rfl⟩
    · exact ⟨none, rfl⟩
  · exact named _ _ _
  · exact named _ _ _
  · exact ⟨some _, rfl⟩
  · split
    · exact ⟨none, rfl⟩
    · exact ⟨some _, rfl⟩
  · exact ⟨_, rfl⟩
  · exact named _ _ _
  · exact ⟨none, rfl⟩

/-- The parts of a node know of no statement that they are all of, or the node has one part and no
use of its own. -/
theorem Laid.homed_visited {node : Node} (laid : Laid source 0 lo hi node)
    (homed : node.Homed source lo hi) (context : Usage.Context) :
    (∀ inner ∈ node.visited context, ∀ lo hi, inner.Homed source lo hi) ∨
      ∃ inner, node.visited context = [inner] ∧ node.own context = [] ∧
        inner.Homed source lo hi := by
  have plain {e : Expr} {place : Place} {concise : Bool} (none : place.statement? = none)
      (lo hi : Nat) : (Node.expr place concise e).Homed source lo hi := by
    intro span home standing
    rw [none] at standing
    contradiction
  by_cases special : ∃ place concise span e, node = .expr place concise (.chain span e)
  · obtain ⟨place, concise, span, e, rfl⟩ := special
    refine .inr ⟨_, rfl, rfl, ?_⟩
    intro whole home standing
    rw [Place.statement?_inChain] at standing
    obtain ⟨within, start, stop⟩ := homed whole home standing
    have inner := LaidAll.span_within laid.inside
    exact ⟨within, Nat.le_trans start inner.lo_le, Nat.le_trans inner.le_hi stop⟩
  by_cases special' : ∃ home concise span e, node = .stmt home concise (.expression span e)
  · obtain ⟨home, concise, span, e, rfl⟩ := special'
    refine .inr ⟨_, rfl, rfl, ?_⟩
    intro span home standing
    obtain ⟨rfl, rfl⟩ := Prod.mk.inj (Option.some.inj standing)
    exact ⟨laid.fits.1, laid.fits.2, (LaidAll.span_within laid.inside).le_hi⟩
  · refine .inl ?_
    intro inner mem
    have among := Node.mem_parts_iff.mpr (.inl mem)
    cases Node.shape_of_mem_parts among with
    | part => exact plain rfl
    | default => exact plain rfl
    | chain => exact absurd ⟨_, _, _, _, rfl⟩ special
    | expression => exact absurd ⟨_, _, _, _, rfl⟩ special'
    | _ => exact fun _ _ => trivial

/-- Only a declaration has variables among the parts that are looked at. -/
theorem Node.not_declarator_of_mem_visited {node inner : Node} {context : Usage.Context}
    (other : node.isVariables = false) (mem : inner ∈ node.visited context) :
    inner.isDeclarator = false := by
  have among := Node.mem_parts_iff.mpr (.inl mem)
  cases Node.shape_of_mem_parts among with
  | declarator => contradiction
  | _ => rfl

/-- The parts of a variable know of no statement that they are all of. -/
theorem Node.homed_of_declarator {home : Home} {d : Declarator} {inner : Node}
    (mem : inner ∈ (Node.declarator home d).visited context) (lo hi : Nat) :
    inner.Homed source lo hi := by
  have among := Node.mem_parts_iff.mpr (.inl mem)
  generalize same : Node.declarator home d = node at among
  cases Node.shape_of_mem_parts among with
  | part | default =>
    intro span home standing
    contradiction
  | chain | expression => cases same
  | _ => trivial

end ModuleInterop.Syntax
