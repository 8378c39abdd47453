import ModuleInterop.Detection
import ModuleInterop.Proofs.Conversion.Apart

/-!
# Imports and exports of a module that is converted

A conversion may edit the values in an import or export of the module, but not the statement around
them.  Values are expressions, and what the uses in one call for is edited in its span, or in the
decorators of the class that it is, which stand before the span (`Findings.owned_of_laid`, by induction
on the expression).  Declared variables hold values as initial values and in patterns
(`Findings.owned_of_pattern`, by induction on the pattern); a function or a class is edited after its
name.  All other statements are edited elsewhere, so what makes the statement an import or export
is copied (`Emitted.retained`).
-/

set_option autoImplicit false

namespace ModuleInterop.Syntax

open ModuleInterop.Usage

/-! ## Stretches of values -/

/-- A stretch of the text belongs to an expression: it stands in its span, or in a decorator of the
class that it is. -/
inductive Expr.Owns : Expr → Nat → Nat → Prop
  | span {e : Expr} {start stop : Nat} (low : e.span.start ≤ start) (high : stop ≤ e.span.stop) :
    Owns e start stop
  | decorator {span : Span} {named : Bool} {decorators : List Expr} {name : Option Name}
    {heritage : Option Expr} {members : List Member} {d : Expr} {start stop : Nat}
    (mem : d ∈ decorators) (owns : d.Owns start stop) :
    Owns (.class span named decorators name heritage members) start stop

/-- A stretch of the text belongs to one of the values in a pattern: a key in brackets, a default, or
a place that is stored to. -/
inductive Pattern.Owns : Pattern → Nat → Nat → Prop
  | place {place : Expr} {start stop : Nat} (owns : place.Owns start stop) :
    Owns (.target place) start stop
  | inner {span : Span} {inner : Pattern} {default : Expr} {start stop : Nat}
    (owns : inner.Owns start stop) : Owns (.withDefault span inner default) start stop
  | default {span : Span} {inner : Pattern} {default : Expr} {start stop : Nat}
    (owns : default.Owns start stop) : Owns (.withDefault span inner default) start stop
  | element {span : Span} {elements : List Pattern} {p : Pattern} {start stop : Nat}
    (mem : p ∈ elements) (owns : p.Owns start stop) : Owns (.array span elements) start stop
  | entry {span : Span} {properties : List Pattern} {p : Pattern} {start stop : Nat}
    (mem : p ∈ properties) (owns : p.Owns start stop) : Owns (.object span properties) start stop
  | computed {span : Span} {computed : Option Expr} {value : Pattern} {e : Expr} {start stop : Nat}
    (mem : e ∈ computed) (owns : e.Owns start stop) : Owns (.property span computed value) start stop
  | value {span : Span} {computed : Option Expr} {value : Pattern} {start stop : Nat}
    (owns : value.Owns start stop) : Owns (.property span computed value) start stop
  | name {span : Span} {name : Name} {default : Option Expr} {start stop : Nat}
    (low : name.span.start ≤ start) (high : stop ≤ name.span.stop) :
    Owns (.shorthand span name default) start stop
  | shorthand {span : Span} {name : Name} {default : Option Expr} {e : Expr} {start stop : Nat}
    (mem : e ∈ default) (owns : e.Owns start stop) :
    Owns (.shorthand span name default) start stop
  | rest {span : Span} {inner : Pattern} {start stop : Nat} (owns : inner.Owns start stop) :
    Owns (.rest span inner) start stop

/-- A stretch of the text belongs to the initial value of a variable, or to a value in the pattern
that is declared. -/
def Declarator.Owns : Declarator → Nat → Nat → Prop
  | .mk _ target init, start, stop => target.Owns start stop ∨ ∃ e ∈ init, e.Owns start stop

/-- A stretch of the text comes after the name of a function or a class, or belongs to a decorator of
the class. -/
def Expr.Follows : Expr → Nat → Nat → Prop
  | .function span _ named _ _, start, stop =>
    (span.start ≤ start ∧ stop ≤ span.stop) ∧ ∀ n ∈ named, n.span.stop ≤ start
  | .class span _ decorators named _ _, start, stop =>
    ((span.start ≤ start ∧ stop ≤ span.stop) ∧ ∀ n ∈ named, n.span.stop ≤ start) ∨
      ∃ d ∈ decorators, d.Owns start stop
  | e, start, stop => e.Owns start stop

/-- A stretch of the text belongs to what a default export exports, or is a name that an export list
takes from the module. -/
def Stmt.Yields : Stmt → Nat → Nat → Prop
  | .exportDefault _ value, start, stop | .exportDefaultDeclaration _ value, start, stop =>
    value.Owns start stop
  | .exportNames _ specifiers none, start, stop =>
    ∃ s ∈ specifiers, s.inner.span.start ≤ start ∧ stop ≤ s.inner.span.stop
  | _, _, _ => False

/-- A stretch of the text belongs to one of the values that a declaration gives to what it
declares. -/
def Stmt.Assigns : Stmt → Nat → Nat → Prop
  | .variables _ _ list, start, stop => ∃ d ∈ list, d.Owns start stop
  | .declaration value, start, stop => value.Follows start stop
  | _, _, _ => False

/-- A stretch of the text belongs to one of the values in an import or export.  An import has none,
nor has an export of what another module exports. -/
def Stmt.Hosts : Stmt → Nat → Nat → Prop
  | .exportDefaultDeclaration _ value, start, stop => value.Follows start stop
  | .exportDeclaration _ declared, start, stop => declared.Assigns start stop
  | s, start, stop => s.Yields start stop

/-- A stretch of the text is outside a statement, or belongs to one of the values in it. -/
def Stmt.Spares (s : Stmt) (start stop : Nat) : Prop :=
  stop ≤ s.span.start ∨ s.span.stop ≤ start ∨ s.Hosts start stop

/-- What follows the name of a function or a class belongs to it. -/
theorem Expr.Follows.owns {e : Expr} {start stop : Nat} (h : e.Follows start stop) :
    e.Owns start stop := by
  cases e with
  | function span form name parameters body => exact .span h.1.1 h.1.2
  | «class» span named decorators name heritage members =>
    rcases h with ⟨inside, -⟩ | ⟨d, mem, owns⟩
    · exact .span inside.1 inside.2
    · exact .decorator mem owns
  | _ => exact h

/-- A default export is an export. -/
theorem Stmt.isModuleItem_of_exportsDefault {s : Stmt} (exports : s.exportsDefault = true) :
    s.isModuleItem = true := by
  cases s <;> first | rfl | contradiction

/-- The values in a default export are what it exports. -/
theorem Stmt.Hosts.yields {s : Stmt} {start stop : Nat} (h : s.Hosts start stop)
    (exports : s.exportsDefault = true) : s.Yields start stop := by
  cases s with
  | exportDefaultDeclaration span value => exact Expr.Follows.owns h
  | exportDeclaration span declaration => contradiction
  | _ => exact h

variable {source : List Char} {lo hi : Nat}

/-- An import or export lies in the interval that it is laid in. -/
theorem Laid.within_of_isModuleItem {s : Stmt} (laid : Laid source 0 lo hi (.listed s))
    (item : s.isModuleItem = true) : s.span.Within source lo hi := by
  cases s with
  | importing span bindings | exportDefault span value | exportDefaultDeclaration span value
  | exportDeclaration span declaration | exportNames span specifiers taken
  | exportAll span exported => exact laid.fits.1
  | _ => contradiction

/-- An entry of an export list is laid in the span of the name that it takes. -/
theorem Laid.tight_specifier {s : ExportSpecifier} (laid : Laid source 0 lo hi (.specifier s)) :
    Laid source 0 s.inner.span.start s.inner.span.stop (.specifier s) := by
  have within := laid.fits.1
  exact ⟨⟨{ within with lo_le := Nat.le_refl _, le_hi := Nat.le_refl _ }, laid.fits.2⟩,
    .nil (Nat.le_refl _), .nil within.ordered⟩

end ModuleInterop.Syntax

namespace ModuleInterop.Conversion

open ModuleInterop.Syntax ModuleInterop.Scope ModuleInterop.Usage ModuleInterop.Patch
  ModuleInterop.Text

variable {source : List Char} {lo hi : Nat} {frame : Frame} {context : Usage.Context}

namespace Findings

variable {findings before middle after : Findings} {P Q : Nat → Nat → Prop}

/-- Later findings have edits of some stretches of the text besides the earlier ones. -/
def Adds (P : Nat → Nat → Prop) (before after : Findings) : Prop :=
  ∃ added, after.edits = before.edits ++ added ∧ ∀ e ∈ added, P e.start e.stop

theorem Adds.mono (h : Adds P before after) (weaker : ∀ start stop, P start stop → Q start stop) :
    Adds Q before after := by
  obtain ⟨added, edits, all⟩ := h
  exact ⟨added, edits, fun e mem => weaker _ _ (all e mem)⟩

theorem Adds.refl (findings : Findings) : Adds P findings findings :=
  ⟨[], (List.append_nil _).symm, by simp⟩

theorem Adds.trans (h : Adds P before middle) (h' : Adds P middle after) :
    Adds P before after := by
  obtain ⟨added, edits, all⟩ := h
  obtain ⟨added', edits', all'⟩ := h'
  refine ⟨added ++ added', by rw [edits', edits, List.append_assoc], ?_⟩
  intro e mem
  exact (List.mem_append.mp mem).elim (all e) (all' e)

/-- What is added in an interval is added inside it. -/
theorem Extends.adds (h : Extends source lo hi before after) :
    Adds (fun start stop => lo ≤ start ∧ stop ≤ hi) before after := by
  obtain ⟨added, edits, confined⟩ := h.edits
  exact ⟨added, edits, confined.within⟩

/-- A node that no statement is all of, and no variable of a declaration. -/
def Plain (source : List Char) (node : Node) : Prop :=
  node.isDeclarator = false ∧ ∀ lo hi, node.Homed source lo hi

theorem plain_expr {place : Place} {concise : Bool} (alone : place.statement? = none) (e : Expr) :
    Plain source (.expr place concise e) := by
  refine ⟨rfl, ?_⟩
  intro lo hi span home standing
  rw [alone] at standing
  contradiction

theorem plain_part (source : List Char) (e : Expr) : Plain source (.part e) := plain_expr rfl e

theorem plain_parts {es : List Expr} : ∀ node ∈ es.map Node.part, Plain source node := by
  intro node mem
  obtain ⟨e, -, rfl⟩ := List.mem_map.mp mem
  exact plain_part source e

theorem plain_pattern (source : List Char) (p : Pattern) : Plain source (.pattern p) :=
  ⟨rfl, fun _ _ => trivial⟩

/-- Nodes that follow one another edit the stretch that they are laid in. -/
theorem extends_nodes (frame : Frame) (context : Usage.Context) {nodes : List Node}
    (laid : LaidAll source 0 lo hi (nodes.map Node.bare))
    (plain : ∀ node ∈ nodes, Plain source node) (past : ∀ s ∈ findings.elided, s.start < lo) :
    Extends source lo hi findings
      ((nodes.flatMap (usesOfNode context)).foldl (step frame) findings) := by
  refine extends_all laid ?_ (fun node mem => (plain node mem).2) past
  intro node mem lo hi findings laid homed past
  exact extends_laid frame context laid homed (plain node mem).1 past

/-- What a node that is laid somewhere adds to findings from before it. -/
def AddedBy (source : List Char) (frame : Frame) (context : Usage.Context) (P : Nat → Nat → Prop)
    (node : Node) : Prop :=
  ∀ lo hi (findings : Findings), Laid source 0 lo hi node → (∀ s ∈ findings.elided, s.start < lo) →
    Adds P findings ((usesOfNode context node).foldl (step frame) findings)

/-- Nodes that follow one another, each of which edits only some stretches of the text. -/
theorem adds_nodes (frame : Frame) (context : Usage.Context) {nodes : List Node}
    (laid : LaidAll source 0 lo hi (nodes.map Node.bare))
    (plain : ∀ node ∈ nodes, Plain source node)
    (each : ∀ node ∈ nodes, AddedBy source frame context P node)
    (past : ∀ s ∈ findings.elided, s.start < lo) :
    Adds P findings ((nodes.flatMap (usesOfNode context)).foldl (step frame) findings) := by
  induction nodes generalizing lo findings with
  | nil => exact .refl findings
  | cons node nodes ih =>
    cases laid with
    | cons first others =>
      obtain ⟨notDeclarator, homed⟩ := plain node List.mem_cons_self
      have here := each node List.mem_cons_self _ _ findings first.of_bare past
      have passed := (extends_laid frame context first.of_bare (homed _ _) notDeclarator past).past
        first.le past
      rw [List.flatMap_cons, List.foldl_append]
      exact here.trans (ih others (fun n mem => plain n (List.mem_cons_of_mem _ mem))
        (fun n mem => each n (List.mem_cons_of_mem _ mem)) passed)

/-! ## Values -/

/-- The uses in a class edit its decorators, and what follows its name. -/
theorem follows_class (frame : Frame) (context : Usage.Context) {place : Place} {concise : Bool}
    {span : Span} {named : Bool} {decorators : List Expr} {name : Option Name}
    {heritage : Option Expr} {members : List Member}
    (laid : Laid source 0 lo hi
      (.expr place concise (.class span named decorators name heritage members)))
    (each : ∀ d ∈ decorators, AddedBy source frame context.within d.Owns (.part d))
    (past : ∀ s ∈ findings.elided, s.start < lo) :
    Adds (Expr.class span named decorators name heritage members).Follows findings
      ((usesOfNode context
        (.expr place concise (.class span named decorators name heritage members))).foldl
          (step frame) findings) := by
  have visited : (Node.expr place concise
      (.class span named decorators name heritage members)).visited context =
        decorators.map .part ++ (heritage.toList.map .part ++ members.map .member) :=
    List.append_assoc _ _ _
  have within : context.inside
      (.expr place concise (.class span named decorators name heritage members)) =
        context.within := by
    simp [Context.inside, Context.within, Node.isBody]
  have decorated : LaidAll source 0 lo span.start ((decorators.map Node.part).map Node.bare) := by
    have leading : LaidAll source 0 lo span.start (decorators.map Node.part) := laid.leading
    simpa using leading
  have inside : LaidAll source 0 span.start span.stop (name.toList.map .bound ++
      (heritage.toList.map Node.part ++ members.map Node.member)) := laid.inside
  obtain ⟨mid, names, rest⟩ := inside.exists_mid
  have rest : LaidAll source 0 mid span.stop
      ((heritage.toList.map Node.part ++ members.map Node.member).map Node.bare) := by
    simpa using rest
  have behind : ∀ n ∈ name, n.span.stop ≤ mid := by
    rintro n rfl
    exact names.head.fits.1.le_hi
  have plain : ∀ node ∈ heritage.toList.map Node.part ++ members.map Node.member,
      Plain source node := by
    intro node mem
    rcases List.mem_append.mp mem with mem | mem
    · exact plain_parts node mem
    · obtain ⟨m, -, rfl⟩ := List.mem_map.mp mem
      exact ⟨rfl, fun _ _ => trivial⟩
  have passed := (extends_nodes frame context.within decorated plain_parts past).past
    decorated.le past
  have passed : ∀ s ∈ (((decorators.map Node.part).flatMap (usesOfNode context.within)).foldl
      (step frame) findings).elided, s.start < mid := fun s mem =>
    Nat.lt_of_lt_of_le (passed s mem) names.le
  rw [usesOfNode_eq rfl, visited, within]
  show Adds _ findings (List.foldl _ _ (List.flatMap _ _))
  rw [List.flatMap_append, List.foldl_append]
  refine (adds_nodes frame _ decorated plain_parts ?_ past).trans
    ((extends_nodes frame _ rest plain passed).adds.mono ?_)
  · intro node mem lo hi findings laid past
    obtain ⟨d, among, rfl⟩ := List.mem_map.mp mem
    exact (each d among _ _ _ laid past).mono fun _ _ owns => .inr ⟨d, among, owns⟩
  · rintro start stop ⟨low, high⟩
    exact .inl ⟨⟨Nat.le_trans names.le low, high⟩, fun n mem => Nat.le_trans (behind n mem) low⟩

/-- **The uses in an expression edit what belongs to it.** -/
theorem owned_of_laid (frame : Frame) (context : Usage.Context) {place : Place} {concise : Bool}
    {e : Expr} (alone : place.statement? = none) :
    AddedBy source frame context e.Owns (.expr place concise e) := by
  -- Decorators are smaller than their class.
  induction hn : sizeOf e using Nat.strongRecOn generalizing context e place concise with
  | ind n ih =>
    subst hn
    intro lo hi findings laid past
    have within := laid.fits.span_within
    have tight (none : (Node.expr place concise e).leading = []) :
        Adds e.Owns findings ((usesOfNode context (.expr place concise e)).foldl (step frame)
          findings) := by
      have past : ∀ s ∈ findings.elided, s.start < e.span.start := fun s mem =>
        Nat.lt_of_lt_of_le (past s mem) within.lo_le
      exact (extends_laid frame context (laid.tight none) ((plain_expr alone e).2 _ _) rfl past).adds.mono
        fun _ _ h => .span h.1 h.2
    cases e with
    | «class» span named decorators name heritage members =>
      refine (follows_class frame context laid ?_ past).mono fun _ _ => Expr.Follows.owns
      intro d among
      have smaller : sizeOf d < sizeOf (Expr.class span named decorators name heritage members) := by
        have := List.sizeOf_lt_of_mem among
        simp only [Expr.class.sizeOf_spec]
        omega
      exact ih _ smaller context.within rfl rfl
    | _ => exact tight rfl

/-- The uses in a function or a class edit what follows its name. -/
theorem follows_of_laid (frame : Frame) (context : Usage.Context) {e : Expr} :
    AddedBy source frame context e.Follows (.part e) := by
  intro lo hi findings laid past
  cases e with
  | function span form name parameters body =>
    have inside : LaidAll source 0 span.start span.stop (name.toList.map .bound ++
        (parameters.map .pattern ++ body.map .listed)) := laid.inside
    obtain ⟨mid, names, rest⟩ := inside.exists_mid
    have visited : (Node.part (.function span form name parameters body)).visited context =
        parameters.map .pattern ++ body.map (.stmt .list (form = .arrow true)) := rfl
    have rest : LaidAll source 0 mid span.stop
        ((parameters.map Node.pattern ++ body.map (Node.stmt .list (form = .arrow true))).map
          Node.bare) := by
      simpa using rest
    have behind : ∀ n ∈ name, n.span.stop ≤ mid := by
      rintro n rfl
      exact names.head.fits.1.le_hi
    have plain : ∀ node ∈ parameters.map .pattern ++
        body.map (Node.stmt .list (form = .arrow true)), Plain source node := by
      intro node mem
      rcases List.mem_append.mp mem with mem | mem
      · obtain ⟨p, -, rfl⟩ := List.mem_map.mp mem
        exact plain_pattern source p
      · obtain ⟨s, -, rfl⟩ := List.mem_map.mp mem
        exact ⟨rfl, fun _ _ => trivial⟩
    have low : lo ≤ mid := Nat.le_trans laid.fits.lo_le names.le
    have past : ∀ s ∈ findings.elided, s.start < mid := fun s mem =>
      Nat.lt_of_lt_of_le (past s mem) low
    rw [usesOfNode_eq rfl, visited]
    refine (extends_nodes frame _ rest plain past).adds.mono fun start stop h => ?_
    exact ⟨⟨Nat.le_trans names.le h.1, h.2⟩, fun n mem => Nat.le_trans (behind n mem) h.1⟩
  | «class» span named decorators name heritage members =>
    refine follows_class frame context laid ?_ past
    exact fun d _ => owned_of_laid frame context.within rfl
  | _ => exact owned_of_laid frame context rfl _ _ _ laid past

/-- What is looked at in a pattern are values in it, and smaller patterns. -/
theorem mem_visited_pattern {p : Pattern} {inner : Node}
    (mem : inner ∈ (Node.pattern p).visited context) :
    (∃ place e, place.statement? = none ∧ inner = .expr place false e ∧
      ∀ start stop, e.Owns start stop → p.Owns start stop) ∨
    ∃ q, sizeOf q < sizeOf p ∧ inner = .pattern q ∧
      ∀ start stop, q.Owns start stop → p.Owns start stop := by
  have smaller := Node.size_lt_of_mem_parts (Node.mem_parts_iff.mpr (.inl mem))
  have value {place : Place} {e : Expr} (alone : place.statement? = none)
      (same : inner = .expr place false e)
      (owns : ∀ start stop, e.Owns start stop → p.Owns start stop) :
      ∃ place e, place.statement? = none ∧ inner = .expr place false e ∧
        ∀ start stop, e.Owns start stop → p.Owns start stop := ⟨place, e, alone, same, owns⟩
  have pattern {q : Pattern} (same : inner = .pattern q)
      (owns : ∀ start stop, q.Owns start stop → p.Owns start stop) :
      ∃ q, sizeOf q < sizeOf p ∧ inner = .pattern q ∧
        ∀ start stop, q.Owns start stop → p.Owns start stop :=
    ⟨q, by rw [same] at smaller; exact smaller, same, owns⟩
  cases p with
  | binding name => contradiction
  | target place =>
    obtain rfl := List.mem_singleton.mp mem
    exact .inl (value rfl rfl fun _ _ => .place)
  | withDefault span q default =>
    rcases List.mem_cons.mp mem with same | mem
    · exact .inr (pattern same fun _ _ => .inner)
    · obtain rfl := List.mem_singleton.mp mem
      exact .inl (value rfl rfl fun _ _ => .default)
  | array span elements =>
    obtain ⟨q, among, same⟩ := List.mem_map.mp mem
    exact .inr (pattern same.symm fun _ _ => .element among)
  | object span properties =>
    obtain ⟨q, among, same⟩ := List.mem_map.mp mem
    exact .inr (pattern same.symm fun _ _ => .entry among)
  | property span computed q =>
    rcases List.mem_append.mp mem with mem | mem
    · obtain ⟨e, among, rfl⟩ := List.mem_map.mp mem
      exact .inl (value rfl rfl fun _ _ => .computed (Option.mem_toList.mp among))
    · exact .inr (pattern (List.mem_singleton.mp mem) fun _ _ => .value)
  | shorthand span name default =>
    obtain ⟨e, among, rfl⟩ := List.mem_map.mp mem
    exact .inl (value rfl rfl fun _ _ => .shorthand (Option.mem_toList.mp among))
  | rest span q => exact .inr (pattern (List.mem_singleton.mp mem) fun _ _ => .rest)

/-- **The uses in a pattern edit the values in it.** -/
theorem owned_of_pattern (frame : Frame) (context : Usage.Context) (p : Pattern) :
    AddedBy source frame context p.Owns (.pattern p) := by
  induction hn : sizeOf p using Nat.strongRecOn generalizing p with
  | ind n ih =>
    subst hn
    intro lo hi findings laid past
    have plain : ∀ node ∈ (Node.pattern p).visited context, Plain source node := by
      intro node mem
      rcases mem_visited_pattern mem with ⟨place, e, alone, rfl, -⟩ | ⟨q, -, rfl, -⟩
      · exact plain_expr alone e
      · exact plain_pattern source q
    have each : ∀ node ∈ (Node.pattern p).visited context,
        AddedBy source frame context p.Owns node := by
      intro node mem lo hi findings laid past
      rcases mem_visited_pattern mem with ⟨place, e, alone, rfl, owns⟩ | ⟨q, smaller, rfl, owns⟩
      · exact (owned_of_laid frame context alone lo hi findings laid past).mono owns
      · exact (ih _ smaller q rfl lo hi findings laid past).mono owns
    -- Only a name that is stored to is a use of its own.
    have own : Adds p.Owns findings (((Node.pattern p).own context).foldl (step frame) findings) ∧
        ∀ s ∈ (((Node.pattern p).own context).foldl (step frame) findings).elided,
          s.start < ((Node.pattern p).frame lo hi).1 := by
      cases p with
      | shorthand span name default =>
        have within := laid.fits.1
        have here : Extends source name.span.start name.span.stop findings
            (((Node.pattern (.shorthand span name default)).own context).foldl (step frame)
              findings) := by
          refine extends_own fun use mem => ?_
          obtain ⟨name, -, -, rfl⟩ := mem_usesOfName.mp mem
          exact ⟨{ within with lo_le := Nat.le_refl _, le_hi := Nat.le_refl _ }, laid.fits.2.text⟩
        have passed : ∀ s ∈ findings.elided, s.start < name.span.start := fun s mem =>
          Nat.lt_of_lt_of_le (past s mem) within.lo_le
        exact ⟨here.adds.mono fun _ _ h => .name h.1 h.2, here.past within.ordered passed⟩
      | _ => exact ⟨.refl findings, past⟩
    rw [usesOfNode_eq rfl, Context.inside_of_not_isBody rfl, List.foldl_append]
    exact own.1.trans
      (adds_nodes frame context (laid.visited_inside rfl context) plain each own.2)

/-! ## Declarations that are exported -/

/-- A variable that is exported where it is declared does not become an import. -/
theorem requiredVariable?_exported (context : Usage.Context) (d : Declarator) :
    requiredVariable? context .exported d = none := by
  cases taken : requiredVariable? context .exported d with
  | none => rfl
  | some use =>
    obtain ⟨_, _, _, _, -, -, -, kept, -⟩ := requiredVariable?_eq_some taken
    exact absurd rfl kept

/-- **Variables that are exported** are edited in their values, and none of them goes. -/
theorem assigns_declarators (frame : Frame) (context : Usage.Context) {list : List Declarator}
    (laid : LaidAll source 0 lo hi (list.map (.declarator .list)))
    (past : ∀ s ∈ findings.elided, s.start < lo) :
    Adds (fun start stop => ∃ d ∈ list, d.Owns start stop) findings
        ((usesOfDeclarators context .exported list).foldl (step frame) findings) ∧
      Extends source lo hi findings
        ((usesOfDeclarators context .exported list).foldl (step frame) findings) ∧
      ∀ d ∈ list, declaratorSpan d ∉
        ((usesOfDeclarators context .exported list).foldl (step frame) findings).elided := by
  induction list generalizing lo findings with
  | nil => exact ⟨.refl findings, .of_eq rfl rfl, by simp⟩
  | cons d list ih =>
    obtain ⟨span, target, init⟩ := d
    rw [List.map_cons] at laid
    cases laid with
    | cons first others =>
      rename_i mid
      have within := first.fits.1
      have text := first.fits.2
      have low := within.lo_le
      have high := within.le_hi
      have after := others.le
      let nodes := Node.pattern target :: init.toList.map Node.part
      have inside : LaidAll source 0 span.start span.stop (nodes.map Node.bare) := first.inside
      have uses : usesOfDeclarators context .exported (.mk span target init :: list) =
          nodes.flatMap (usesOfNode context) ++ usesOfDeclarators context .exported list := by
        simp [usesOfDeclarators, requiredVariable?_exported, nodes,
          usesOfOptional_eq_flatMap, List.flatMap_map]
      have plain : ∀ node ∈ nodes, Plain source node := by
        intro node mem
        rcases List.mem_cons.mp mem with rfl | mem
        · exact plain_pattern source target
        · exact plain_parts node mem
      have each : ∀ node ∈ nodes,
          AddedBy source frame context (Declarator.mk span target init).Owns node := by
        intro node mem lo hi findings laid past
        rcases List.mem_cons.mp mem with rfl | mem
        · exact (owned_of_pattern frame context target _ _ _ laid past).mono fun _ _ => .inl
        · obtain ⟨e, among, rfl⟩ := List.mem_map.mp mem
          exact (owned_of_laid frame context rfl _ _ _ laid past).mono fun _ _ owns =>
            .inr ⟨e, Option.mem_toList.mp among, owns⟩
      have past : ∀ s ∈ findings.elided, s.start < span.start := fun s mem => by
        have := past s mem
        omega
      have here := extends_nodes frame context inside plain past
      have passed : ∀ s ∈ ((nodes.flatMap (usesOfNode context)).foldl (step frame)
          findings).elided, s.start < mid := fun s mem => by
        have := here.past within.ordered past s mem
        omega
      obtain ⟨rest, extends', stay⟩ := ih others passed
      rw [uses, List.foldl_append]
      refine ⟨?_, (here.mono low high).trans extends' first.le after, ?_⟩
      · refine Adds.trans ((adds_nodes frame context inside plain each past).mono ?_) (rest.mono ?_)
        · exact fun _ _ owns => ⟨_, List.mem_cons_self, owns⟩
        · rintro _ _ ⟨d, mem, owns⟩
          exact ⟨d, List.mem_cons_of_mem _ mem, owns⟩
      · intro d mem gone
        rcases List.mem_cons.mp mem with rfl | mem
        · obtain ⟨here, elided, inside⟩ := here.elided
          obtain ⟨later, elided', inside'⟩ := extends'.elided
          rw [elided', elided, List.append_assoc, List.mem_append, List.mem_append] at gone
          simp only [declaratorSpan] at gone
          rcases gone with gone | gone | gone
          · exact absurd (past span gone) (Nat.lt_irrefl _)
          · exact absurd (inside span gone).1 (Nat.lt_irrefl _)
          · have := (inside' span gone).1
            omega
        · exact stay d mem gone

/-- The uses in a declaration that is exported edit the values that it gives. -/
theorem assigns_of_isDeclaration (frame : Frame) (context : Usage.Context) {s : Stmt}
    (declares : s.isDeclaration = true) (laid : Laid source 0 lo hi (.listed s))
    (past : ∀ s ∈ findings.elided, s.start < lo) :
    Adds s.Assigns findings ((usesOfStmt context .exported s).foldl (step frame) findings) := by
  cases s with
  | «variables» span kind list =>
    have inside : LaidAll source 0 (span.start + 1) span.stop (list.map (.declarator .list)) := by
      have inside : LaidAll source 0 (span.start + 1) span.stop
          ((list.map (Node.declarator .list)).map Node.bare) := laid.inside
      simpa using inside
    have past : ∀ s ∈ findings.elided, s.start < span.start + 1 := fun s mem => by
      have low : lo ≤ span.start := Span.Within.lo_le laid.fits
      have := past s mem
      omega
    obtain ⟨values, -, stay⟩ := assigns_declarators frame context inside past
    -- No variable goes, so the end of the declaration calls for nothing.
    have nothing (findings : Findings) (stay : ∀ d ∈ list, declaratorSpan d ∉ findings.elided) :
        findings.step frame (.declared span .exported (list.map declaratorSpan)) = findings := by
      have none : ((list.map declaratorSpan).map fun s =>
          (s, findings.elided.contains s)).any (·.2) = false := by
        simpa using stay
      simp only [step, elide, none, Bool.not_false, if_true]
    rw [usesOfStmt, List.foldl_append, List.foldl_cons, List.foldl_nil, nothing _ stay]
    exact values
  | declaration value => exact follows_of_laid frame context lo hi findings laid.inside.head past
  | _ => contradiction

/-- **The uses in an import or export edit the values in it.** -/
theorem adds_of_isModuleItem (frame : Frame) (context : Usage.Context) {s : Stmt}
    (item : s.isModuleItem = true) (laid : Laid source 0 lo hi (.listed s))
    (past : ∀ s ∈ findings.elided, s.start < lo) :
    Adds s.Hosts findings ((usesOfStmt context .body s).foldl (step frame) findings) := by
  cases s with
  | importing span bindings | exportAll span exported => exact .refl findings
  | exportDefault span value =>
    exact owned_of_laid frame context rfl lo hi findings laid.inside_within.head past
  | exportDefaultDeclaration span value =>
    exact follows_of_laid frame context lo hi findings laid.inside_within.head past
  | exportDeclaration span declaration =>
    exact assigns_of_isDeclaration frame context laid.fits.2.1 laid.inside_within.head past
  | exportNames span specifiers taken =>
    cases taken with
    | some taken => exact .refl findings
    | none =>
      -- An entry whose name is a string takes no name of the module.
      let names := specifiers.filter fun s => !s.inner.isString
      have entries : LaidAll source 0 lo hi ((names.map Node.specifier).map Node.bare) :=
        laid.inside_within
      have uses : usesOfStmt context .body (.exportNames span specifiers none) =
          (names.map Node.specifier).flatMap (usesOfNode context) := by
        rw [List.flatMap_map]
        exact usesOfSpecifiers_eq_flatMap specifiers
      rw [uses]
      refine adds_nodes frame _ entries ?_ ?_ past
      · intro node mem
        obtain ⟨s, -, rfl⟩ := List.mem_map.mp mem
        exact ⟨rfl, fun _ _ => trivial⟩
      · intro node mem lo hi findings laid past
        obtain ⟨s, among, rfl⟩ := List.mem_map.mp mem
        have within := laid.fits.1
        have past : ∀ e ∈ findings.elided, e.start < s.inner.span.start := fun e mem =>
          Nat.lt_of_lt_of_le (past e mem) within.lo_le
        exact (extends_laid frame _ laid.tight_specifier trivial rfl past).adds.mono
          fun _ _ h => ⟨s, (List.mem_filter.mp among).1, h⟩
  | _ => contradiction

end Findings

section Statements

variable {before after : List Stmt} {s : Stmt}

/-- The uses in statements edit the stretch that the statements are laid in. -/
theorem extends_body (frame : Frame) (context : Usage.Context) {findings : Findings}
    {body : List Stmt} (laid : LaidAll source 0 lo hi (body.map .listed))
    (past : ∀ s ∈ findings.elided, s.start < lo) :
    Findings.Extends source lo hi findings
      ((usesOfStmts context .body body).foldl (Findings.step frame) findings) := by
  have nodes : usesOfStmts context .body body =
      (body.map (Node.stmt .body false)).flatMap (usesOfNode context) := by
    rw [List.flatMap_map]
    exact usesOfStmts_eq_flatMap .body body
  rw [nodes]
  refine Findings.extends_nodes frame context (by simpa using laid) ?_ past
  intro node mem
  obtain ⟨s, -, rfl⟩ := List.mem_map.mp mem
  exact ⟨rfl, fun _ _ => trivial⟩

/-- The statements around an import or export are laid before and after it. -/
theorem exists_around (laid : LaidAll source 0 lo hi ((before ++ s :: after).map .listed))
    (item : s.isModuleItem = true) :
    ∃ low high, LaidAll source 0 lo low (before.map .listed) ∧ Laid source 0 low high (.listed s) ∧
      LaidAll source 0 high hi (after.map .listed) ∧
      (∀ start stop, stop ≤ low → s.Spares start stop) ∧
      ∀ start stop, high ≤ start → s.Spares start stop := by
  rw [List.map_append, List.map_cons] at laid
  obtain ⟨low, earlier, rest⟩ := laid.exists_mid
  obtain ⟨high, single, later⟩ := rest.tail
  have within := single.head.within_of_isModuleItem item
  exact ⟨low, high, earlier, single.head, later, fun _ _ le => .inl (Nat.le_trans le within.lo_le),
    fun _ _ le => .inr (.inl (Nat.le_trans within.le_hi le))⟩

/-- The first pass edits an import or export only in the values in it. -/
theorem Findings.spares_isModuleItem (frame : Frame) (context : Usage.Context)
    {findings : Findings} (laid : LaidAll source 0 lo hi ((before ++ s :: after).map .listed))
    (item : s.isModuleItem = true) (past : ∀ s ∈ findings.elided, s.start < lo) :
    Findings.Adds s.Spares findings
      ((usesOfStmts context .body (before ++ s :: after)).foldl (Findings.step frame)
        findings) := by
  obtain ⟨low, high, earlier, here, later, spares, spares'⟩ := exists_around laid item
  have uses : usesOfStmts context .body (before ++ s :: after) =
      usesOfStmts context .body before ++
        (usesOfStmt context .body s ++ usesOfStmts context .body after) := by
    simp only [usesOfStmts_eq_flatMap, List.flatMap_append, List.flatMap_cons]
  rw [uses, List.foldl_append, List.foldl_append]
  have first := extends_body frame context earlier past
  have passed := first.past earlier.le past
  have own := adds_of_isModuleItem frame context item here passed
  have statement : Laid source 0 low high (.stmt .body false s) := Laid.of_bare here
  have passed := (extends_laid frame context statement trivial rfl passed).past here.le passed
  have last := extends_body frame context later passed
  refine ((first.adds.mono ?_).trans (own.mono ?_)).trans (last.adds.mono ?_)
  · exact fun start stop h => spares start stop h.2
  · exact fun start stop hosts => .inr (.inr hosts)
  · exact fun start stop h => spares' start stop h.1

/-- The second pass over statements edits the stretch that they are laid in. -/
theorem stored_of_laid (bindings : Bindings) (freeNames : List String) (valueName : String)
    (locals : Locals) {body : List Stmt} (laid : LaidAll source 0 lo hi (body.map .listed)) :
    ∃ stored, (body.foldl (Locals.step bindings freeNames valueName) locals).edits =
        locals.edits ++ stored ∧ ∀ e ∈ stored, lo ≤ e.start ∧ e.stop ≤ hi := by
  -- What the first pass finds makes no difference to the second one.
  have past : ∀ s ∈ (begin bindings .plain false).2.elided, s.start < lo := fun s mem =>
    absurd (past_begin bindings .plain false s mem) (Nat.not_lt_zero _)
  obtain ⟨added, stored, -, stores, confined⟩ :=
    confined_body (begin bindings .plain false).1 [] freeNames valueName locals laid past
  exact ⟨stored, stores, fun e mem => confined.within e (List.mem_append_right added mem)⟩

/-- The second pass does not edit an import or export. -/
theorem Locals.spares_isModuleItem (bindings : Bindings) (freeNames : List String)
    (valueName : String) (locals : Locals)
    (laid : LaidAll source 0 lo hi ((before ++ s :: after).map .listed))
    (item : s.isModuleItem = true) :
    ∃ stored, ((before ++ s :: after).foldl (Locals.step bindings freeNames valueName) locals).edits =
        locals.edits ++ stored ∧ ∀ e ∈ stored, s.Spares e.start e.stop := by
  obtain ⟨low, high, earlier, -, later, spares, spares'⟩ := exists_around laid item
  obtain ⟨stored, stores, within⟩ := stored_of_laid bindings freeNames valueName locals earlier
  obtain ⟨stored', stores', within'⟩ := stored_of_laid bindings freeNames valueName
    (before.foldl (Locals.step bindings freeNames valueName) locals) later
  have nothing (locals : Locals) : locals.step bindings freeNames valueName s = locals := by
    cases s with
    | expression span value => contradiction
    | _ => rfl
  refine ⟨stored ++ stored', ?_, ?_⟩
  · rw [List.foldl_append, List.foldl_cons, nothing, stores', stores, List.append_assoc]
  · intro e mem
    rcases List.mem_append.mp mem with mem | mem
    · exact spares _ _ (within e mem).2
    · exact spares' _ _ (within' e mem).1

end Statements

section Whole

variable {program : Program} {id : String} {options : Options} {out : Converted} {edited : Output}

/-- What the first pass over a module records, and the second one after it, is all that is edited. -/
theorem edits_of_passes {P : Nat → Nat → Prop}
    (first : Findings.Adds P
      (begin (Bindings.ofProgram program) options (hasCompiledMark source)).2
      (findingsOf program source options))
    (second : ∃ stored, (localsOf program source id options).edits =
      (findingsOf program source options).edits ++ stored ∧ ∀ e ∈ stored, P e.start e.stop) :
    ∀ e ∈ (layout program source id options).body.edits, P e.start e.stop := by
  obtain ⟨added, edits, spared⟩ := first
  obtain ⟨stored, stores, spared'⟩ := second
  have edits : (findingsOf program source options).edits = added := edits
  rw [edits] at stores
  intro e among
  cases wrapped : (findingsOf program source options).wrapped with
  | true =>
    rw [(layout_of_wrapped id wrapped).2.2, edits] at among
    exact spared e among
  | false =>
    rw [layout_of_open wrapped, stores] at among
    exact (List.mem_append.mp among).elim (spared e) (spared' e)

/-- **An import or export is edited only in the values in it**, if at all. -/
theorem edits_spare_isModuleItem (parsed : parseModule source = .ok program) (id : String)
    (options : Options) {s : Stmt} (mem : s ∈ program.body) (item : s.isModuleItem = true) :
    ∀ e ∈ (layout program source id options).body.edits, s.Spares e.start e.stop := by
  obtain ⟨before, after, body⟩ := List.append_of_mem mem
  have laid := laid_parseModule parsed
  rw [body] at laid
  have first := Findings.spares_isModuleItem (frameOf program options)
    ⟨Bindings.ofProgram program, options.ignored, false⟩ laid item
    (past_begin (Bindings.ofProgram program) options (hasCompiledMark source))
  have second := Locals.spares_isModuleItem (Bindings.ofProgram program)
    (frameOf program options).freeNames (valueOf program source id options).1
    ⟨(findingsOf program source options).edits, (valueOf program source id options).2, [], false⟩
    laid item
  rw [← body] at first second
  exact edits_of_passes first second

/-- A statement is kept in an edited text, but for the values in it: all stretches that belong to
none of these are copied. -/
def Retained (source : List Char) (edited : Output) (s : Stmt) : Prop :=
  ∀ n text, StandsAt source n text → s.span.start ≤ n → n + byteLength text ≤ s.span.stop →
    (∀ start stop, s.Hosts start stop → stop ≤ n ∨ n + byteLength text ≤ start) →
      copiedText n text <:+: edited.glyphs

/-- **An import or export is kept**, but for the values in it. -/
theorem Emitted.retained (emitted : Emitted program source id options out edited)
    (parsed : parseModule source = .ok program) {s : Stmt} (mem : s ∈ program.body)
    (item : s.isModuleItem = true) : Retained source edited s := by
  intro n text stands low high away
  have confined := confined_layout parsed id options
  obtain ⟨output, applied, -, glyphs⟩ := apply_of_apart confined.fits confined.apart
  obtain rfl : output = edited := Except.ok.inj (applied.symm.trans emitted.edits)
  rw [glyphs]
  refine copied_infix_reading stands ?_
  intro e among
  rcases edits_spare_isModuleItem parsed id options mem item e among with before | after | hosts
  · left
    omega
  · right
    omega
  · exact away _ _ hosts

end Whole

end ModuleInterop.Conversion
