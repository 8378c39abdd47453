import ModuleInterop.Proofs.Scope.Declared
import ModuleInterop.Proofs.Usage.Receive

/-!
# Where a piece of a module occurs

The occurrences of a piece of a module are a stretch of those of the module (`Holds`), with a scope
around the stretch if some piece around it begins one.  It is shown from part to part
(`Node.leads_of_mem_parts`), so it holds of every node that is reached (`Program.Reaches.stands`).

Hence a reference that the top scope is the innermost one of stands in no statement that begins a
scope: nothing but conditions, simple loops and labels is around it (`inTopScope_of_root`).
-/

set_option autoImplicit false

namespace ModuleInterop.Scope

open ModuleInterop.Syntax

/-! ## Stretches of occurrences -/

/-- Some occurrences are a stretch of others.  The flag tells whether a scope begins and ends around
them. -/
inductive Holds (part : List Occurrence) : Bool → List Occurrence → Prop
  | whole : Holds part false part
  | before {deep : Bool} {first rest : List Occurrence} : Holds part deep first →
      Holds part deep (first ++ rest)
  | after {deep : Bool} {first rest : List Occurrence} : Balanced first → Holds part deep rest →
      Holds part deep (first ++ rest)
  | scope {deep holdsVars : Bool} {inside : List Occurrence} : Holds part deep inside →
      Holds part true (enclosed holdsVars inside)

namespace Holds

variable {part middle whole : List Occurrence} {deep deep' : Bool}

/-- A stretch of a stretch. -/
theorem trans (h : Holds part deep middle) (h' : Holds middle deep' whole) :
    Holds part (deep || deep') whole := by
  induction h' with
  | whole => rwa [Bool.or_false]
  | before _ ih => exact ih.before
  | after balanced _ ih => exact ih.after balanced
  | scope _ ih =>
    rw [Bool.or_true]
    exact ih.scope

theorem subset (h : Holds part deep whole) : part ⊆ whole := by
  induction h with
  | whole => exact List.Subset.refl _
  | before _ ih => exact List.Subset.trans ih (List.subset_append_left _ _)
  | after _ _ ih => exact List.Subset.trans ih (List.subset_append_right _ _)
  | scope _ ih =>
    exact List.Subset.trans ih fun _ mem =>
      List.mem_cons_of_mem _ (List.mem_append_left _ mem)

/-- What one element of a list has is a stretch of what the list has. -/
theorem of_mem {α : Type} {f : α → List Occurrence} {list : List α} {a : α}
    (balanced : ∀ a, Balanced (f a)) (mem : a ∈ list) : Holds (f a) false (list.flatMap f) := by
  induction list with
  | nil => contradiction
  | cons b list ih =>
    rw [List.flatMap_cons]
    rcases List.mem_cons.mp mem with rfl | mem
    · exact whole.before
    · exact (ih mem).after (balanced b)

/-- **Reading up to a stretch** leaves the scopes open that were open before, and one more if a scope
begins around the stretch. -/
theorem exists_reading (h : Holds part deep whole) {reading : Reading} (well : reading.WellNested) :
    ∃ before after inner, whole = before ++ (part ++ after) ∧
      (before.foldl Reading.step reading).WellNested ∧
      (before.foldl Reading.step reading).opened.map OpenScope.scope =
        inner ++ reading.opened.map OpenScope.scope ∧
      (deep = true → inner ≠ []) := by
  induction h generalizing reading with
  | whole => exact ⟨[], [], [], by simp, well, rfl, by simp⟩
  | @before _ _ rest _ ih =>
    obtain ⟨before, after, inner, rfl, read⟩ := ih well
    exact ⟨before, after ++ rest, inner, by simp, read⟩
  | @after _ first _ balanced _ ih =>
    obtain ⟨passed, same⟩ := well.foldl balanced
    obtain ⟨before, after, inner, rfl, read⟩ := ih passed
    rw [same, ← List.foldl_append] at read
    exact ⟨first ++ before, after, inner, by simp, read⟩
  | @scope _ holdsVars _ _ ih =>
    obtain ⟨entered, opened⟩ := well.enter holdsVars
    obtain ⟨before, after, inner, rfl, read, more, -⟩ := ih entered
    rw [opened] at more
    refine ⟨.enter holdsVars :: before, after ++ [.leave],
      inner ++ [reading.found.scopes.length], ?_, read, ?_, by simp⟩
    · simp [enclosed]
    · rw [List.foldl_cons, List.append_assoc]
      exact more

/-- **Inside a scope the top scope is not the innermost one.** -/
theorem exists_current (h : Holds part deep whole) :
    ∃ before after, whole = before ++ (part ++ after) ∧
      (before.foldl Reading.step .start).WellNested ∧
      (deep = true → (before.foldl Reading.step .start).current ≠ ScopeTree.root) := by
  obtain ⟨before, after, inner, split, well, opened, more⟩ :=
    h.exists_reading Reading.wellNested_start
  refine ⟨before, after, split, well, fun inside here => ?_⟩
  obtain ⟨chain, ends, outside⟩ := well.opened
  rw [opened] at ends
  obtain ⟨same, -⟩ := List.append_inj' ends rfl
  obtain ⟨scope, others, rfl⟩ := List.exists_cons_of_ne_nil (more inside)
  have innermost : (before.foldl Reading.step .start).current = scope := by
    unfold Reading.current
    cases stack : (before.foldl Reading.step .start).opened with
    | nil =>
      rw [stack] at opened
      contradiction
    | cons first rest =>
      rw [stack] at opened
      exact (List.cons.inj opened).1
  rw [innermost] at here
  exact outside (here ▸ same ▸ List.mem_cons_self)

end Holds

/-! ## Lists of pieces -/

theorem ofExprs_eq_flatMap (es : List Expr) : ofExprs es = es.flatMap ofExpr := by
  induction es with
  | nil => rfl
  | cons e es ih => rw [ofExprs, ih, List.flatMap_cons]

theorem ofProperties_eq_flatMap (ps : List Property) :
    ofProperties ps = ps.flatMap fun p => ofProperties [p] := by
  induction ps with
  | nil => rfl
  | cons p ps ih => cases p <;> simp [ofProperties, ih]

theorem ofPatterns_eq_flatMap (rule : DeclarationRule) (ps : List Pattern) :
    ofPatterns rule ps = ps.flatMap (ofPattern rule) := by
  induction ps with
  | nil => rfl
  | cons p ps ih => rw [ofPatterns, ih, List.flatMap_cons]

theorem ofMembers_eq_flatMap (ms : List Member) :
    ofMembers ms = ms.flatMap fun m => ofMembers [m] := by
  induction ms with
  | nil => rfl
  | cons m ms ih => cases m <;> simp [ofMembers, ih]

theorem ofStmts_eq_flatMap (ss : List Stmt) : ofStmts ss = ss.flatMap ofStmt := by
  induction ss with
  | nil => rfl
  | cons s ss ih => rw [ofStmts, ih, List.flatMap_cons]

theorem ofDeclarators_eq_flatMap (rule : DeclarationRule) (ds : List Declarator) :
    ofDeclarators rule ds = ds.flatMap fun d => ofDeclarators rule [d] := by
  induction ds with
  | nil => rfl
  | cons d ds ih => cases d; simp [ofDeclarators, ih]

theorem ofCases_eq_flatMap (cs : List SwitchCase) :
    ofCases cs = cs.flatMap fun c => ofCases [c] := by
  induction cs with
  | nil => rfl
  | cons c cs ih => cases c; simp [ofCases, ih]

/-- The occurrences in a loop over elements, with what it stores to as a list. -/
theorem ofStmt_each (span : Span) (declared : Option Stmt) (stored : Option Pattern)
    (subject : Expr) (body : Stmt) :
    ofStmt (.each span declared stored subject body) =
      enclosed false (ofOptionalStmt declared ++ stored.toList.flatMap (ofPattern .here) ++
        ofExpr subject ++ ofStmt body) := by
  cases stored <;> simp [ofStmt]

/-- The occurrences in a guarded block, with the parameter of its handler as a list. -/
theorem ofStmt_guarded (span : Span) (body : List Stmt) (parameter : Option Pattern)
    (handler finalizer : List Stmt) :
    ofStmt (.guarded span body parameter handler finalizer) =
      enclosed false (ofStmts body) ++
        enclosed false (parameter.toList.flatMap ofCaught ++ enclosed false (ofStmts handler)) ++
        enclosed false (ofStmts finalizer) := by
  cases parameter <;> simp [ofStmt]

/-- What the elements of a list have is balanced if each of them is. -/
theorem Balanced.flatMap {α : Type} {f : α → List Occurrence} (balanced : ∀ a, Balanced (f a))
    (list : List α) : Balanced (list.flatMap f) := by
  induction list with
  | nil => exact .nil
  | cons a list ih => exact (balanced a).append ih

theorem exportReferences_eq_flatMap (entries : List ExportSpecifier) :
    exportReferences entries = (entries.filter fun s => !s.inner.isString).flatMap fun s =>
      [.refer s.inner.span.start s.inner.text false] := by
  induction entries with
  | nil => rfl
  | cons s entries ih =>
    unfold exportReferences
    cases h : s.inner.isString <;> simp [h, ih]

end ModuleInterop.Scope

namespace ModuleInterop.Syntax

open ModuleInterop.Scope ModuleInterop.Usage

namespace Node

/-! ## The occurrences of a node -/

/-- The occurrences that a node has.  Those of an expression depend on whether it is stored to, and
those of a pattern and a variable on how names are declared. -/
def Occurs : Node → List Occurrence → Prop
  | .expr _ _ e, occurrences =>
    occurrences = ofExpr e ∨ e.isPlace = true ∧ occurrences = ofPlace e
  | .property p, occurrences => occurrences = ofProperties [p]
  | .pattern p, occurrences => ∃ rule, occurrences = ofPattern rule p
  | .member m, occurrences => occurrences = ofMembers [m]
  | .stmt _ _ s, occurrences => occurrences = ofStmt s
  | .declarator _ d, occurrences => ∃ rule, occurrences = ofDeclarators rule [d]
  | .switchCase c, occurrences => occurrences = ofCases [c]
  | .specifier s, occurrences => occurrences = [.refer s.inner.span.start s.inner.text false]

/-- Whether a node is a piece of an expression, a pattern or an export list, and not of a statement. -/
def isPhrase : Node → Bool
  | .expr _ _ _ | .property _ | .pattern _ | .specifier _ => true
  | .member _ | .stmt _ _ _ | .declarator _ _ | .switchCase _ => false

/-- Whether a node begins a scope. -/
def opensScope : Node → Bool
  | .expr _ _ (.function _ _ _ _ _) | .expr _ _ (.class _ _ _ _ _ _) => true
  | .stmt _ _ (.block _ _) | .stmt _ _ (.loop _ _ _ _ _) | .stmt _ _ (.each _ _ _ _ _)
  | .stmt _ _ (.withObject _ _ _) | .stmt _ _ (.switch _ _ _) | .stmt _ _ (.guarded _ _ _ _ _) =>
    true
  | .member _ => true
  | _ => false

/-- The position and the text of the name that a node stores to. -/
def stored? : Node → Option (Nat × String)
  | .expr _ _ (.update _ (.name span text)) | .pattern (.target (.name span text)) =>
    some (span.start, text)
  | .pattern (.shorthand _ name _) => some (name.span.start, name.text)
  | _ => none

/-- The names that a node declares. -/
def declared : Node → List Name
  | .expr _ _ (.function _ _ name _ _) | .expr _ _ (.class _ _ _ name _ _) => name.toList
  | .pattern (.binding name) => [name]
  | .stmt _ _ (.importing _ bindings) => bindings
  | _ => []

/-- A name that a node stores to is referred to among its occurrences. -/
theorem Occurs.stored {node : Node} {occurrences : List Occurrence} (h : node.Occurs occurrences)
    {offset : Nat} {text : String} (stores : node.stored? = some (offset, text)) :
    .refer offset text true ∈ occurrences := by
  unfold stored? at stores
  split at stores
  · obtain ⟨rfl, rfl⟩ := Prod.mk.inj (Option.some.inj stores)
    rcases h with rfl | ⟨isPlace, -⟩
    · exact List.mem_cons_self
    · contradiction
  · obtain ⟨rfl, rfl⟩ := Prod.mk.inj (Option.some.inj stores)
    obtain ⟨rule, rfl⟩ := h
    exact List.mem_cons_self
  · obtain ⟨rfl, rfl⟩ := Prod.mk.inj (Option.some.inj stores)
    obtain ⟨rule, rfl⟩ := h
    exact List.mem_cons_self
  · contradiction

/-- A name that a node declares is declared among its occurrences. -/
theorem Occurs.declared {node : Node} {occurrences : List Occurrence} (h : node.Occurs occurrences)
    {name : Name} (mem : name ∈ node.declared) : ∃ rule, .declare rule name ∈ occurrences := by
  unfold Node.declared at mem
  split at mem
  · rename_i form own parameters body
    rcases h with rfl | ⟨isPlace, -⟩
    · refine ⟨.here, ?_⟩
      have among : .declare .here name ∈ declareAll .here own.toList := List.mem_map_of_mem mem
      by_cases declaration : form = .declaration <;>
        simp [ofExpr, enclosed, declaration, among]
    · contradiction
  · rename_i isDeclaration decorators own heritage members
    rcases h with rfl | ⟨isPlace, -⟩
    · refine ⟨.here, ?_⟩
      have among : .declare .here name ∈ declareAll .here own.toList := List.mem_map_of_mem mem
      cases isDeclaration <;> simp [ofExpr, enclosed, among]
    · contradiction
  · obtain ⟨rule, rfl⟩ := h
    obtain rfl := List.mem_singleton.mp mem
    exact ⟨rule, List.mem_cons_self⟩
  · obtain rfl := h
    exact ⟨.here, List.mem_map_of_mem mem⟩
  · contradiction

/-- A node occurs in some occurrences. -/
def Contained (node : Node) (deep : Bool) (occurrences : List Occurrence) : Prop :=
  ∃ part, Holds part deep occurrences ∧ node.Occurs part

namespace Contained

variable {node : Node} {deep : Bool} {first rest : List Occurrence}

theorem before (h : node.Contained deep first) : node.Contained deep (first ++ rest) := by
  obtain ⟨part, holds, occurs⟩ := h
  exact ⟨part, holds.before, occurs⟩

theorem after (h : node.Contained deep rest) (balanced : Balanced first) :
    node.Contained deep (first ++ rest) := by
  obtain ⟨part, holds, occurs⟩ := h
  exact ⟨part, holds.after balanced, occurs⟩

theorem scope {holdsVars : Bool} (h : node.Contained deep first) :
    node.Contained true (enclosed holdsVars first) := by
  obtain ⟨part, holds, occurs⟩ := h
  exact ⟨part, holds.scope, occurs⟩

theorem expr (place : Place) (concise : Bool) (e : Expr) :
    (Node.expr place concise e).Contained false (ofExpr e) := ⟨_, .whole, .inl rfl⟩

theorem part (e : Expr) : (Node.part e).Contained false (ofExpr e) := expr _ _ e

theorem stmt (home : Home) (concise : Bool) (s : Stmt) :
    (Node.stmt home concise s).Contained false (ofStmt s) := ⟨_, .whole, rfl⟩

theorem pattern (rule : DeclarationRule) (p : Pattern) :
    (Node.pattern p).Contained false (ofPattern rule p) := ⟨_, .whole, rule, rfl⟩

/-- The nodes that are made of the elements of a list. -/
theorem of_mem {α : Type} {list : List α} {make : α → Node} {of : α → List Occurrence}
    (mem : node ∈ list.map make) (balanced : ∀ a, Balanced (of a))
    (occurs : ∀ a, (make a).Occurs (of a)) : node.Contained false (list.flatMap of) := by
  obtain ⟨a, among, rfl⟩ := List.mem_map.mp mem
  exact ⟨_, .of_mem balanced among, occurs a⟩

theorem parts {es : List Expr} (mem : node ∈ es.map Node.part) :
    node.Contained false (ofExprs es) := by
  rw [ofExprs_eq_flatMap]
  exact .of_mem mem balanced_ofExpr (fun _ => .inl rfl)

theorem optional {e : Option Expr} (mem : node ∈ e.toList.map Node.part) :
    node.Contained false (ofOptional e) := by
  cases e with
  | none => contradiction
  | some e =>
    obtain rfl := List.mem_singleton.mp mem
    exact .part e

theorem properties {ps : List Property} (mem : node ∈ ps.map Node.property) :
    node.Contained false (ofProperties ps) := by
  rw [ofProperties_eq_flatMap]
  exact .of_mem mem (fun p => balanced_ofProperties [p]) (fun _ => rfl)

theorem patterns {ps : List Pattern} (rule : DeclarationRule) (mem : node ∈ ps.map Node.pattern) :
    node.Contained false (ofPatterns rule ps) := by
  rw [ofPatterns_eq_flatMap]
  exact .of_mem mem (balanced_ofPattern rule) (fun _ => ⟨rule, rfl⟩)

theorem members {ms : List Member} (mem : node ∈ ms.map Node.member) :
    node.Contained false (ofMembers ms) := by
  rw [ofMembers_eq_flatMap]
  exact .of_mem mem (fun m => balanced_ofMembers [m]) (fun _ => rfl)

theorem stmts {ss : List Stmt} {home : Home} {concise : Bool}
    (mem : node ∈ ss.map (Node.stmt home concise)) : node.Contained false (ofStmts ss) := by
  rw [ofStmts_eq_flatMap]
  exact .of_mem mem balanced_ofStmt (fun _ => rfl)

theorem ofFirst {s : Option Stmt} (mem : node ∈ s.toList.map Node.ofFirst) :
    node.Contained false (ofOptionalStmt s) := by
  cases s with
  | none => contradiction
  | some s =>
    obtain rfl := List.mem_singleton.mp mem
    cases s with
    | expression span value => exact .part value
    | _ => exact .stmt _ _ _

theorem declarators {ds : List Declarator} {home : Home} (rule : DeclarationRule)
    (mem : node ∈ ds.map (Node.declarator home)) : node.Contained false (ofDeclarators rule ds) := by
  rw [ofDeclarators_eq_flatMap]
  exact .of_mem mem (fun d => balanced_ofDeclarators rule [d]) (fun _ => ⟨rule, rfl⟩)

theorem switchCases {cs : List SwitchCase} (mem : node ∈ cs.map Node.switchCase) :
    node.Contained false (ofCases cs) := by
  rw [ofCases_eq_flatMap]
  exact .of_mem mem (fun c => balanced_ofCases [c]) (fun _ => rfl)

theorem specifiers {entries : List ExportSpecifier}
    (mem : node ∈ (entries.filter fun s => !s.inner.isString).map Node.specifier) :
    node.Contained false (exportReferences entries) := by
  rw [exportReferences_eq_flatMap]
  exact .of_mem mem (fun _ => .single rfl) (fun _ => rfl)

/-- What is stored to occurs as that. -/
theorem place {e : Expr} (isPlace : e.isPlace = true) : (Node.part e).Contained false (ofPlace e) :=
  ⟨_, .whole, .inr ⟨isPlace, rfl⟩⟩

/-- The parameter of a handler occurs as a pattern. -/
theorem caught {parameter : Option Pattern} (isCaught : ∀ p ∈ parameter, p.isCaught = true)
    (mem : node ∈ parameter.toList.map Node.pattern) :
    node.Contained false (parameter.toList.flatMap ofCaught) := by
  obtain ⟨p, among, rfl⟩ := List.mem_map.mp mem
  have isCaught := isCaught p (Option.mem_toList.mp among)
  refine ⟨_, .of_mem balanced_ofCaught among, ?_⟩
  cases p with
  | binding name => exact ⟨.shadowing, rfl⟩
  | array span elements => exact ⟨.here, rfl⟩
  | object span properties => exact ⟨.here, rfl⟩
  | _ => contradiction

end Contained

/-! ## From a node to its parts -/

/-- A part occurs where the node does: inside a scope, or as a phrase, or in a statement that begins no
scope. -/
def Leads (node inner : Node) (occurrences : List Occurrence) : Prop :=
  ∃ deep, inner.Contained deep occurrences ∧
    (deep = true ∨ inner.isPhrase = true ∨ node.isPhrase = false ∧ node.opensScope = false)

namespace Leads

variable {node inner : Node} {deep : Bool} {occurrences : List Occurrence}

theorem phrase (h : inner.Contained deep occurrences) (isPhrase : inner.isPhrase = true) :
    node.Leads inner occurrences := ⟨deep, h, .inr (.inl isPhrase)⟩

theorem inside (h : inner.Contained true occurrences) : node.Leads inner occurrences :=
  ⟨true, h, .inl rfl⟩

theorem level (h : inner.Contained deep occurrences)
    (same : node.isPhrase = false ∧ node.opensScope = false) : node.Leads inner occurrences :=
  ⟨deep, h, .inr (.inr same)⟩

end Leads

/-- The parts of an expression. -/
theorem leads_of_expr {source : List Char} {lo hi : Nat} {place : Place} {concise : Bool} {e : Expr}
    {inner : Node} (fits : (Node.expr place concise e).Fits source 0 lo hi)
    (mem : inner ∈ (Node.expr place concise e).parts fun _ => none) :
    (Node.expr place concise e).Leads inner (ofExpr e) := by
  have one {e : Expr} {nodes : List Node} (mem : inner ∈ Node.part e :: nodes) :
      inner = .part e ∨ inner ∈ nodes := List.mem_cons.mp mem
  have isPhrase {es : List Expr} (mem : inner ∈ es.map Node.part) : inner.isPhrase = true := by
    obtain ⟨e, -, rfl⟩ := List.mem_map.mp mem
    rfl
  cases e with
  | name | literal | this | atom | hole => contradiction
  | paren | unary | member | privateMember | spread =>
    obtain rfl := List.mem_singleton.mp mem
    exact .phrase (.part _) rfl
  | chain span inner =>
    obtain rfl := List.mem_singleton.mp mem
    exact .phrase (.expr _ _ _) rfl
  | update span target =>
    obtain rfl := List.mem_singleton.mp mem
    exact .phrase (.place fits.2) rfl
  | binary | logical | index =>
    rcases one mem with rfl | mem
    · exact .phrase (.before (.part _)) rfl
    · obtain rfl := List.mem_singleton.mp mem
      exact .phrase (.after (.part _) (balanced_ofExpr _)) rfl
  | conditional span test yes no =>
    rcases one mem with rfl | mem
    · exact .phrase (.before (.before (.part _))) rfl
    rcases one mem with rfl | mem
    · exact .phrase (.before (.after (.part _) (balanced_ofExpr _))) rfl
    · obtain rfl := List.mem_singleton.mp mem
      exact .phrase (.after (.part _) ((balanced_ofExpr _).append (balanced_ofExpr _))) rfl
  | assign span plain target value =>
    rcases List.mem_cons.mp mem with rfl | mem
    · exact .phrase (.before (.pattern _ _)) rfl
    · obtain rfl := List.mem_singleton.mp mem
      exact .phrase (.after (.part _) (balanced_ofPattern _ _)) rfl
  | call span callee arguments =>
    rcases one mem with rfl | mem
    · exact .phrase (.before (.part _)) rfl
    · exact .phrase (.after (.parts mem) (balanced_ofExpr _)) (isPhrase mem)
  | template | group | array => exact .phrase (.parts mem) (isPhrase mem)
  | object span properties comma =>
    obtain ⟨p, among, rfl⟩ := List.mem_map.mp mem
    exact .phrase (.properties mem) rfl
  | function span form name parameters body =>
    have inside : inner.Contained false ((if form = .declaration then [] else
        declareAll .here name.toList) ++ ofPatterns .here parameters ++ [.settle] ++ ofStmts body) := by
      rcases List.mem_append.mp mem with mem | mem
      · exact .before (.before (.after (.patterns _ mem) (.declareUnless _ _)))
      · exact .after (.stmts mem) (((Balanced.declareUnless _ _).append
          (balanced_ofPatterns _ _)).append (.single rfl))
    exact .inside (.after inside.scope (.declareIf _ _))
  | «class» span isDeclaration decorators name heritage members =>
    rcases List.mem_append.mp mem with mem | mem
    · rcases List.mem_append.mp mem with mem | mem
      · exact .phrase (.before (.before (.parts mem))) (isPhrase mem)
      · exact .inside (.after (.scope (.before (.after (.optional mem) (.declareUnless _ _))))
          ((balanced_ofExprs _).append (.declareIf _ _)))
    · exact .inside (.after (.scope (.after (.members mem) ((Balanced.declareUnless _ _).append
        (balanced_ofOptional _)))) ((balanced_ofExprs _).append (.declareIf _ _)))

/-- The parts of a pattern. -/
theorem leads_of_pattern {source : List Char} {lo hi : Nat} {p : Pattern} {inner : Node}
    {rule : DeclarationRule} (fits : (Node.pattern p).Fits source 0 lo hi)
    (mem : inner ∈ (Node.pattern p).parts fun _ => none) :
    (Node.pattern p).Leads inner (ofPattern rule p) := by
  cases p with
  | binding name => contradiction
  | target place =>
    obtain rfl := List.mem_singleton.mp mem
    exact .phrase (.place fits.2) rfl
  | withDefault span inner default =>
    rcases List.mem_cons.mp mem with rfl | mem
    · exact .phrase (.before (.pattern _ _)) rfl
    · obtain rfl := List.mem_singleton.mp mem
      exact .phrase (.after (.part _) (balanced_ofPattern _ _)) rfl
  | array | object =>
    obtain ⟨p, -, rfl⟩ := List.mem_map.mp mem
    exact .phrase (.patterns rule mem) rfl
  | property span computed value =>
    rcases List.mem_append.mp mem with mem | mem
    · obtain ⟨e, -, rfl⟩ := List.mem_map.mp mem
      exact .phrase (.before (.optional mem)) rfl
    · obtain rfl := List.mem_singleton.mp mem
      exact .phrase (.after (.pattern _ _) (balanced_ofOptional _)) rfl
  | shorthand span name default =>
    cases default with
    | none => contradiction
    | some default =>
      obtain rfl := List.mem_singleton.mp mem
      have here : (Node.expr .shorthandDefault false default).Contained false
          ([.refer name.span.start name.text true] ++ ofExpr default) :=
        .after (.expr _ _ _) (.single rfl)
      exact .phrase here rfl
  | rest span inner =>
    obtain rfl := List.mem_singleton.mp mem
    exact .phrase (.pattern _ _) rfl

/-- The parts of a statement. -/
theorem leads_of_stmt {source : List Char} {lo hi : Nat} {home : Home} {concise : Bool} {s : Stmt}
    {inner : Node} (fits : (Node.stmt home concise s).Fits source 0 lo hi)
    (mem : inner ∈ (Node.stmt home concise s).parts fun _ => none) :
    (Node.stmt home concise s).Leads inner (ofStmt s) := by
  have isPhrase {es : List Expr} (mem : inner ∈ es.map Node.part) : inner.isPhrase = true := by
    obtain ⟨e, -, rfl⟩ := List.mem_map.mp mem
    rfl
  cases s with
  | directive | simple | importing | exportAll => contradiction
  | expression span value =>
    obtain rfl := List.mem_singleton.mp mem
    exact .phrase (.expr _ _ _) rfl
  | «variables» span kind list => exact .level (.declarators _ mem) ⟨rfl, rfl⟩
  | declaration | throwing | exportDefault | exportDefaultDeclaration =>
    obtain rfl := List.mem_singleton.mp mem
    exact .phrase (.part _) rfl
  | block span body => exact .inside (.scope (.stmts mem))
  | ifElse span test yes no =>
    rcases List.mem_cons.mp mem with rfl | mem
    · exact .phrase (.before (.before (.part _))) rfl
    rcases List.mem_cons.mp mem with rfl | mem
    · exact .level (.before (.after (.stmt _ _ _) (balanced_ofExpr _))) ⟨rfl, rfl⟩
    · cases no with
      | none => contradiction
      | some no =>
        obtain rfl := List.mem_singleton.mp mem
        exact .level (.after (.stmt _ _ _) ((balanced_ofExpr _).append (balanced_ofStmt _)))
          ⟨rfl, rfl⟩
  | loop span first test update body =>
    refine .inside (@Contained.scope _ false _ _ ?_)
    rcases List.mem_append.mp mem with mem | mem
    · rcases List.mem_append.mp mem with mem | mem
      · rcases List.mem_append.mp mem with mem | mem
        · exact .before (.before (.before (.ofFirst mem)))
        · exact .before (.before (.after (.optional mem) (balanced_ofOptionalStmt _)))
      · exact .before (.after (.optional mem)
          ((balanced_ofOptionalStmt _).append (balanced_ofOptional _)))
    · obtain rfl := List.mem_singleton.mp mem
      exact .after (.stmt _ _ _) (((balanced_ofOptionalStmt _).append
        (balanced_ofOptional _)).append (balanced_ofOptional _))
  | each span declared stored subject body =>
    rw [ofStmt_each]
    have head := (balanced_ofOptionalStmt declared).append
      (Balanced.flatMap (balanced_ofPattern .here) stored.toList)
    refine .inside (@Contained.scope _ false _ _ ?_)
    rcases List.mem_append.mp mem with mem | mem
    · refine .before (.before ?_)
      rcases List.mem_append.mp mem with mem | mem
      · exact .before (.ofFirst mem)
      · exact .after (.of_mem mem (balanced_ofPattern .here) fun _ => ⟨.here, rfl⟩)
          (balanced_ofOptionalStmt _)
    · rcases List.mem_cons.mp mem with rfl | mem
      · exact .before (.after (.part _) head)
      · obtain rfl := List.mem_singleton.mp mem
        exact .after (.stmt _ _ _) (head.append (balanced_ofExpr _))
  | whileLoop span test body =>
    rcases List.mem_cons.mp mem with rfl | mem
    · exact .phrase (.before (.part _)) rfl
    · obtain rfl := List.mem_singleton.mp mem
      exact .level (.after (.stmt _ _ _) (balanced_ofExpr _)) ⟨rfl, rfl⟩
  | doWhile span body test =>
    rcases List.mem_cons.mp mem with rfl | mem
    · exact .level (.before (.stmt _ _ _)) ⟨rfl, rfl⟩
    · obtain rfl := List.mem_singleton.mp mem
      exact .phrase (.after (.part _) (balanced_ofStmt _)) rfl
  | returning span value => exact .phrase (.optional mem) (isPhrase mem)
  | withObject span object body =>
    rcases List.mem_cons.mp mem with rfl | mem
    · exact .phrase (.before (.part _)) rfl
    · obtain rfl := List.mem_singleton.mp mem
      exact .inside (.after (.scope (.stmt _ _ _)) (balanced_ofExpr _))
  | switch span subject cases =>
    rcases List.mem_cons.mp mem with rfl | mem
    · exact .phrase (.before (.part _)) rfl
    · exact .inside (.after (.scope (.switchCases mem)) (balanced_ofExpr _))
  | guarded span body parameter handler finalizer =>
    rw [ofStmt_guarded]
    have caught := Balanced.flatMap balanced_ofCaught parameter.toList
    have guarded := Balanced.scope false (balanced_ofStmts body)
    rcases List.mem_append.mp mem with mem | mem
    · rcases List.mem_append.mp mem with mem | mem
      · rcases List.mem_append.mp mem with mem | mem
        · exact .inside (.before (.before (.scope (.stmts mem))))
        · exact .inside (.before (.after (.scope (.before (.caught fits.2 mem))) guarded))
      · exact .inside (.before (.after (.scope (.after (.scope (.stmts mem)) caught)) guarded))
    · exact .inside (.after (.scope (.stmts mem)) (guarded.append
        (.scope _ (caught.append (.scope _ (balanced_ofStmts _))))))
  | labeled span body =>
    obtain rfl := List.mem_singleton.mp mem
    exact .level (.stmt _ _ _) ⟨rfl, rfl⟩
  | exportDeclaration span declaration =>
    obtain rfl := List.mem_singleton.mp mem
    exact .level (.stmt _ _ _) ⟨rfl, rfl⟩
  | exportNames span specifiers taken =>
    cases taken with
    | some taken => contradiction
    | none =>
      obtain ⟨s, -, rfl⟩ := List.mem_map.mp mem
      exact .phrase (.specifiers mem) rfl

/-- **A part of a node occurs where the node does.** -/
theorem leads_of_mem_parts {source : List Char} {lo hi : Nat} {node inner : Node}
    {occurrences : List Occurrence} (fits : node.Fits source 0 lo hi)
    (occurs : node.Occurs occurrences) (mem : inner ∈ node.parts fun _ => none) :
    node.Leads inner occurrences := by
  cases node with
  | expr place concise e =>
    rcases occurs with rfl | ⟨isPlace, rfl⟩
    · exact leads_of_expr fits mem
    · cases e with
      | name => contradiction
      | member | privateMember | index => exact leads_of_expr fits mem
      | _ => contradiction
  | property p =>
    obtain rfl := occurs
    cases p with
    | keyed span name computed value =>
      rcases List.mem_append.mp mem with mem | mem
      · obtain ⟨e, -, rfl⟩ := List.mem_map.mp mem
        exact .phrase (.before (.before (.optional mem))) rfl
      · obtain rfl := List.mem_singleton.mp mem
        exact .phrase (.before (.after (.part _) (balanced_ofOptional _))) rfl
    | shorthand => contradiction
    | spread span inner =>
      obtain rfl := List.mem_singleton.mp mem
      exact .phrase (.before (.part _)) rfl
  | pattern p =>
    obtain ⟨rule, rfl⟩ := occurs
    exact leads_of_pattern fits mem
  | member m =>
    obtain rfl := occurs
    have isPhrase {es : List Expr} (mem : inner ∈ es.map Node.part) : inner.isPhrase = true := by
      obtain ⟨e, -, rfl⟩ := List.mem_map.mp mem
      rfl
    cases m with
    | method span decorators computed value =>
      rcases List.mem_append.mp mem with mem | mem
      · rcases List.mem_append.mp mem with mem | mem
        · exact .phrase (.before (.before (.before (.parts mem)))) (isPhrase mem)
        · exact .phrase (.before (.before (.after (.optional mem) (balanced_ofExprs _))))
            (isPhrase mem)
      · obtain rfl := List.mem_singleton.mp mem
        exact .phrase (.before (.after (.part _)
          ((balanced_ofExprs _).append (balanced_ofOptional _)))) rfl
    | field span decorators computed value =>
      rcases List.mem_append.mp mem with mem | mem
      · rcases List.mem_append.mp mem with mem | mem
        · exact .phrase (.before (.before (.before (.parts mem)))) (isPhrase mem)
        · exact .phrase (.before (.before (.after (.optional mem) (balanced_ofExprs _))))
            (isPhrase mem)
      · exact .phrase (.before (.after (.optional mem)
          ((balanced_ofExprs _).append (balanced_ofOptional _)))) (isPhrase mem)
    | initializer span body => exact .inside (.before (.scope (.stmts mem)))
  | stmt home concise s =>
    obtain rfl := occurs
    exact leads_of_stmt fits mem
  | declarator home d =>
    obtain ⟨rule, rfl⟩ := occurs
    obtain ⟨span, target, init⟩ := d
    rcases List.mem_cons.mp mem with rfl | mem
    · exact .phrase (.before (.before (.pattern _ _))) rfl
    · obtain ⟨e, -, rfl⟩ := List.mem_map.mp mem
      exact .phrase (.before (.after (.optional mem) (balanced_ofPattern _ _))) rfl
  | switchCase c =>
    obtain rfl := occurs
    obtain ⟨test, body⟩ := c
    rcases List.mem_append.mp mem with mem | mem
    · obtain ⟨e, -, rfl⟩ := List.mem_map.mp mem
      exact .phrase (.before (.before (.optional mem))) rfl
    · exact .level (.before (.after (.stmts mem) (balanced_ofOptional _))) ⟨rfl, rfl⟩
  | specifier s => contradiction

/-- Whether a node is at home in a list of statements other than the module itself, or has such lists
without beginning a scope. -/
def isListed : Node → Bool
  | .stmt home _ _ | .declarator home _ => home = .list
  | .member _ | .switchCase _ => true
  | .expr _ _ _ | .property _ | .pattern _ | .specifier _ => false

/-- Only what begins a scope, or is in a list, leads to a list. -/
theorem isListed_of_mem_parts {known : Expr → Option Bool} {node inner : Node}
    (mem : inner ∈ node.parts known) (listed : inner.isListed = true) :
    node.opensScope = true ∨ node.isListed = true := by
  cases node with
  | expr place concise e => cases e <;> grind [parts, part, isListed, opensScope, unlessKnown]
  | property p => cases p <;> grind [parts, part, isListed]
  | pattern p => cases p <;> grind [parts, part, isListed]
  | member m => exact .inl rfl
  | stmt home concise s =>
    have head (s : Stmt) : (ofFirst s).isListed = false := by
      cases s <;> rfl
    cases s <;> grind [parts, part, sole, isListed, opensScope, unlessKnown]
  | declarator home d =>
    cases d
    grind [parts, part, isListed]
  | switchCase c => exact .inr rfl
  | specifier s => contradiction

end Node

/-! ## Nodes of a module -/

variable {source : List Char}

/-- A node in a row of laid nodes is laid. -/
theorem LaidAll.exists_laid {lo hi : Nat} {nodes : List Node} {node : Node}
    (h : LaidAll source 0 lo hi nodes) (mem : node ∈ nodes) :
    ∃ low high, lo ≤ low ∧ high ≤ hi ∧ Laid source 0 low high node := by
  induction nodes generalizing lo with
  | nil => contradiction
  | cons first nodes ih =>
    cases h with
    | cons here others =>
      rcases List.mem_cons.mp mem with rfl | mem
      · exact ⟨_, _, Nat.le_refl _, others.le, here⟩
      · obtain ⟨low, high, le, within, laid⟩ := ih others mem
        exact ⟨low, high, Nat.le_trans here.le le, within, laid⟩

namespace Program

variable {program : Program} {node : Node}

/-- A node around which no scope begins but the top scope; branches known not to be taken are left
out. -/
def InTopScope (program : Program) : Node → Prop :=
  program.Reaches Expr.truth? fun node => !node.opensScope

/-- A node that is reached is laid in the text. -/
theorem Reaches.exists_laid {known : Expr → Option Bool} {enters : Node → Bool}
    (parsed : parseModule source = .ok program) (h : program.Reaches known enters node) :
    ∃ lo hi, Laid source 0 lo hi node := by
  induction h with
  | statement mem =>
    obtain ⟨lo, hi, -, -, laid⟩ := (laid_parseModule parsed).exists_laid (List.mem_map_of_mem mem)
    exact ⟨lo, hi, Laid.of_bare laid⟩
  | @part node inner _ _ mem ih =>
    obtain ⟨lo, hi, laid⟩ := ih
    have among := ((node.parts_sublist known).map Node.bare).trans node.parts_sublist_pieces
    obtain ⟨lo, hi, -, -, laid⟩ := (laid.pieces.sublist among).exists_laid (List.mem_map_of_mem mem)
    exact ⟨lo, hi, laid.of_bare⟩

/-- **A node that is reached occurs in the module**: inside a scope, or as a phrase, or where no scope
begins around it. -/
theorem Reaches.stands {known : Expr → Option Bool} {enters : Node → Bool}
    (parsed : parseModule source = .ok program) (h : program.Reaches known enters node) :
    ∃ deep, node.Contained deep (ofStmts program.body) ∧
      (deep = true ∨ node.isPhrase = true ∨
        program.Reaches known (fun node => !node.opensScope) node) := by
  induction h with
  | statement mem =>
    exact ⟨false, .stmts (List.mem_map_of_mem mem), .inr (.inr (.statement mem))⟩
  | @part node inner reached _ mem ih =>
    obtain ⟨deep, ⟨part, holds, occurs⟩, stands⟩ := ih
    obtain ⟨lo, hi, laid⟩ := reached.exists_laid parsed
    obtain ⟨deep', ⟨piece, within, occurs'⟩, leads⟩ :=
      Node.leads_of_mem_parts laid.fits occurs ((node.parts_sublist _).subset mem)
    refine ⟨deep' || deep, ⟨piece, within.trans holds, occurs'⟩, ?_⟩
    rcases leads with rfl | phrase | ⟨statement, same⟩
    · exact .inl rfl
    · exact .inr (.inl phrase)
    · rcases stands with rfl | phrase | top
      · exact .inl (Bool.or_true _)
      · rw [statement] at phrase
        contradiction
      · exact .inr (.inr (top.part (by rw [same]; rfl) mem))

/-- A name that is stored to anywhere in the module is referred to there. -/
theorem Reaches.stored {known : Expr → Option Bool} {enters : Node → Bool}
    (parsed : parseModule source = .ok program) (h : program.Reaches known enters node)
    {offset : Nat} {text : String} (stores : node.stored? = some (offset, text)) :
    .refer offset text true ∈ ofStmts program.body := by
  obtain ⟨deep, ⟨part, holds, occurs⟩, -⟩ := h.stands parsed
  exact holds.subset (occurs.stored stores)

/-- A name that is declared anywhere in the module is declared among its occurrences. -/
theorem Reaches.declared {known : Expr → Option Bool} {enters : Node → Bool}
    (parsed : parseModule source = .ok program) (h : program.Reaches known enters node) {name : Name}
    (mem : name ∈ node.declared) : ∃ rule, .declare rule name ∈ ofStmts program.body := by
  obtain ⟨deep, ⟨part, holds, occurs⟩, -⟩ := h.stands parsed
  obtain ⟨rule, declares⟩ := occurs.declared mem
  exact ⟨rule, holds.subset declares⟩

/-- In the top scope no statement is in a list other than the module itself. -/
theorem InTopScope.not_listed (top : program.InTopScope node) : node.isListed = false := by
  induction top with
  | statement mem => rfl
  | part _ enters mem ih =>
    by_contra listed
    rw [Bool.not_eq_false] at listed
    rcases Node.isListed_of_mem_parts mem listed with scope | listed
    · rw [scope] at enters
      contradiction
    · rw [ih] at listed
      contradiction

/-- A variable at home in the module itself is declared by one of its statements. -/
theorem Reaches.declarator_mem_body {known : Expr → Option Bool} {enters : Node → Bool}
    {d : Declarator} (h : program.Reaches known enters (.declarator .body d)) :
    ∃ span kind list, .variables span kind list ∈ program.body ∧ d ∈ list := by
  generalize home : Node.declarator .body d = node at h
  cases h with
  | statement mem => cases home
  | @part owner _ reached _ mem =>
    subst home
    cases Node.shape_of_mem_parts mem with
    | @declarator _ _ span kind list =>
      obtain ⟨other, among, same⟩ := List.mem_map.mp mem
      obtain rfl := (Node.declarator.inj same).2
      exact ⟨span, kind, list, reached.mem_body, among⟩

/-- **A variable whose value is a call in the top scope** is declared in the top scope. -/
theorem inTopScope_of_root (parsed : parseModule source = .ok program) {home : Home} {span : Span}
    {name : Name} {init : Expr} {ignored : List String} {call : RequireCall}
    (live : program.Live (.declarator home (.mk span (.binding name) (some init))))
    (static : requireCall? (Bindings.ofProgram program) ignored init = some call)
    (root : call.scope = ScopeTree.root) :
    program.InTopScope (.declarator home (.mk span (.binding name) (some init))) := by
  obtain ⟨deep, ⟨part, holds, rule, occurs⟩, stands⟩ := Reaches.stands parsed live
  rcases stands with rfl | phrase | top
  · obtain ⟨offset, text, called, scope, -⟩ := ofExpr_of_requireCall static
    obtain ⟨before, after, split, well, inner⟩ := holds.exists_current
    have run : ofStmts program.body = (before ++ [.declare rule name]) ++
        .refer offset text false :: after := by
      simp [split, occurs, ofDeclarators, ofPattern, ofOptional, called]
    obtain ⟨names, tally⟩ := exists_tally parsed (Bindings.ofProgram program) ignored
    have distinct := (referredOffsets_sublist _).nodup tally.ascending.nodup
    have balanced := balanced_ofStmts program.body
    rw [run] at distinct balanced
    have here := scopeAt_of_refer balanced distinct
    rw [← run, List.foldl_append] at here
    -- Declaring the name has begun no scope.
    have same := Reading.current_congr (@Reading.WellNested.step _ well (.declare rule name) rfl).2
    have root : (before.foldl Reading.step .start).current = ScopeTree.root :=
      same.symm.trans (here.symm.trans (scope.symm.trans root))
    exact absurd root (inner rfl)
  · contradiction
  · exact top

end Program

end ModuleInterop.Syntax
