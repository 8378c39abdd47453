import Mathlib.Data.List.Induction
import ModuleInterop.Proofs.Scope.Move

/-!
# A module inside a function

The occurrences of a module are put into a function with parameters, other names are declared around
the function, and some positions of the module go (`hosted`).  If what goes is declared at the top of
the module and nowhere else (`Hostable`), a reference that stays finds the declaration that it found in
the module: both runs are read by the stack machine in step, and a `Move` relates the two stacks.

A name whose declaration has gone finds one around the function instead, unless a parameter of its name
is in between (`refersTo_iff_of_gone`), and a parameter is found in place of a declaration only where
the top scope of the module declares its name (`mem_rootNames_of_refersTo`).
-/

set_option autoImplicit false

namespace ModuleInterop.Scope

open ModuleInterop.Syntax

/-- What the name at a position refers to is declared at another position. -/
def Bindings.RefersTo (bindings : Bindings) (offset declaration : Nat) : Prop :=
  ∃ r ∈ bindings.references, r.offset = offset ∧
    ∃ d ∈ bindings.declarations, d.1 = declaration ∧ r.binding = some d.2

instance (bindings : Bindings) (offset declaration : Nat) :
    Decidable (bindings.RefersTo offset declaration) :=
  inferInstanceAs (Decidable (∃ r ∈ bindings.references, r.offset = offset ∧
    ∃ d ∈ bindings.declarations, d.1 = declaration ∧ r.binding = some d.2))

section RefersTo

variable {occurrences : List Occurrence} {offset declaration : Nat}

/-- What is referred to is declared. -/
theorem Bindings.RefersTo.mem_declaredOffsets
    (refers : (Bindings.ofOccurrences occurrences).RefersTo offset declaration) :
    declaration ∈ declaredOffsets occurrences := by
  obtain ⟨_, -, -, d, mem, rfl, -⟩ := refers
  rw [← records_ofOccurrences]
  exact List.mem_map_of_mem mem

/-- What refers to a declaration is a name that is not free. -/
theorem Bindings.RefersTo.referred (balanced : Balanced occurrences)
    (distinct : (referredOffsets occurrences).Nodup)
    (refers : (Bindings.ofOccurrences occurrences).RefersTo offset declaration) :
    offset ∈ referredOffsets occurrences ∧
      (Bindings.ofOccurrences occurrences).isFreeAt offset = false := by
  obtain ⟨r, mem, rfl, _, -, -, bound⟩ := refers
  have same := offsets_ofOccurrences balanced
  refine ⟨same.subset (List.mem_map_of_mem mem), ?_⟩
  have found := find?_of_nodup (same.nodup_iff.mpr distinct) mem
  unfold Bindings.isFreeAt Bindings.referenceAt?
  rw [found]
  simp [bound]

/-- What a name refers to is what the reference has found on the stack. -/
theorem exists_resolved_of_refersTo (balanced : Balanced occurrences)
    (refers : (Bindings.ofOccurrences occurrences).RefersTo offset declaration) :
    ∃ name binding, ((offset, name), some binding) ∈ (Stack.ofOccurrences occurrences).resolved ∧
      (declaration, binding) ∈ (Stack.ofOccurrences occurrences).declared := by
  obtain ⟨declared, resolved⟩ := view_ofOccurrences balanced
  obtain ⟨r, mem, rfl, d, mem', rfl, bound⟩ := refers
  rw [← declared, ← resolved]
  exact ⟨r.name, d.2, List.mem_map.mpr ⟨r, mem, by rw [bound]⟩, mem'⟩

theorem refersTo_iff (balanced : Balanced occurrences) (distinct : (offsets occurrences).Nodup)
    {name : String} {binding : Option Nat}
    (mem : ((offset, name), binding) ∈ (Stack.ofOccurrences occurrences).resolved) :
    (Bindings.ofOccurrences occurrences).RefersTo offset declaration ↔
      ∃ b, binding = some b ∧ (declaration, b) ∈ (Stack.ofOccurrences occurrences).declared := by
  obtain ⟨declared, resolved⟩ := view_ofOccurrences balanced
  have positions : ((Stack.ofOccurrences occurrences).resolved.map fun e => e.1.1).Nodup := by
    rw [← resolved, List.map_map]
    exact (offsets_ofOccurrences balanced).nodup_iff.mpr
      ((referredOffsets_sublist _).nodup distinct)
  constructor
  · intro refers
    obtain ⟨name', b, mem', there⟩ := exists_resolved_of_refersTo balanced refers
    have same := List.inj_on_of_nodup_map positions mem mem' rfl
    exact ⟨b, congrArg Prod.snd same, there⟩
  · rintro ⟨b, rfl, there⟩
    rw [← declared] at there
    rw [← resolved] at mem
    obtain ⟨r, among, same⟩ := List.mem_map.mp mem
    obtain ⟨place, bound⟩ := Prod.mk.inj same
    exact ⟨r, among, congrArg Prod.fst place, _, there, rfl, bound⟩

end RefersTo

/-- Whether an occurrence stands where some positions go. -/
def Occurrence.stands (gone : Nat → Bool) (occurrence : Occurrence) : Bool :=
  !occurrence.offset?.any gone

/-- What a function has in it that a module has been put into, where some positions have gone. -/
def functionOf (gone : Nat → Bool) (parameters : List Name) (occurrences : List Occurrence) :
    List Occurrence :=
  declareAll .here parameters ++ [.settle] ++ occurrences.filter (Occurrence.stands gone)

/-- The occurrences of a module that has been put into a function, where some positions have gone and
other names are declared around the function. -/
def hosted (gone : Nat → Bool) (outside parameters : List Name) (occurrences : List Occurrence) :
    List Occurrence :=
  declareAll .here outside ++ enclosed true (functionOf gone parameters occurrences)

section Hosted

variable {gone : Nat → Bool} {outside parameters : List Name} {occurrences : List Occurrence}

theorem Balanced.filter_stands (balanced : Balanced occurrences) (gone : Nat → Bool) :
    Balanced (occurrences.filter (Occurrence.stands gone)) := by
  induction balanced with
  | nil => exact .nil
  | cons inner _ ih =>
    rw [List.filter_cons]
    split
    · exact .cons inner ih
    · exact ih
  | @enclosed holdsVars inside others _ _ ih ih' =>
    have same : (Scope.enclosed holdsVars inside).filter (Occurrence.stands gone) =
        Scope.enclosed holdsVars (inside.filter (Occurrence.stands gone)) := by
      simp [Scope.enclosed, Occurrence.stands, Occurrence.offset?, Occurrence.declared?,
        Occurrence.referred?]
    rw [List.filter_append, same]
    exact .enclosed ih ih'

theorem balanced_hosted (balanced : Balanced occurrences) :
    Balanced (hosted gone outside parameters occurrences) :=
  (Balanced.declareAll .here outside).append (.scope true
    (((Balanced.declareAll .here parameters).append (.single rfl)).append
      (balanced.filter_stands gone)))

theorem offsets_filter_stands (occurrences : List Occurrence) :
    offsets (occurrences.filter (Occurrence.stands gone)) =
      (offsets occurrences).filter fun n => !gone n := by
  unfold offsets
  rw [List.filterMap_filter, List.filter_filterMap]
  apply List.filterMap_congr
  intro occurrence _
  unfold Occurrence.stands
  cases occurrence.offset? with
  | none => rfl
  | some n => cases here : gone n <;> simp [here, Option.filter]

theorem offsets_declareAll (rule : DeclarationRule) (names : List Name) :
    offsets (declareAll rule names) = names.map fun name => name.span.start := by
  simp [offsets, declareAll, Occurrence.offset?, Occurrence.declared?, Function.comp_def]

theorem offsets_hosted : offsets (hosted gone outside parameters occurrences) =
    (outside ++ parameters).map (fun name => name.span.start) ++
      (offsets occurrences).filter fun n => !gone n := by
  unfold hosted functionOf
  have settled : offsets [.settle] = [] := rfl
  rw [offsets_append, offsets_enclosed, offsets_append, offsets_append, offsets_filter_stands,
    offsets_declareAll, offsets_declareAll, settled]
  simp

end Hosted

/-! ## Names that are declared first -/

/-- Names with the bindings from some number on. -/
def numberedFrom (count : Nat) (names : List Name) : List (String × Nat) :=
  (names.zipIdx count).map fun p => (p.1.text, p.2)

/-- Declarations of names with the bindings from some number on. -/
def declaredFrom (count : Nat) (names : List Name) : List (Nat × Nat) :=
  (names.zipIdx count).map fun p => (p.1.span.start, p.2)

theorem mem_declaredFrom {count position binding : Nat} {names : List Name} :
    (position, binding) ∈ declaredFrom count names ↔
      ∃ i name, names[i]? = some name ∧ name.span.start = position ∧ binding = count + i := by
  unfold declaredFrom
  rw [List.mem_map]
  constructor
  · rintro ⟨⟨name, n⟩, mem, same⟩
    obtain ⟨rfl, rfl⟩ := Prod.mk.inj same
    rw [List.mem_zipIdx_iff_le_and_getElem?_sub] at mem
    exact ⟨n - count, name, mem.2, rfl, by omega⟩
  · rintro ⟨i, name, here, rfl, rfl⟩
    refine ⟨(name, count + i), List.mem_zipIdx_iff_le_and_getElem?_sub.mpr ⟨by simp, ?_⟩, rfl⟩
    simpa using here

/-- The binding of a name is given by its place. -/
theorem lookup_numberedFrom {text : String} {count binding : Nat} {names : List Name}
    (distinct : (names.map Name.text).Nodup) :
    lookup text (numberedFrom count names) = some binding ↔
      ∃ i name, names[i]? = some name ∧ name.text = text ∧ binding = count + i := by
  have known {binding : Nat} (found : lookup text (numberedFrom count names) = some binding) :
      ∃ i name, names[i]? = some name ∧ name.text = text ∧ binding = count + i := by
    obtain ⟨⟨name, n⟩, mem, same⟩ := List.mem_map.mp (mem_of_lookup found)
    obtain ⟨rfl, rfl⟩ := Prod.mk.inj same
    rw [List.mem_zipIdx_iff_le_and_getElem?_sub] at mem
    exact ⟨n - count, name, mem.2, rfl, by omega⟩
  refine ⟨known, ?_⟩
  rintro ⟨i, name, here, rfl, rfl⟩
  cases found : lookup name.text (numberedFrom count names) with
  | none =>
    refine absurd ?_ (lookup_eq_none_iff.mp found)
    have mem : (name, count + i) ∈ names.zipIdx count :=
      List.mem_zipIdx_iff_le_and_getElem?_sub.mpr ⟨by simp, by simpa using here⟩
    exact List.mem_map.mpr ⟨_, List.mem_map_of_mem mem, rfl⟩
  | some binding =>
    obtain ⟨i', name', here', same, rfl⟩ := known found
    have inside : i < (names.map Name.text).length := by
      simpa using (List.getElem?_eq_some_iff.mp here).1
    have equal : (names.map Name.text)[i]? = (names.map Name.text)[i']? := by
      rw [List.getElem?_map, List.getElem?_map, here, here', Option.map_some, Option.map_some, same]
    rw [(List.getElem?_inj inside distinct).mp equal]

theorem foldl_declareAll (names : List Name) (distinct : (names.map Name.text).Nodup)
    {stack : Stack} (frame : Frame) {others : List Frame} (frames : stack.frames = frame :: others)
    (passing : frame.passing = []) (new : ∀ name ∈ names, name.text ∉ frame.names.map Prod.fst) :
    (declareAll .here names).foldl Stack.step stack =
      { stack with
        frames := { frame with names := frame.names ++ numberedFrom stack.count names } :: others
        count := stack.count + names.length
        declared := stack.declared ++ declaredFrom stack.count names } := by
  induction names generalizing stack frame with
  | nil =>
    simp [declareAll, numberedFrom, declaredFrom, ← frames]
  | cons name names ih =>
    rw [List.map_cons, List.nodup_cons] at distinct
    rw [List.forall_mem_cons] at new
    have unknown : frame.known? name.text = none := by
      unfold Frame.known?
      rw [passing, lookup_eq_none_iff.mpr new.1]
      rfl
    have assigned : assignName name.text stack.count frame.names =
        frame.names ++ [(name.text, stack.count)] := by
      unfold assignName
      rw [List.filter_eq_self.mpr]
      intro e mem
      have other : e.1 ≠ name.text := fun same => new.1 (same ▸ List.mem_map_of_mem mem)
      simpa using other
    have here : stack.step (.declare .here name) =
        { stack with
          frames := { frame with names := frame.names ++ [(name.text, stack.count)] } :: others
          count := stack.count + 1
          declared := stack.declared ++ [(name.span.start, stack.count)] } := by
      simp [Stack.step, Stack.declare, DeclarationRule.declaring, declareHere, frames, unknown,
        Frame.assign, assigned]
    show (declareAll .here names).foldl Stack.step (stack.step (.declare .here name)) = _
    rw [here, ih distinct.2 { frame with names := frame.names ++ [(name.text, stack.count)] } rfl
      passing]
    · simp [numberedFrom, declaredFrom]
      omega
    · intro other mem
      simp only [List.map_append, List.map_cons, List.map_nil, List.mem_append,
        List.mem_singleton, not_or]
      exact ⟨new.2 other mem, fun same => distinct.1 (same ▸ List.mem_map_of_mem mem)⟩

/-- The scope around the function. -/
def aroundOf (outside : List Name) : Frame := ⟨true, numberedFrom 0 outside, [], []⟩

/-- The stack where the function has begun. -/
def opening (outside parameters : List Name) : Stack where
  frames := [⟨true, numberedFrom outside.length parameters, [], []⟩, aroundOf outside]
  count := outside.length + parameters.length
  declared := declaredFrom 0 outside ++ declaredFrom outside.length parameters
  resolved := []

namespace Reading

variable {reading : Reading}

/-- The outermost scope on the stack is the top scope. -/
theorem exists_frames (well : reading.WellNested) : ∃ inner o, reading.view.frames =
    inner ++ [reading.frameOf o] ∧ o.scope = ScopeTree.root ∧
      (reading.current = ScopeTree.root → inner = []) := by
  obtain ⟨scopes, chain, outside⟩ := well.opened
  obtain ⟨others, last, opened, rfl, top⟩ := List.map_eq_append_iff.mp chain
  obtain ⟨o, rfl, same⟩ := List.map_eq_singleton_iff.mp top
  refine ⟨others.map reading.frameOf, o, by simp [view, opened], same, fun here => ?_⟩
  cases others with
  | nil => rfl
  | cons first others =>
    unfold current at here
    rw [opened] at here
    exact absurd (here ▸ List.mem_cons_self) outside

/-- Its names are those of the top scope. -/
theorem rootNames_view (well : reading.WellNested) :
    Scope.rootNames reading.view.frames = reading.rootNames := by
  obtain ⟨inner, o, frames, same, -⟩ := exists_frames well
  unfold Scope.rootNames Reading.rootNames
  rw [frames, List.getLast?_concat, ← same]
  unfold frameOf
  cases reading.scope? o.scope <;> rfl

end Reading

/-- The stack after a part of a module. -/
def moduleStack (read : List Occurrence) : Stack := read.foldl Stack.step .start

theorem moduleStack_concat (read : List Occurrence) (occurrence : Occurrence) :
    moduleStack (read ++ [occurrence]) = (moduleStack read).step occurrence := by
  simp [moduleStack]

/-- The stack after a part of a module that is read in a function. -/
def functionStack (gone : Nat → Bool) (outside parameters : List Name) (read : List Occurrence) :
    Stack :=
  (read.filter (Occurrence.stands gone)).foldl Stack.step (opening outside parameters)

theorem functionStack_concat (gone : Nat → Bool) (outside parameters : List Name)
    (read : List Occurrence) (occurrence : Occurrence) :
    functionStack gone outside parameters (read ++ [occurrence]) =
      if occurrence.stands gone then (functionStack gone outside parameters read).step occurrence
      else functionStack gone outside parameters read := by
  unfold functionStack
  rw [List.filter_append, List.filter_singleton, List.foldl_append]
  cases occurrence.stands gone <;> rfl

section Run

variable {gone : Nat → Bool} {outside parameters : List Name} {occurrences : List Occurrence}

/-- The stack after a module that has been put into a function. -/
theorem ofOccurrences_hosted (distinct : (outside.map Name.text).Nodup)
    (distinct' : (parameters.map Name.text).Nodup) :
    Stack.ofOccurrences (hosted gone outside parameters occurrences) =
      (functionStack gone outside parameters occurrences).leave.settle := by
  have first := foldl_declareAll outside distinct (.new true)
    (show Stack.start.frames = [.new true] from rfl) rfl (by simp [Frame.new])
  have second := foldl_declareAll parameters distinct' (.new true)
    (show (((declareAll .here outside).foldl Stack.step .start).step (.enter true)).frames =
      [.new true, aroundOf outside] by rw [first]; rfl) rfl
    (by simp [Frame.new])
  have opened : (declareAll .here outside ++ Occurrence.enter true ::
      (declareAll .here parameters ++ [Occurrence.settle])).foldl Stack.step .start =
        opening outside parameters := by
    rw [List.foldl_append, List.foldl_cons, List.foldl_append, second, first]
    simp [Stack.step, Stack.settle, Stack.start, Frame.new, Frame.clear, Frame.wait, Frame.left,
      Frame.found, opening, aroundOf]
  have split : hosted gone outside parameters occurrences =
      (declareAll .here outside ++ Occurrence.enter true ::
        (declareAll .here parameters ++ [Occurrence.settle])) ++
        occurrences.filter (Occurrence.stands gone) ++ [.leave] := by
    simp [hosted, functionOf, enclosed]
  unfold Stack.ofOccurrences
  rw [split, List.foldl_append, List.foldl_append, opened]
  rfl

variable (gone outside parameters occurrences)

/-- What the bindings of a module become where it is put into a function. -/
def moveOf : Move where
  gone := gone
  goes binding := (Stack.ofOccurrences occurrences).declared.any fun d =>
    d.2 == binding && gone d.1
  becomes binding :=
    (((Stack.ofOccurrences occurrences).declared.find? fun d =>
      d.2 == binding && !gone d.1).bind fun d =>
        (Stack.ofOccurrences (hosted gone outside parameters occurrences)).declared.find? fun d' =>
          d'.1 == d.1).elim 0 Prod.snd
  parameters := numberedFrom outside.length parameters

/-- The name that is declared at a position. -/
def textAt (occurrences : List Occurrence) (offset : Nat) : String :=
  (occurrences.findSome? fun
    | .declare _ name => if name.span.start = offset then some name.text else none
    | _ => none).getD ""

/-- What is known of a module that is put into a function. -/
structure Hostable : Prop where
  balanced : Balanced occurrences
  positions : ((outside ++ parameters).map (fun name => name.span.start) ++
    offsets occurrences).Nodup
  outside : (outside.map Name.text).Nodup
  parameters : (parameters.map Name.text).Nodup
  /-- What goes is declared at the top, and nowhere else. -/
  gone : ∀ before rule name after, occurrences = before ++ .declare rule name :: after →
    gone name.span.start = true → rule ≠ .shadowing ∧
      (before.foldl Reading.step .start).current = ScopeTree.root ∧
      name.text ∉ (before.foldl Reading.step .start).rootNames ∧
      name.text ∈ (occurrences.foldl Reading.step .start).rootNames ∧
      (Bindings.ofOccurrences occurrences).isConstantAt name.span.start = true

variable {gone outside parameters occurrences}

namespace Hostable

variable (h : Hostable gone outside parameters occurrences)

include h

theorem own : (offsets occurrences).Nodup := (List.nodup_append.mp h.positions).2.1

theorem nodup_hosted : (offsets (hosted gone outside parameters occurrences)).Nodup := by
  rw [offsets_hosted]
  exact h.positions.sublist (List.filter_sublist.append_left _)

/-- The declarations of the module are at different positions. -/
theorem nodup_declared : ((Stack.ofOccurrences occurrences).declared.map Prod.fst).Nodup := by
  rw [← (view_ofOccurrences h.balanced).1, records_ofOccurrences]
  exact (declaredOffsets_sublist _).nodup h.own

/-- The name at a position is the one that is declared there. -/
theorem textAt_eq {rule : DeclarationRule} {name : Name}
    (mem : .declare rule name ∈ occurrences) :
    textAt occurrences name.span.start = name.text := by
  obtain ⟨before, after, rfl⟩ := List.append_of_mem mem
  have distinct := (declaredOffsets_sublist _).nodup h.own
  rw [declaredOffsets_append, List.nodup_append] at distinct
  have none : before.findSome? (fun
      | .declare _ other => if other.span.start = name.span.start then some other.text else none
      | _ => none) = none := by
    apply List.findSome?_eq_none_iff.mpr
    intro other mem
    cases other with
    | declare rule' other =>
      refine if_neg fun same => distinct.2.2 other.span.start ?_ name.span.start ?_ same
      · exact List.mem_filterMap.mpr ⟨_, mem, rfl⟩
      · exact List.mem_cons_self
    | _ => rfl
  unfold textAt
  rw [List.findSome?_append, none]
  simp

theorem nodup_declared_hosted :
    ((Stack.ofOccurrences (hosted gone outside parameters occurrences)).declared.map
      Prod.fst).Nodup := by
  rw [← (view_ofOccurrences (balanced_hosted h.balanced)).1, records_ofOccurrences]
  exact (declaredOffsets_sublist _).nodup h.nodup_hosted

/-- A binding with a declaration that goes has no other one. -/
theorem declared_once {d e : Nat × Nat} (mem : d ∈ (Stack.ofOccurrences occurrences).declared)
    (mem' : e ∈ (Stack.ofOccurrences occurrences).declared) (same : e.2 = d.2)
    (goes : gone e.1 = true) : d = e := by
  rw [← (view_ofOccurrences h.balanced).1] at mem mem'
  have position : e.1 ∈ declaredOffsets occurrences := by
    rw [← records_ofOccurrences]
    exact List.mem_map_of_mem mem'
  obtain ⟨occurrence, among, here⟩ := List.mem_filterMap.mp position
  obtain ⟨before, after, split⟩ := List.append_of_mem among
  cases occurrence with
  | declare rule name =>
    have here : name.span.start = e.1 := Option.some.inj here
    obtain ⟨-, -, -, -, constant⟩ := h.gone before rule name after split (here ▸ goes)
    obtain ⟨binding, declared, once, -⟩ := only_declaration_of_constant constant
    have positions := h.nodup_declared
    rw [← (view_ofOccurrences h.balanced).1] at positions
    have its : binding = e.2 :=
      congrArg Prod.snd (List.inj_on_of_nodup_map positions declared mem' here)
    -- The only declaration of that binding is both of them.
    obtain ⟨only, all⟩ := List.length_eq_one_iff.mp once
    have alone {c : Nat × Nat} (mem : c ∈ (Bindings.ofOccurrences occurrences).declarations)
        (same : c.2 = e.2) : c = only := by
      have among : c ∈ (Bindings.ofOccurrences occurrences).declarations.filter
          fun c => c.2 == binding := List.mem_filter.mpr ⟨mem, by simp [same, its]⟩
      rwa [all, List.mem_singleton] at among
    rw [alone mem same.symm, alone mem' rfl]
  | enter | leave | settle | refer | word => contradiction

theorem goes_eq_false {d : Nat × Nat} (mem : d ∈ (Stack.ofOccurrences occurrences).declared)
    (kept : gone d.1 = false) :
    (moveOf gone outside parameters occurrences).goes d.2 = false := by
  apply List.any_eq_false.mpr
  intro e mem' both
  rw [Bool.and_eq_true, beq_iff_eq] at both
  rw [h.declared_once mem mem' both.1 both.2, both.2] at kept
  contradiction

omit h in
theorem goes_eq_true {d : Nat × Nat} (mem : d ∈ (Stack.ofOccurrences occurrences).declared)
    (goes : gone d.1 = true) : (moveOf gone outside parameters occurrences).goes d.2 = true :=
  List.any_eq_true.mpr ⟨d, mem, by simp [goes]⟩

/-- What a binding becomes is seen where it is first declared. -/
theorem becomes_eq {earlier later : List (Nat × Nat)} {position binding binding' : Nat}
    (declared : (Stack.ofOccurrences occurrences).declared =
      earlier ++ (position, binding) :: later)
    (first : ∀ d ∈ earlier, d.2 ≠ binding) (kept : gone position = false)
    (mem : (position, binding') ∈
      (Stack.ofOccurrences (hosted gone outside parameters occurrences)).declared) :
    (moveOf gone outside parameters occurrences).becomes binding = binding' := by
  have here : (Stack.ofOccurrences occurrences).declared.find?
      (fun d => d.2 == binding && !gone d.1) = some (position, binding) := by
    rw [declared]
    refine List.find?_eq_some_iff_append.mpr ⟨by simp [kept], earlier, later, rfl, ?_⟩
    intro d mem
    simp [first d mem]
  have there := find?_of_nodup h.nodup_declared_hosted mem
  unfold moveOf
  dsimp only
  rw [here, Option.bind_some, there]
  rfl

/-- The parameters have the bindings between those of the names around the function and those of the
module. -/
theorem parameters_moveOf : (moveOf gone outside parameters occurrences).Parameters
    (outside.length + parameters.length) := by
  constructor
  · intro name binding found
    obtain ⟨i, p, here, -, rfl⟩ := (lookup_numberedFrom h.parameters).mp found
    have := (List.getElem?_eq_some_iff.mp here).1
    omega
  · intro name name' binding found found'
    obtain ⟨i, p, here, rfl, rfl⟩ := (lookup_numberedFrom h.parameters).mp found
    obtain ⟨i', p', here', rfl, same⟩ := (lookup_numberedFrom h.parameters).mp found'
    obtain rfl : i = i' := by omega
    rw [here] at here'
    rw [Option.some.inj here']

/-- The stack after a part of the module is what can be seen of the reading. -/
theorem moduleStack_eq {read : List Occurrence} (part : read <+: occurrences) :
    moduleStack read = (read.foldl Reading.step .start).view ∧
      (read.foldl Reading.step .start).WellNested := by
  have well (some : List Occurrence) (within : some <+: read) :=
    Reading.wellNested_start.of_prefix h.balanced (within.trans part)
  obtain ⟨seen, -⟩ := Reading.view_foldl read Reading.layered_start Reading.rooted_start well
  exact ⟨seen.symm, well read List.prefix_rfl⟩

/-- The stack after a part of the module is sound. -/
theorem sound {read : List Occurrence} (part : read <+: occurrences) :
    (moduleStack read).Sound (textAt occurrences) :=
  (Stack.sound_start _).foldl fun _ _ mem => h.textAt_eq (part.subset mem)

theorem rootNames_moduleStack {read : List Occurrence} (part : read <+: occurrences) :
    rootNames (moduleStack read).frames = (read.foldl Reading.step .start).rootNames := by
  obtain ⟨seen, well⟩ := h.moduleStack_eq part
  rw [seen, Reading.rootNames_view well]

/-- What the function has declared on the way is declared in the end. -/
theorem declared_functionStack {read : List Occurrence} (part : read <+: occurrences) :
    (functionStack gone outside parameters read).declared <+:
      (Stack.ofOccurrences (hosted gone outside parameters occurrences)).declared := by
  obtain ⟨rest, rfl⟩ := part
  have last : (functionStack gone outside parameters (read ++ rest)).leave.declared =
      (functionStack gone outside parameters (read ++ rest)).declared := Stack.declared_settle _
  rw [ofOccurrences_hosted h.outside h.parameters, Stack.declared_settle, last]
  unfold functionStack
  rw [List.filter_append, List.foldl_append]
  exact Stack.declared_foldl _ _

/-- What a part of the module and the function have in common. -/
def Along (gone : Nat → Bool) (outside parameters : List Name) (occurrences read : List Occurrence) :
    Prop :=
  ∃ waiting, (moveOf gone outside parameters occurrences).Hosts (moduleStack read)
      (functionStack gone outside parameters read) { aroundOf outside with pending := waiting } ∧
    (moveOf gone outside parameters occurrences).Numbers (outside.length + parameters.length)
      (read.foldl Reading.step .start).rootNames (moduleStack read)
      (functionStack gone outside parameters read)

omit h in
theorem along_nil : Along gone outside parameters occurrences [] :=
  ⟨[], ⟨.top ⟨⟨rfl, rfl⟩, ⟨rfl, rfl⟩, fun _ => rfl, nofun⟩, nofun, nofun⟩, Nat.le_refl _, nofun,
    nofun, nofun⟩

/-- A declaration at the top that goes. -/
theorem along_gone {read rest : List Occurrence} {rule : DeclarationRule} {name : Name}
    (split : occurrences = read ++ .declare rule name :: rest)
    (goes : gone name.span.start = true)
    (along : Along gone outside parameters occurrences read)
    (names : (read.foldl Reading.step .start).rootNames ⊆
      ((read ++ [Occurrence.declare rule name]).foldl Reading.step .start).rootNames) :
    Along gone outside parameters occurrences (read ++ [.declare rule name]) := by
  obtain ⟨waiting, hosts, numbers⟩ := along
  obtain ⟨joins, current, new, -, -⟩ := h.gone read rule name rest split goes
  have part : read <+: occurrences := split ▸ List.prefix_append _ _
  obtain ⟨seen, well⟩ := h.moduleStack_eq part
  obtain ⟨inner, o, frames, -, alone⟩ := Reading.exists_frames well
  rw [alone current, List.nil_append, ← seen] at frames
  rw [← h.rootNames_moduleStack part] at new
  have away : (Occurrence.declare rule name).stands gone = false := by
    simp [Occurrence.stands, Occurrence.offset?, Occurrence.declared?, goes]
  have declared := Stack.declared_ofOccurrences (read ++ [.declare rule name]) rest
  rw [List.append_assoc, List.singleton_append, ← split] at declared
  change (moduleStack _).declared <+: _ at declared
  rw [moduleStack_concat] at declared
  refine ⟨waiting, ?_⟩
  rw [moduleStack_concat, functionStack_concat, away]
  exact ⟨hosts.skip_declare frames joins new goes fun d mem =>
    goes_eq_true (declared.subset mem), numbers.skip rfl goes names⟩

/-- A declaration that stays. -/
theorem along_declare {read rest : List Occurrence} {rule : DeclarationRule} {name : Name}
    (split : occurrences = read ++ .declare rule name :: rest)
    (stays : gone name.span.start = false)
    (along : Along gone outside parameters occurrences read)
    (names : (read.foldl Reading.step .start).rootNames ⊆
      ((read ++ [Occurrence.declare rule name]).foldl Reading.step .start).rootNames) :
    Along gone outside parameters occurrences (read ++ [.declare rule name]) := by
  obtain ⟨waiting, hosts, numbers⟩ := along
  have part : read <+: occurrences := split ▸ List.prefix_append _ _
  have sound := h.sound part
  have part' : read ++ [.declare rule name] <+: occurrences := by
    rw [split]
    simp
  have top := h.rootNames_moduleStack part
  have top' := h.rootNames_moduleStack part'
  rw [moduleStack_concat] at top'
  have stands : (Occurrence.declare rule name).stands gone = true := by
    simp [Occurrence.stands, Occurrence.offset?, Occurrence.declared?, stays]
  -- The declaration is among those of the module, and among those of the function.
  obtain ⟨later, declared⟩ := Stack.declared_ofOccurrences (read ++ [.declare rule name]) rest
  rw [List.append_assoc, List.singleton_append, ← split] at declared
  change (moduleStack _).declared ++ later = _ at declared
  rw [moduleStack_concat] at declared
  have declared : (Stack.ofOccurrences occurrences).declared = (moduleStack read).declared ++
      (name.span.start, (rule.declaring name.text (moduleStack read).count
        (moduleStack read).frames).binding) :: later := by
    rw [← declared]
    exact List.append_assoc _ _ _
  have mem : (name.span.start, (rule.declaring name.text (moduleStack read).count
      (moduleStack read).frames).binding) ∈ (Stack.ofOccurrences occurrences).declared := by
    rw [declared]
    simp
  have mem' := (h.declared_functionStack
    (show read ++ [.declare rule name] <+: occurrences from ⟨rest, by simp [split]⟩)).subset
    (a := (name.span.start, (rule.declaring name.text
      (functionStack gone outside parameters read).count
      (functionStack gone outside parameters read).frames).binding)) (by
        rw [functionStack_concat, stands]
        exact List.mem_append_right _ (List.mem_singleton_self _))
  have matched := hosts.frames.declaring rule (h.goes_eq_false mem stays) fun new => by
    have first : ∀ d ∈ (moduleStack read).declared, d.2 ≠ (rule.declaring name.text
        (moduleStack read).count (moduleStack read).frames).binding := by
      intro d earlier
      rw [new]
      exact Nat.ne_of_lt (sound.below d earlier)
    have becomes := h.becomes_eq declared first stays mem'
    rwa [new] at becomes
  have alone : ∀ d ∈ (moduleStack read).declared, d.2 = (rule.declaring name.text
      (moduleStack read).count (moduleStack read).frames).binding → gone d.1 = false := by
    intro d earlier same
    by_contra goes
    rw [Bool.not_eq_false] at goes
    have among : d ∈ (Stack.ofOccurrences occurrences).declared := by
      rw [declared]
      exact List.mem_append_left _ earlier
    rw [← h.declared_once mem among same goes, stays] at goes
    contradiction
  refine ⟨waiting, ?_⟩
  rw [moduleStack_concat, functionStack_concat, stands]
  exact ⟨hosts.declare matched, numbers.declare h.parameters_moveOf sound matched alone top top'
    names⟩

/-- **One step** over the module and over the function that it is put into. -/
theorem along_concat {read rest : List Occurrence} {occurrence : Occurrence}
    (split : occurrences = read ++ occurrence :: rest)
    (along : Along gone outside parameters occurrences read) :
    Along gone outside parameters occurrences (read ++ [occurrence]) := by
  have names : (read.foldl Reading.step .start).rootNames ⊆
      ((read ++ [occurrence]).foldl Reading.step .start).rootNames := by
    rw [List.foldl_append]
    exact ((Reading.rooted_start.foldl read).rooted.step occurrence).names
  have part : read ++ [occurrence] <+: occurrences := by
    rw [split]
    simp
  cases occurrence with
  | declare rule name =>
    cases goes : gone name.span.start with
    | true => exact h.along_gone split goes along names
    | false => exact h.along_declare split goes along names
  | enter holdsVars =>
    obtain ⟨waiting, hosts, numbers⟩ := along
    refine ⟨waiting, ?_⟩
    rw [moduleStack_concat, functionStack_concat]
    exact ⟨hosts.enter holdsVars, numbers.of_declared rfl rfl names⟩
  | word offset =>
    obtain ⟨waiting, hosts, numbers⟩ := along
    refine ⟨waiting, ?_⟩
    rw [moduleStack_concat, functionStack_concat]
    exact ⟨hosts, numbers.of_declared rfl rfl names⟩
  | settle =>
    obtain ⟨waiting, hosts, numbers⟩ := along
    obtain ⟨waiting', hosts'⟩ := hosts.settle
    refine ⟨waiting', ?_⟩
    rw [moduleStack_concat, functionStack_concat]
    exact ⟨hosts', numbers.of_declared (Stack.declared_settle _) (Stack.count_settle _) names⟩
  | leave =>
    obtain ⟨waiting, hosts, numbers⟩ := along
    have isOpen : (moduleStack read).leave.frames ≠ [] := by
      obtain ⟨seen, well⟩ := h.moduleStack_eq part
      obtain ⟨inner, o, frames, -⟩ := Reading.exists_frames well
      rw [← seen, moduleStack_concat] at frames
      have frames : (moduleStack read).leave.frames = inner ++ [_] := frames
      simp [frames]
    obtain ⟨waiting', hosts'⟩ := hosts.leave isOpen
    refine ⟨waiting', ?_⟩
    rw [moduleStack_concat, functionStack_concat]
    exact ⟨hosts', numbers.of_declared (Stack.declared_settle _) (Stack.count_settle _) names⟩
  | refer offset name writes =>
    obtain ⟨waiting, hosts, numbers⟩ := along
    have read_ : functionStack gone outside parameters (read ++ [.refer offset name writes]) =
        if gone offset then functionStack gone outside parameters read
        else (functionStack gone outside parameters read).refer offset name := by
      rw [functionStack_concat]
      cases goes : gone offset <;>
        simp [Occurrence.stands, Occurrence.offset?, Occurrence.declared?, Occurrence.referred?,
          goes, Stack.step]
    refine ⟨waiting, ?_⟩
    rw [moduleStack_concat, read_]
    refine ⟨hosts.refer offset name, numbers.of_declared (Stack.declared_refer _ _ _) ?_ names⟩
    split
    · rfl
    · exact Stack.count_refer _ _ _

/-- **A run** over the module and over the function that it is put into. -/
theorem along {read rest : List Occurrence} (split : occurrences = read ++ rest) :
    Along gone outside parameters occurrences read := by
  induction read using List.reverseRecOn generalizing rest with
  | nil => exact along_nil
  | append_singleton read occurrence ih =>
    rw [List.append_assoc, List.singleton_append] at split
    exact h.along_concat split (ih split)

/-- In the end only the top scope is open. -/
theorem exists_frame : ∃ f, (moduleStack occurrences).frames = [f] := by
  obtain ⟨seen, well⟩ := h.moduleStack_eq List.prefix_rfl
  obtain ⟨inner, o, frames, -, alone⟩ := Reading.exists_frames well
  have one := (Reading.wellNested_start.foldl h.balanced).2
  have top : (occurrences.foldl Reading.step .start).current = ScopeTree.root := by
    exact Reading.current_congr one
  rw [alone top] at frames
  exact ⟨_, seen ▸ frames⟩

/-- **What a reference of the module is bound to in the function**, or around it. -/
theorem resolved_hosted {e : (Nat × String) × Option Nat}
    (mem : e ∈ (Stack.ofOccurrences occurrences).resolved) (kept : gone e.1.1 = false) :
    (e.1, ((moveOf gone outside parameters occurrences).target? e.1.2 e.2).or
        (lookup e.1.2 (numberedFrom 0 outside))) ∈
      (Stack.ofOccurrences (hosted gone outside parameters occurrences)).resolved := by
  obtain ⟨_, hosts, -⟩ := h.along (List.append_nil occurrences).symm
  obtain ⟨waiting, matched, -, resolved⟩ := hosts.settle
  obtain ⟨f, frames⟩ := h.exists_frame
  have answers := resolved e mem kept
  have one : (moduleStack occurrences).settle.frames = [f.clear] := by
    rw [Stack.settle_of_single frames]
  rw [one] at matched
  generalize same : (functionStack gone outside parameters occurrences).settle.frames = frames'
    at matched
  cases matched with
  | inner _ matched => nomatch matched
  | top =>
    have around : (functionStack gone outside parameters occurrences).leave.frames =
        [{ aroundOf outside with pending := waiting }] := by
      show List.drop 1 _ = _
      rw [same]
      rfl
    rw [ofOccurrences_hosted h.outside h.parameters, Stack.settle_of_single around]
    unfold Move.Answers at answers
    split at answers
    · rename_i binding target
      rw [target]
      exact List.mem_append_left _ answers
    · rename_i none
      rw [none, Option.none_or]
      refine List.mem_append_right _ (List.mem_append.mpr ?_)
      cases found : lookup e.1.2 (numberedFrom 0 outside) with
      | some binding =>
        exact .inl (List.mem_filterMap.mpr ⟨e.1, answers, by simp [aroundOf, found]⟩)
      | none =>
        refine .inr (List.mem_map_of_mem (List.mem_filter.mpr ⟨answers, ?_⟩))
        simp [aroundOf, found]

/-! ### Declarations in the function -/

/-- All declarations of the module that stay are in the function. -/
theorem declared_hosted {d : Nat × Nat} (mem : d ∈ (Stack.ofOccurrences occurrences).declared)
    (kept : gone d.1 = false) :
    (d.1, (moveOf gone outside parameters occurrences).becomes d.2) ∈
      (Stack.ofOccurrences (hosted gone outside parameters occurrences)).declared := by
  obtain ⟨_, hosts, -⟩ := h.along (List.append_nil occurrences).symm
  have all : (Stack.ofOccurrences occurrences).declared = (moduleStack occurrences).declared :=
    Stack.declared_settle _
  exact (h.declared_functionStack List.prefix_rfl).subset
    (hosts.declared d (all ▸ mem) kept)

/-- What is declared in the end is declared around the function, or a parameter, or in the module. -/
theorem declared_cases {p binding : Nat} (mem : (p, binding) ∈
    (Stack.ofOccurrences (hosted gone outside parameters occurrences)).declared) :
    (p, binding) ∈ declaredFrom 0 outside ∨ (p, binding) ∈ declaredFrom outside.length parameters ∨
      ∃ b, (p, b) ∈ (Stack.ofOccurrences occurrences).declared ∧ gone p = false ∧
        (moveOf gone outside parameters occurrences).becomes b = binding := by
  have position : p ∈ declaredOffsets (hosted gone outside parameters occurrences) := by
    rw [← records_ofOccurrences, (view_ofOccurrences (balanced_hosted h.balanced)).1]
    exact List.mem_map_of_mem mem
  have first {b : Nat} (opened : (p, b) ∈ (opening outside parameters).declared) : b = binding := by
    have kept := (h.declared_functionStack (List.nil_prefix)).subset opened
    exact congrArg Prod.snd (List.inj_on_of_nodup_map h.nodup_declared_hosted kept mem rfl)
  obtain ⟨occurrence, among, here⟩ := List.mem_filterMap.mp position
  have numbered (count : Nat) {names : List Name} (mem : occurrence ∈ declareAll .here names) :
      ∃ b, (p, b) ∈ declaredFrom count names := by
    obtain ⟨name, named, rfl⟩ := List.mem_map.mp mem
    obtain ⟨i, there⟩ := List.mem_iff_getElem?.mp named
    exact ⟨_, mem_declaredFrom.mpr ⟨i, name, there, Option.some.inj here, rfl⟩⟩
  simp only [hosted, functionOf, enclosed, List.mem_append, List.mem_cons, List.not_mem_nil,
    or_false, List.mem_filter] at among
  rcases among with mem | rfl | ((mem | rfl) | ⟨inside, stands⟩) | rfl
  · obtain ⟨b, there⟩ := numbered 0 mem
    exact .inl (first (List.mem_append_left _ there) ▸ there)
  · contradiction
  · obtain ⟨b, there⟩ := numbered outside.length mem
    exact .inr (.inl (first (List.mem_append_right _ there) ▸ there))
  · contradiction
  · have offset : occurrence.offset? = some p := by
      unfold Occurrence.offset?
      rw [here]
      rfl
    have kept : gone p = false := by simpa [Occurrence.stands, offset] using stands
    have known : p ∈ (Stack.ofOccurrences occurrences).declared.map Prod.fst := by
      rw [← (view_ofOccurrences h.balanced).1, records_ofOccurrences]
      exact List.mem_filterMap.mpr ⟨occurrence, inside, here⟩
    obtain ⟨⟨_, b⟩, there, rfl⟩ := List.mem_map.mp known
    have moved := h.declared_hosted there kept
    exact .inr (.inr ⟨b, there, kept,
      congrArg Prod.snd (List.inj_on_of_nodup_map h.nodup_declared_hosted moved mem rfl)⟩)
  · contradiction

/-- What is declared in the function at a position of the module is declared in the module. -/
theorem exists_declared {p binding : Nat} (own : p ∈ offsets occurrences)
    (mem : (p, binding) ∈
      (Stack.ofOccurrences (hosted gone outside parameters occurrences)).declared) :
    ∃ b, (p, b) ∈ (Stack.ofOccurrences occurrences).declared ∧ gone p = false ∧
      (moveOf gone outside parameters occurrences).becomes b = binding := by
  have other {count : Nat} {names : List Name} (sub : names ⊆ outside ++ parameters) :
      (p, binding) ∉ declaredFrom count names := by
    intro mem
    obtain ⟨i, name, there, here, -⟩ := mem_declaredFrom.mp mem
    exact (List.nodup_append.mp h.positions).2.2 p
      (List.mem_map.mpr ⟨name, sub (List.mem_of_getElem? there), here⟩) p own rfl
  rcases h.declared_cases mem with mem | mem | here
  · exact absurd mem (other (List.subset_append_left _ _))
  · exact absurd mem (other (List.subset_append_right _ _))
  · exact here

/-! ### References in the function -/

/-- **What stays refers to the same declarations** in the function. -/
theorem refersTo_iff_of_kept {n d : Nat} (stands : gone n = false)
    (refers : (Bindings.ofOccurrences occurrences).RefersTo n d) (kept : gone d = false) {e : Nat}
    (own : e ∈ offsets occurrences) :
    (Bindings.ofOccurrences (hosted gone outside parameters occurrences)).RefersTo n e ↔
      (Bindings.ofOccurrences occurrences).RefersTo n e := by
  obtain ⟨name, b, mem, declared⟩ := exists_resolved_of_refersTo h.balanced refers
  have moved := h.resolved_hosted mem stands
  have stays := h.goes_eq_false declared kept
  unfold Move.target? at moved
  dsimp only at stays moved
  rw [stays] at moved
  rw [refersTo_iff (balanced_hosted h.balanced) h.nodup_hosted moved,
    refersTo_iff h.balanced h.own mem]
  obtain ⟨_, -, numbers⟩ := h.along (List.append_nil occurrences).symm
  have all : (Stack.ofOccurrences occurrences).declared = (moduleStack occurrences).declared :=
    Stack.declared_settle _
  constructor
  · rintro ⟨_, same, there⟩
    obtain rfl := Option.some.inj same
    obtain ⟨b', here, kept', same⟩ := h.exists_declared own there
    obtain rfl : b' = b := numbers.injective (e, b') (all ▸ here) kept' (d, b) (all ▸ declared) kept
      same
    exact ⟨b', rfl, here⟩
  · rintro ⟨_, same, there⟩
    obtain rfl := Option.some.inj same
    refine ⟨_, rfl, h.declared_hosted there ?_⟩
    by_contra goes
    rw [Bool.not_eq_false] at goes
    have once := h.declared_once declared there rfl goes
    rw [← congrArg Prod.fst once, kept] at goes
    contradiction

/-- The bindings of a module do not become those of names around the function. -/
theorem le_becomes {d : Nat × Nat} (mem : d ∈ (Stack.ofOccurrences occurrences).declared)
    (kept : gone d.1 = false) :
    outside.length ≤ (moveOf gone outside parameters occurrences).becomes d.2 := by
  obtain ⟨_, -, numbers⟩ := h.along (List.append_nil occurrences).symm
  have all : (Stack.ofOccurrences occurrences).declared = (moduleStack occurrences).declared :=
    Stack.declared_settle _
  rcases numbers.apart d (all ▸ mem) kept with past | ⟨name, -, parameter⟩
  · omega
  · obtain ⟨i, p, -, -, same⟩ := (lookup_numberedFrom h.parameters).mp parameter
    omega

/-- What is declared around the function is declared in the end. -/
theorem declared_outside {i : Nat} {name : Name} (place : outside[i]? = some name) :
    (name.span.start, i) ∈
      (Stack.ofOccurrences (hosted gone outside parameters occurrences)).declared :=
  (h.declared_functionStack (List.nil_prefix)).subset (List.mem_append_left _
    (mem_declaredFrom.mpr ⟨i, name, place, rfl, (Nat.zero_add i).symm⟩))

/-- What stays refers to nothing around the function. -/
theorem not_refersTo_outside {n d : Nat} (stands : gone n = false)
    (refers : (Bindings.ofOccurrences occurrences).RefersTo n d) (kept : gone d = false)
    {name : Name} (around : name ∈ outside) :
    ¬ (Bindings.ofOccurrences (hosted gone outside parameters occurrences)).RefersTo n
      name.span.start := by
  obtain ⟨text, b, mem, declared⟩ := exists_resolved_of_refersTo h.balanced refers
  have moved := h.resolved_hosted mem stands
  have stays := h.goes_eq_false declared kept
  unfold Move.target? at moved
  dsimp only at stays moved
  rw [stays] at moved
  rw [refersTo_iff (balanced_hosted h.balanced) h.nodup_hosted moved]
  rintro ⟨_, same, there⟩
  obtain rfl := Option.some.inj same
  obtain ⟨i, place⟩ := List.mem_iff_getElem?.mp around
  have long := (List.getElem?_eq_some_iff.mp place).1
  have past := h.le_becomes declared kept
  have numbered : (moveOf gone outside parameters occurrences).becomes b = i :=
    congrArg Prod.snd
      (List.inj_on_of_nodup_map h.nodup_declared_hosted there (h.declared_outside place) rfl)
  dsimp only at past
  omega

/-- **What stays and does not refer to a parameter refers to what it referred to.** -/
theorem refersTo_iff_of_uncaptured {n d : Nat} (stands : gone n = false)
    (refers : (Bindings.ofOccurrences occurrences).RefersTo n d) (kept : gone d = false)
    (uncaptured : ∀ p ∈ parameters,
      ¬ (Bindings.ofOccurrences (hosted gone outside parameters occurrences)).RefersTo n
        p.span.start) (e : Nat) :
    (Bindings.ofOccurrences (hosted gone outside parameters occurrences)).RefersTo n e ↔
      (Bindings.ofOccurrences occurrences).RefersTo n e := by
  have stays {e : Nat} (own : e ∈ offsets occurrences) :=
    h.refersTo_iff_of_kept stands refers kept own
  constructor
  · intro moved
    have there := (declaredOffsets_sublist _).subset moved.mem_declaredOffsets
    rw [offsets_hosted, List.mem_append] at there
    rcases there with there | own
    · obtain ⟨name, mem, rfl⟩ := List.mem_map.mp there
      rcases List.mem_append.mp mem with around | parameter
      · exact absurd moved (h.not_refersTo_outside stands refers kept around)
      · exact absurd moved (uncaptured name parameter)
    · exact (stays (List.filter_sublist.subset own)).mp moved
  · intro same
    exact (stays ((declaredOffsets_sublist _).subset same.mem_declaredOffsets)).mpr same

/-- The top scope declares what goes. -/
theorem mem_rootNames_of_gone {d b : Nat}
    (declared : (d, b) ∈ (Stack.ofOccurrences occurrences).declared) (goes : gone d = true) :
    textAt occurrences d ∈ (occurrences.foldl Reading.step .start).rootNames := by
  have position : d ∈ declaredOffsets occurrences := by
    rw [← records_ofOccurrences, (view_ofOccurrences h.balanced).1]
    exact List.mem_map_of_mem declared
  obtain ⟨occurrence, among, here⟩ := List.mem_filterMap.mp position
  cases occurrence with
  | declare rule name =>
    obtain rfl : name.span.start = d := Option.some.inj here
    obtain ⟨before, after, split⟩ := List.append_of_mem among
    rw [h.textAt_eq among]
    exact (h.gone before rule name after split goes).2.2.2.1
  | enter | leave | settle | refer | word => contradiction

/-- What goes is declared by the name that refers to it. -/
theorem textAt_of_gone {n d b : Nat} {name : String}
    (mem : ((n, name), some b) ∈ (Stack.ofOccurrences occurrences).resolved)
    (declared : (d, b) ∈ (Stack.ofOccurrences occurrences).declared) (goes : gone d = true) :
    textAt occurrences d = name := by
  have sound := (h.sound List.prefix_rfl).settle
  obtain ⟨d', mem', same, named⟩ := sound.found _ mem b rfl
  rw [h.declared_once mem' declared same.symm goes] at named
  exact named

/-- **A name whose variable goes refers to what is declared by that name around the function**, unless
a parameter has the name. -/
theorem refersTo_iff_of_gone {n d : Nat} (stands : gone n = false)
    (refers : (Bindings.ofOccurrences occurrences).RefersTo n d) (goes : gone d = true)
    {name : Name} (around : name ∈ outside) (named : name.text = textAt occurrences d)
    (free : textAt occurrences d ∉ parameters.map Name.text) {e : Nat} :
    (Bindings.ofOccurrences (hosted gone outside parameters occurrences)).RefersTo n e ↔
      e = name.span.start := by
  obtain ⟨text, b, mem, declared⟩ := exists_resolved_of_refersTo h.balanced refers
  have moved := h.resolved_hosted mem stands
  obtain rfl := h.textAt_of_gone mem declared goes
  have goes' : (moveOf gone outside parameters occurrences).goes b = true :=
    goes_eq_true declared goes
  obtain ⟨i, place⟩ := List.mem_iff_getElem?.mp around
  have parameter : lookup (textAt occurrences d) (numberedFrom outside.length parameters) = none := by
    cases found : lookup (textAt occurrences d) (numberedFrom outside.length parameters) with
    | none => rfl
    | some binding =>
      obtain ⟨i, p, here, same, -⟩ := (lookup_numberedFrom h.parameters).mp found
      exact absurd (same ▸ List.mem_map_of_mem (List.mem_of_getElem? here)) free
  have here : lookup (textAt occurrences d) (numberedFrom 0 outside) = some (0 + i) :=
    (lookup_numberedFrom h.outside).mpr ⟨i, name, place, named, rfl⟩
  have target : (moveOf gone outside parameters occurrences).target? (textAt occurrences d)
      (some b) = none := by
    unfold Move.target?
    dsimp only at goes' ⊢
    rw [goes', if_pos rfl]
    exact parameter
  rw [target, Option.none_or, here] at moved
  rw [refersTo_iff (balanced_hosted h.balanced) h.nodup_hosted moved]
  have long := (List.getElem?_eq_some_iff.mp place).1
  constructor
  · rintro ⟨_, same, there⟩
    obtain rfl := Option.some.inj same
    rcases h.declared_cases there with mem | mem | ⟨b', mem, kept, same⟩
    · obtain ⟨i', name', place', rfl, same⟩ := mem_declaredFrom.mp mem
      obtain rfl : i = i' := by omega
      rw [place] at place'
      rw [Option.some.inj place']
    · obtain ⟨i', name', -, -, same⟩ := mem_declaredFrom.mp mem
      omega
    · have := h.le_becomes mem kept
      dsimp only at this
      omega
  · rintro rfl
    exact ⟨_, rfl, (Nat.zero_add i).symm ▸ h.declared_outside place⟩

/-- **A parameter is referred to by names that are free in the module** alone, unless the top scope
declares its name. -/
theorem mem_rootNames_of_refersTo {n d : Nat} {p : Name} (stands : gone n = false)
    (parameter : p ∈ parameters)
    (refers : (Bindings.ofOccurrences occurrences).RefersTo n d)
    (captured : (Bindings.ofOccurrences (hosted gone outside parameters occurrences)).RefersTo n
      p.span.start) : p.text ∈ (occurrences.foldl Reading.step .start).rootNames := by
  obtain ⟨text, b, mem, declared⟩ := exists_resolved_of_refersTo h.balanced refers
  have moved := h.resolved_hosted mem stands
  rw [refersTo_iff (balanced_hosted h.balanced) h.nodup_hosted moved] at captured
  obtain ⟨k, target, there⟩ := captured
  obtain ⟨i, place⟩ := List.mem_iff_getElem?.mp parameter
  -- The binding is that of the parameter.
  have opened : (p.span.start, outside.length + i) ∈ (opening outside parameters).declared :=
    List.mem_append_right _ (mem_declaredFrom.mpr ⟨i, p, place, rfl, rfl⟩)
  have own := (h.declared_functionStack (List.nil_prefix)).subset opened
  obtain rfl : outside.length + i = k :=
    congrArg Prod.snd (List.inj_on_of_nodup_map h.nodup_declared_hosted own there rfl)
  have its {text : String} (found : lookup text (numberedFrom outside.length parameters) =
      some (outside.length + i)) : text = p.text := by
    obtain ⟨i', p', place', rfl, same⟩ := (lookup_numberedFrom h.parameters).mp found
    obtain rfl : i = i' := by omega
    rw [place] at place'
    rw [Option.some.inj place']
  have outer : lookup text (numberedFrom 0 outside) ≠ some (outside.length + i) := by
    intro found
    obtain ⟨i', _, place', -, same⟩ := (lookup_numberedFrom h.outside).mp found
    have := (List.getElem?_eq_some_iff.mp place').1
    omega
  cases goes : gone d with
  | false =>
    obtain ⟨_, -, numbers⟩ := h.along (List.append_nil occurrences).symm
    have all : (Stack.ofOccurrences occurrences).declared = (moduleStack occurrences).declared :=
      Stack.declared_settle _
    have long := (List.getElem?_eq_some_iff.mp place).1
    have stays := h.goes_eq_false declared goes
    unfold Move.target? at target
    dsimp only at stays target
    rw [stays] at target
    have becomes : (moveOf gone outside parameters occurrences).becomes b = outside.length + i :=
      Option.some.inj target
    rcases numbers.apart (d, b) (all ▸ declared) goes with past | ⟨name, top, found⟩
    · dsimp only at past
      omega
    · dsimp only at found
      rw [becomes] at found
      exact its found ▸ top
  | true =>
    -- The variable goes, and the top scope declares it.
    have goes' : (moveOf gone outside parameters occurrences).goes b = true :=
      goes_eq_true declared goes
    unfold Move.target? at target
    dsimp only at goes' target
    rw [goes', if_pos rfl] at target
    rcases Option.or_eq_some_iff.mp target with found | ⟨-, found⟩
    · have named := h.textAt_of_gone mem declared goes
      rw [← its found, ← named]
      exact h.mem_rootNames_of_gone declared goes
    · exact absurd found outer

end Hostable

end Run

end ModuleInterop.Scope
