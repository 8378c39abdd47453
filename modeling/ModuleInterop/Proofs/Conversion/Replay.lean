import ModuleInterop.Proofs.Conversion.Distinct

/-!
# The assignments of a module and those of its conversion

A module that is not wrapped assigns properties of an empty object, one after the other.  In its
conversion the same statements declare variables or assign to them, and an object of these variables
is made in the end.  Both give the same table of properties for all values that are assigned
(`exports_replay`): at any point, the variables are the properties so far under other names
(`run_rewrites`).
-/

set_option autoImplicit false

namespace ModuleInterop.Conversion

open ModuleInterop.Syntax ModuleInterop.Scope ModuleInterop.Usage ModuleInterop.Patch

/-! ## Tables -/

/-- Values by name, in the order in which the names were first given one: the properties of an object,
or the variables of a module. -/
abbrev Table (α : Type) := List (String × α)

namespace Table

variable {α : Type}

/-- The value of a name. -/
def get? (table : Table α) (name : String) : Option α :=
  (table.find? fun entry => entry.1 == name).map Prod.snd

/-- Gives a name a value, in its place if it has one already. -/
def set (table : Table α) (name : String) (value : α) : Table α :=
  if (table.map Prod.fst).contains name then
    table.map fun entry => if entry.1 == name then (name, value) else entry
  else table ++ [(name, value)]

/-- Gives names values, one after the other. -/
def setAll (table : Table α) (stores : List (String × α)) : Table α :=
  stores.foldl (fun table store => table.set store.1 store.2) table

/-- A table with other names. -/
def rename (f : String → String) (table : Table α) : Table α :=
  table.map fun entry => (f entry.1, entry.2)

variable {table : Table α} {name : String} {value : α} {f : String → String}

/-- The names of a table after one is given a value. -/
theorem names_set : (table.set name value).map Prod.fst = appendNew (table.map Prod.fst) name := by
  unfold set appendNew
  split
  · rw [List.map_map]
    refine List.map_congr_left fun entry _ => ?_
    show (if entry.1 == name then (name, value) else entry).1 = entry.1
    split
    · rename_i same
      exact (beq_iff_eq.mp same).symm
    · rfl
  · exact List.map_append

/-- The names of a table after some are given values. -/
theorem names_setAll (stores : List (String × α)) :
    (table.setAll stores).map Prod.fst =
      (stores.map Prod.fst).foldl appendNew (table.map Prod.fst) := by
  induction stores generalizing table with
  | nil => rfl
  | cons store stores ih =>
    show ((table.set store.1 store.2).setAll stores).map Prod.fst = _
    rw [ih, names_set]
    rfl

theorem names_rename : (table.rename f).map Prod.fst = (table.map Prod.fst).map f := by
  rw [rename, List.map_map, List.map_map]
  rfl

/-- **Giving a value and renaming** can change places, as long as no two names become one. -/
theorem rename_set (injective : ∀ other ∈ table.map Prod.fst, f other = f name → other = name) :
    (table.rename f).set (f name) value = (table.set name value).rename f := by
  have known : ((table.rename f).map Prod.fst).contains (f name) =
      (table.map Prod.fst).contains name := by
    rw [Bool.eq_iff_iff, List.contains_iff_mem, List.contains_iff_mem, names_rename, List.mem_map]
    exact ⟨fun ⟨other, mem, same⟩ => injective other mem same ▸ mem, fun mem => ⟨name, mem, rfl⟩⟩
  unfold set
  rw [known]
  split
  · unfold rename
    rw [List.map_map, List.map_map]
    refine List.map_congr_left fun entry mem => ?_
    have same : f entry.1 = f name ↔ entry.1 = name :=
      ⟨injective entry.1 (List.mem_map_of_mem mem), congrArg f⟩
    by_cases named : entry.1 = name
    · simp [named]
    · simp [named, mt same.mp named]
  · rw [rename, rename, List.map_append]
    rfl

/-- A name of a table without repetitions has the value that stands with it. -/
theorem get?_of_mem (distinct : (table.map Prod.fst).Nodup) (mem : (name, value) ∈ table) :
    table.get? name = some value := by
  induction table with
  | nil => contradiction
  | cons entry table ih =>
    rw [List.map_cons, List.nodup_cons] at distinct
    unfold get?
    rcases List.mem_cons.mp mem with rfl | later
    · simp
    · have other : entry.1 ≠ name := fun same => distinct.1 (same ▸ List.mem_map_of_mem later)
      rw [List.find?_cons_of_neg (by simpa using other)]
      exact ih distinct.2 later

end Table

/-! ## Assignments of a module, and what becomes of them -/

/-- A statement of a module that assigns an export: where the statement begins, what it assigns to,
and the name. -/
structure ExportStatement where
  start : Nat
  target : Span
  name : String
  deriving DecidableEq, Repr

/-- The export that a statement assigns. -/
def exportStatement? (bindings : Bindings) : Stmt → Option ExportStatement
  | .expression span (.assign _ _ target _) =>
    ((exportPath? bindings target).bind ExportPath.name).map (⟨span.start, target.span, ·⟩)
  | _ => none

/-- The statements of a module that assign exports. -/
def exportStatements (bindings : Bindings) (body : List Stmt) : List ExportStatement :=
  body.filterMap (exportStatement? bindings)

/-- An assignment to a variable, which may also declare the variable. -/
structure VariableStore where
  variableName : String
  declares : Bool
  deriving DecidableEq, Repr

/-- What an assignment to a variable has on its left side. -/
def VariableStore.text (store : VariableStore) : String :=
  (if store.declares then "var " else "") ++ store.variableName

/-- The edit that puts an assignment to a variable in place of a statement, up to the end of what that
assigns to.  It replaces what is assigned to, and nothing more if the statement begins with it. -/
def ExportStatement.edit (statement : ExportStatement) (store : VariableStore) : Edit :=
  replacement ⟨statement.start, statement.target.stop⟩ store.text

/-- What becomes of statements that assign exports, given the variables of the exports: one that is
the first for its name declares the variable. -/
def rewrites (variableOf : String → String) :
    List String → List ExportStatement → List VariableStore
  | _, [] => []
  | seen, statement :: statements =>
    ⟨variableOf statement.name, !seen.contains statement.name⟩ ::
      rewrites variableOf (appendNew seen statement.name) statements

/-- The name that a statement assigns an export to. -/
theorem assignedName?_eq (bindings : Bindings) (s : Stmt) :
    assignedName? bindings s = (exportStatement? bindings s).map ExportStatement.name := by
  cases s with
  | expression span e =>
    cases e with
    | assign inner plain target value =>
      rw [exportStatement?, Option.map_map]
      exact (congrFun Option.map_id _).symm
    | _ => rfl
  | _ => rfl

/-- The names of the statements that assign exports are those that are assigned. -/
theorem names_exportStatements (bindings : Bindings) (body : List Stmt) :
    (exportStatements bindings body).map ExportStatement.name = assignedNames bindings body := by
  rw [exportStatements, assignedNames, List.map_filterMap]
  exact congrArg (List.filterMap · body) (funext fun s => (assignedName?_eq bindings s).symm)

/-- The edits of statements that follow others know the names of those. -/
theorem edits_rewrites_append (variableOf : String → String) (seen : List String)
    (statements others : List ExportStatement) :
    List.zipWith ExportStatement.edit (statements ++ others)
        (rewrites variableOf seen (statements ++ others)) =
      List.zipWith ExportStatement.edit statements (rewrites variableOf seen statements) ++
        List.zipWith ExportStatement.edit others
          (rewrites variableOf ((statements.map ExportStatement.name).foldl appendNew seen)
            others) := by
  induction statements generalizing seen with
  | nil => rfl
  | cons statement statements ih =>
    rw [List.cons_append, rewrites, List.zipWith_cons_cons, ih]
    rfl

section Run

variable {α : Type}

/-- Runs assignments to variables with the values that they assign.  One that does not declare its
variable fails unless the variable is there. -/
def runStores : Table α → List (VariableStore × α) → Option (Table α)
  | held, [] => some held
  | held, (store, value) :: stores =>
    if store.declares || (held.map Prod.fst).contains store.variableName then
      runStores (held.set store.variableName value) stores
    else none

/-- The object with some properties, each of which has the value of a variable. -/
def objectOf (held : Table α) (entries : List (String × String)) : Option (Table α) :=
  entries.mapM fun entry => (held.get? entry.2).map (entry.1, ·)

variable {variableOf : String → String} {table : Table α}

/-- **The run of the rewritten assignments**: the variables are the properties so far under their other
names, and they stay so. -/
theorem run_rewrites {statements : List ExportStatement} {values : List α}
    (injective : ∀ name other, variableOf name = variableOf other →
      name ∈ table.map Prod.fst ++ statements.map ExportStatement.name →
      other ∈ table.map Prod.fst ++ statements.map ExportStatement.name → name = other)
    (count : values.length = statements.length) :
    runStores (table.rename variableOf)
        ((rewrites variableOf (table.map Prod.fst) statements).zip values) =
      some ((table.setAll ((statements.map ExportStatement.name).zip values)).rename variableOf) := by
  induction statements generalizing table values with
  | nil =>
    obtain rfl := List.length_eq_zero_iff.mp count
    rfl
  | cons statement statements ih =>
    obtain ⟨value, values, rfl⟩ := List.exists_cons_of_length_eq_add_one count
    have here : statement.name ∈
        table.map Prod.fst ++ (statement :: statements).map ExportStatement.name :=
      List.mem_append_right _ List.mem_cons_self
    have stored : (table.rename variableOf).set (variableOf statement.name) value =
        (table.set statement.name value).rename variableOf :=
      Table.rename_set fun other mem same =>
        injective other statement.name same (List.mem_append_left _ mem) here
    have runs : (!(table.map Prod.fst).contains statement.name ||
        ((table.rename variableOf).map Prod.fst).contains (variableOf statement.name)) = true := by
      rw [Bool.or_eq_true, Bool.not_eq_true', List.contains_iff_mem, Table.names_rename]
      by_cases known : statement.name ∈ table.map Prod.fst
      · exact .inr (List.mem_map_of_mem known)
      · exact .inl (by simpa using known)
    have next := @ih (table.set statement.name value) values (by
      intro name other same
      rw [Table.names_set]
      intro mem mem'
      have among (name : String) (mem : name ∈ appendNew (table.map Prod.fst) statement.name ++
          statements.map ExportStatement.name) : name ∈
          table.map Prod.fst ++ (statement :: statements).map ExportStatement.name := by
        rw [List.mem_append, mem_appendNew_iff] at mem
        rw [List.map_cons, List.mem_append, List.mem_cons]
        tauto
      exact injective name other same (among name mem) (among other mem')) (by simpa using count)
    rw [rewrites, List.zip_cons_cons, runStores, if_pos runs, stored, ← Table.names_set, next]
    rfl

/-- The object of variables that are the properties of a table under other names is that table. -/
theorem objectOf_rename (injective : ∀ name other, variableOf name = variableOf other →
      name ∈ table.map Prod.fst → other ∈ table.map Prod.fst → name = other)
    (distinct : (table.map Prod.fst).Nodup) :
    objectOf (table.rename variableOf) (table.map fun entry => (entry.1, variableOf entry.1)) =
      some table := by
  have distinct' : ((table.rename variableOf).map Prod.fst).Nodup := by
    rw [Table.names_rename]
    exact distinct.map_on fun name mem other mem' same => injective name other same mem mem'
  have values : ∀ entry ∈ table,
      ((table.rename variableOf).get? (variableOf entry.1)).map (entry.1, ·) = some entry := by
    intro entry mem
    rw [Table.get?_of_mem distinct' (List.mem_map_of_mem mem)]
    rfl
  unfold objectOf
  rw [List.mapM_map]
  generalize table.rename variableOf = held at values
  clear injective distinct distinct'
  induction table with
  | nil => rfl
  | cons entry table ih =>
    rw [List.mapM_cons, Function.comp_apply, values entry List.mem_cons_self,
      ih fun e mem => values e (List.mem_cons_of_mem _ mem)]
    rfl

end Run

/-! ## The edits of the assignments -/

namespace Locals

variable {bindings : Bindings} {freeNames : List String} {valueName : String}
  {locals final : Locals}

/-- The variable of an exported name. -/
def variableOf (locals : Locals) (name : String) : String := (locals.localName? name).getD ""

/-- **One statement** that assigns an export is edited as it is rewritten. -/
theorem rewrites_step (locals : Locals) {s : Stmt} (piecewise : ¬ AssignsValue bindings [s])
    (later : Grows (locals.step bindings freeNames valueName s) final) :
    (locals.step bindings freeNames valueName s).edits = locals.edits ++
      List.zipWith ExportStatement.edit (exportStatement? bindings s).toList
        (rewrites final.variableOf (locals.entries.map Prod.fst)
          (exportStatement? bindings s).toList) := by
  have final_variable {name variableName : String} (known :
      (locals.step bindings freeNames valueName s).localName? name = some variableName) :
      final.variableOf name = variableName := by
    rw [variableOf, later.names _ _ known]
    rfl
  unfold step at final_variable ⊢
  split at final_variable
  · rename_i span inner plain target value
    unfold exportStatement?
    split at final_variable
    · rename_i exporting
      simp only [exporting]
      exact (List.append_nil _).symm
    · rename_i root exporting
      exact absurd ⟨_, _, _, _, _, root, List.mem_cons_self, exporting⟩ piecewise
    · rename_i root name exporting
      simp only [exporting, Option.bind_some, Option.map_some, Option.toList_some, rewrites,
        List.zipWith_cons_cons, List.zipWith_nil_left]
      split at final_variable
      · rename_i variableName known
        have seen : (locals.entries.map Prod.fst).contains name = true := by
          rw [List.contains_iff_mem]
          by_contra unknown
          rw [localName?_eq_none.mpr unknown] at known
          contradiction
        rw [seen, final_variable known]
        rfl
      · rename_i unknown
        have unseen : (locals.entries.map Prod.fst).contains name = false := by
          rw [← Bool.not_eq_true, List.contains_iff_mem]
          exact localName?_eq_none.mp unknown
        rw [unseen, final_variable (localName?_of_new unknown rfl)]
        rfl
  · rename_i other
    have none : exportStatement? bindings s = none := by
      unfold exportStatement?
      split
      · exact absurd rfl (other _ _ _ _ _)
      · rfl
    rw [none]
    exact (List.append_nil _).symm

/-- **Statements** that assign exports are edited as they are rewritten. -/
theorem rewrites_foldl {body : List Stmt} (piecewise : ¬ AssignsValue bindings body)
    (later : Grows (body.foldl (step bindings freeNames valueName) locals) final) :
    (body.foldl (step bindings freeNames valueName) locals).edits = locals.edits ++
      List.zipWith ExportStatement.edit (exportStatements bindings body)
        (rewrites final.variableOf (locals.entries.map Prod.fst) (exportStatements bindings body)) := by
  induction body generalizing locals with
  | nil => exact (List.append_nil _).symm
  | cons s body ih =>
    have first : ¬ AssignsValue bindings [s] := by
      rintro ⟨span, inner, plain, target, value, root, mem, exporting⟩
      obtain rfl := List.mem_singleton.mp mem
      exact piecewise ⟨_, _, _, _, _, root, List.mem_cons_self, exporting⟩
    have others : ¬ AssignsValue bindings body := by
      rintro ⟨span, inner, plain, target, value, root, mem, exporting⟩
      exact piecewise ⟨_, _, _, _, _, root, List.mem_cons_of_mem _ mem, exporting⟩
    have here := rewrites_step locals first
      ((foldl_grows bindings freeNames valueName _ body).trans later)
    have joined : exportStatements bindings (s :: body) =
        (exportStatement? bindings s).toList ++ exportStatements bindings body := by
      unfold exportStatements
      cases given : exportStatement? bindings s <;> simp [given]
    have named : (assignedName? bindings s).toList =
        (exportStatement? bindings s).toList.map ExportStatement.name := by
      rw [assignedName?_eq]
      cases exportStatement? bindings s <;> rfl
    rw [List.foldl_cons, ih others later, here, List.append_assoc, names_step, named, joined,
      edits_rewrites_append]

/-- Different names that have variables have different ones, if the entries do. -/
theorem variableOf_injective (names : (locals.entries.map Prod.fst).Nodup)
    (distinct : (locals.entries.map Prod.snd).Nodup) {name other : String}
    (same : locals.variableOf name = locals.variableOf other)
    (mem : name ∈ locals.entries.map Prod.fst) (mem' : other ∈ locals.entries.map Prod.fst) :
    name = other := by
  have entry {name : String} (mem : name ∈ locals.entries.map Prod.fst) :
      (name, locals.variableOf name) ∈ locals.entries := by
    obtain ⟨⟨name', variableName⟩, among, rfl⟩ := List.mem_map.mp mem
    have found : locals.localName? name' = some variableName := Table.get?_of_mem names among
    rw [variableOf, found]
    exact among
  exact congrArg Prod.fst (List.inj_on_of_nodup_map distinct (entry mem) (entry mem') same)

/-- The entries are their names with the variables of these. -/
theorem entries_eq (names : (locals.entries.map Prod.fst).Nodup) :
    locals.entries =
      (locals.entries.map Prod.fst).map fun name => (name, locals.variableOf name) := by
  rw [List.map_map]
  refine (List.map_id _).symm.trans (List.map_congr_left fun entry mem => ?_)
  have found : locals.localName? entry.1 = some entry.2 := Table.get?_of_mem names mem
  show entry = (entry.1, locals.variableOf entry.1)
  rw [variableOf, found]
  rfl

end Locals

/-! ## The value of a converted module -/

section Module

variable (program : Program) (source : List Char) (id : String) (options : Options)

/-- The statements of a module that assign exports. -/
def storesOf : List ExportStatement :=
  exportStatements (Bindings.ofProgram program) program.body

/-- The properties of an empty object to which the values of the assignments are assigned as the module
does. -/
def tableOf {α : Type} (values : List α) : Table α :=
  Table.setAll [] (((storesOf program).map ExportStatement.name).zip values)

/-- What becomes of the assignments in the conversion of the module. -/
def rewrittenStores : List VariableStore :=
  rewrites (localsOf program source id options).variableOf [] (storesOf program)

end Module

variable {program : Program} {source : List Char} {id : String} {options : Options}
  {out : Converted}

/-- The names of the entries are those that are assigned. -/
theorem names_localsOf :
    (localsOf program source id options).entries.map Prod.fst =
      (assignedNames (Bindings.ofProgram program) program.body).foldl appendNew [] :=
  Locals.names_foldl program.body

/-- The names of the entries are distinct. -/
theorem nodup_localsOf :
    ((localsOf program source id options).entries.map Prod.fst).Nodup := by
  rw [names_localsOf]
  exact nodup_foldl_appendNew List.nodup_nil

/-- The names of the properties that a module assigns are those that its statements assign. -/
theorem names_tableOf {program : Program} {α : Type} {values : List α}
    (count : values.length = (storesOf program).length) :
    (tableOf program values).map Prod.fst =
      (assignedNames (Bindings.ofProgram program) program.body).foldl appendNew [] := by
  rw [tableOf, Table.names_setAll, List.map_fst_zip (by simp [count]), storesOf,
    names_exportStatements]
  rfl

/-- The names that are assigned have entries, and no others have. -/
theorem mem_names_localsOf {name : String} :
    name ∈ (localsOf program source id options).entries.map Prod.fst ↔
      name ∈ assignedNames (Bindings.ofProgram program) program.body := by
  rw [names_localsOf, mem_foldl_appendNew_iff]
  exact or_iff_right List.not_mem_nil

/-- Different names that are assigned have different variables. -/
theorem variableOf_localsOf_injective {name other : String}
    (same : (localsOf program source id options).variableOf name =
      (localsOf program source id options).variableOf other)
    (mem : name ∈ (localsOf program source id options).entries.map Prod.fst)
    (mem' : other ∈ (localsOf program source id options).entries.map Prod.fst) : name = other :=
  Locals.variableOf_injective nodup_localsOf claims_localsOf.distinct same mem mem'

section Held

variable {α : Type} {values : List α} (count : values.length = (storesOf program).length)

include count

/-- The properties of the value have the names of the entries. -/
theorem names_tableOf_eq :
    (tableOf program values).map Prod.fst =
      (localsOf program source id options).entries.map Prod.fst :=
  (names_tableOf count).trans names_localsOf.symm

/-- The entries are the names of the properties with the variables of these. -/
theorem entries_localsOf :
    (localsOf program source id options).entries = (tableOf program values).map fun entry =>
      (entry.1, (localsOf program source id options).variableOf entry.1) := by
  rw [Locals.entries_eq nodup_localsOf, ← names_tableOf_eq count, List.map_map]
  rfl

/-- The variable of a property holds its value. -/
theorem get?_rename_tableOf {name : String} {value : α} (mem : (name, value) ∈ tableOf program values) :
    ((tableOf program values).rename (localsOf program source id options).variableOf).get?
      ((localsOf program source id options).variableOf name) = some value := by
  refine Table.get?_of_mem ?_ (List.mem_map_of_mem mem)
  rw [Table.names_rename, names_tableOf_eq count]
  exact nodup_localsOf.map_on fun name mem other mem' same =>
    variableOf_localsOf_injective same mem mem'

end Held

/-- A property of the value that is exported has none of the names that are exported before. -/
theorem mem_foldl_addProperty {freeNames : List String} {valueName : String}
    {state : ScopeTree × List Export} {names : List String} {e : Export}
    (mem : e ∈ (names.foldl (addProperty freeNames valueName) state).2) :
    e ∈ state.2 ∨ e.name ∉ state.2.map Export.name := by
  induction names generalizing state with
  | nil => exact .inl mem
  | cons name names ih =>
    rcases ih mem with here | new
    · unfold addProperty at here
      rw [any_name_eq_contains] at here
      split at here
      · exact .inl here
      · rename_i unknown
        rcases List.mem_append.mp here with earlier | last
        · exact .inl earlier
        · rw [List.mem_singleton.mp last]
          exact .inr fun known => unknown (List.contains_iff_mem.mpr known)
    · refine .inr fun known => new ?_
      rw [names_addProperty, mem_appendNew_iff]
      exact .inl known

/-- The exports of a module whose names are assigned are those of the variables, and perhaps the whole
value under its own name. -/
theorem export_of_assigned (notWrapped : (findingsOf program source options).wrapped = false)
    {e : Export} (mem : e ∈ (layout program source id options).exports)
    (assigned : e.name ∈ assignedNames (Bindings.ofProgram program) program.body) :
    e = exportOfVariable e.name ((localsOf program source id options).variableOf e.name) ∨
      e = exportOfValue (valueOf program source id options).1 ∧ options.isEntry = false := by
  have origin : e ∈ (layout program source id options).body.exports ∨
      e.name ∉ (layout program source id options).body.exports.map Export.name :=
    @mem_foldl_addProperty _ _ ((layout program source id options).body.scopes,
      (layout program source id options).body.exports) _ e mem
  rcases origin with here | new
  · have body := exports_body_of_open id notWrapped
    rcases List.mem_append.mp (body ▸ here) with first | shown
    · split at first
      · contradiction
      · rename_i notEntry
        exact .inr ⟨List.mem_singleton.mp first, by simpa using notEntry⟩
    · obtain ⟨entry, among, rfl⟩ := List.mem_map.mp shown
      have found : (localsOf program source id options).localName? entry.1 = some entry.2 :=
        Table.get?_of_mem nodup_localsOf (List.mem_of_mem_filter among)
      have variableName : (localsOf program source id options).variableOf entry.1 = entry.2 := by
        rw [Locals.variableOf, found]
        rfl
      exact .inl (congrArg (exportOfVariable entry.1) variableName.symm)
  · refine absurd ?_ new
    have named : e.name ≠ "default" := by
      intro same
      have mem : e.name ∈ (layout program source id options).exports.map Export.name :=
        List.mem_map_of_mem mem
      exact default_not_mem_names (same ▸ mem)
    rw [names_body, heldNames, notWrapped]
    refine List.mem_append_right _ (List.mem_filter.mpr ⟨?_, bne_iff_ne.mpr named⟩)
    exact mem_foldl_appendNew_iff.mpr (.inr assigned)

/-- **The conversion of a module replays its assignments.**  Where a module is not wrapped and does not
assign its value as a whole, each statement that assigns an export becomes an assignment to a variable.
For all values that are assigned, these can be run, and the object that is made in the end is the
table of properties that the module makes: the same names in the order of their first assignments,
each with its last value.  All of these but the default are exported with their values. -/
theorem exports_replay (converted : convert program source id options = .ok (some out))
    (notWrapped : out.wrapped = false)
    (piecewise : ¬ AssignsValue (Bindings.ofProgram program) program.body)
    {α : Type} (values : List α) (count : values.length = (storesOf program).length) :
    (layout program source id options).body.edits = (findingsOf program source options).edits ++
        List.zipWith ExportStatement.edit (storesOf program)
          (rewrittenStores program source id options) ∧
    ∃ entries held,
      (layout program source id options).body.after =
          valueObject (valueOf program source id options).1 entries ∧
      runStores [] ((rewrittenStores program source id options).zip values) = some held ∧
      objectOf held entries = some (tableOf program values) ∧
      (∀ name value, (name, value) ∈ tableOf program values → name ≠ "default" →
        ∃ variableName, exportOfVariable name variableName ∈
            (layout program source id options).exports ∧
          held.get? variableName = some value) ∧
      ∀ e ∈ (layout program source id options).exports,
        ∀ value, (e.name, value) ∈ tableOf program values →
          (∃ variableName, e = exportOfVariable e.name variableName ∧
            held.get? variableName = some value) ∨
          e = exportOfValue (valueOf program source id options).1 ∧ options.isEntry = false := by
  obtain ⟨edited, emitted⟩ := exists_emitted converted
  have isOpen : (findingsOf program source options).wrapped = false := emitted.wrapped ▸ notWrapped
  have named : (storesOf program).map ExportStatement.name =
      assignedNames (Bindings.ofProgram program) program.body := names_exportStatements _ _
  have names : (tableOf program values).map Prod.fst =
      (localsOf program source id options).entries.map Prod.fst := names_tableOf_eq count
  refine ⟨?_, (localsOf program source id options).entries,
    (tableOf program values).rename (localsOf program source id options).variableOf, ?_, ?_, ?_, ?_, ?_⟩
  · rw [layout_of_open isOpen]
    exact Locals.rewrites_foldl piecewise (Locals.Grows.refl _)
  · have unassigned : (localsOf program source id options).assignsValue = false := by
      by_contra assigned
      exact piecewise (Locals.assigns_of_foldl rfl ((Bool.not_eq_false _).mp assigned))
    obtain ⟨exports, body⟩ := body_layout program source id options
    rw [body, bodyOf, if_neg (by simp [isOpen])]
    show (if (localsOf program source id options).assignsValue then "" else _) = _
    rw [unassigned]
    rfl
  · refine @run_rewrites _ _ [] _ _ (fun name other same mem mem' => ?_) count
    rw [List.map_nil, List.nil_append, named, ← mem_names_localsOf] at mem mem'
    exact variableOf_localsOf_injective same mem mem'
  · rw [entries_localsOf count]
    refine objectOf_rename (fun name other same mem mem' => ?_) (names ▸ nodup_localsOf)
    exact variableOf_localsOf_injective same (names ▸ mem) (names ▸ mem')
  · intro name value mem other
    refine ⟨(localsOf program source id options).variableOf name, ?_, get?_rename_tableOf count mem⟩
    have entry : (name, (localsOf program source id options).variableOf name) ∈
        (localsOf program source id options).entries := by
      rw [entries_localsOf count]
      exact List.mem_map.mpr ⟨_, mem, rfl⟩
    refine (exports_prefix_addProperty _ _ ((layout program source id options).body.scopes,
      (layout program source id options).body.exports) _).subset ?_
    rw [exports_body_of_open id isOpen]
    exact List.mem_append_right _ (List.mem_map.mpr
      ⟨_, List.mem_filter.mpr ⟨entry, bne_iff_ne.mpr other⟩, rfl⟩)
  · intro e mem value valued
    have entry : e.name ∈ (localsOf program source id options).entries.map Prod.fst :=
      names ▸ List.mem_map_of_mem valued
    have assigned := mem_names_localsOf.mp entry
    refine (export_of_assigned isOpen mem assigned).imp_left fun same => ?_
    exact ⟨_, same, get?_rename_tableOf count valued⟩

/-! ## Assignments that are replayed, and some that are not -/

/-- Whether a statement assigns the value as a whole. -/
def assignsWhole (bindings : Bindings) : Stmt → Bool
  | .expression _ (.assign _ _ target _) =>
    (exportPath? bindings target).any fun path => path.name.isNone
  | _ => false

/-- Among statements none of which assigns the value as a whole, there is no such assignment. -/
theorem not_assignsValue {bindings : Bindings} {body : List Stmt}
    (none : body.any (assignsWhole bindings) = false) : ¬ AssignsValue bindings body := by
  rintro ⟨span, inner, plain, target, value, root, mem, exporting⟩
  have whole := List.any_eq_false.mp none _ mem
  rw [assignsWhole, exporting] at whole
  exact whole rfl

/-- A module that assigns one export twice, and another one whose name is a variable of its own. -/
def replaySource : List Char := "var b; exports.a = b; exports.b = b; exports.a = b;".toList

/-- The tree of `replaySource`. -/
def replayModule : Program :=
  ⟨[.variables ⟨0, 6⟩ .var [.mk ⟨4, 5⟩ (.binding ⟨⟨4, 5⟩, "b"⟩) none],
    .expression ⟨7, 21⟩ (.assign ⟨7, 20⟩ true
      (.target (.member ⟨7, 16⟩ (.name ⟨7, 14⟩ "exports") "a")) (.name ⟨19, 20⟩ "b")),
    .expression ⟨22, 36⟩ (.assign ⟨22, 35⟩ true
      (.target (.member ⟨22, 31⟩ (.name ⟨22, 29⟩ "exports") "b")) (.name ⟨34, 35⟩ "b")),
    .expression ⟨37, 51⟩ (.assign ⟨37, 50⟩ true
      (.target (.member ⟨37, 46⟩ (.name ⟨37, 44⟩ "exports") "a")) (.name ⟨49, 50⟩ "b"))]⟩

set_option maxRecDepth 4000 in
/-- Three values for the assignments make two properties, and so do the variables. -/
theorem three_assignments_replayed :
    parseModule replaySource = .ok replayModule ∧
      rewrittenStores replayModule replaySource "m" .plain =
        [⟨"a", true⟩, ⟨"b_1", true⟩, ⟨"a", false⟩] ∧
      ∃ entries held,
        (layout replayModule replaySource "m" .plain).body.after = valueObject "m" entries ∧
        runStores [] ((rewrittenStores replayModule replaySource "m" .plain).zip [1, 2, 3]) =
          some held ∧
        objectOf held entries = some [("a", 3), ("b", 2)] := by
  have parsed : parseModule replaySource = .ok replayModule := rfl
  obtain ⟨out, converted, -⟩ :=
    exists_converted (confined_layout parsed "m" .plain) (by decide +kernel)
  obtain ⟨edited, emitted⟩ := exists_emitted converted
  have notWrapped : out.wrapped = false := emitted.wrapped.trans (by decide +kernel)
  obtain ⟨-, entries, held, after, runs, object, -⟩ := exports_replay converted notWrapped
    (not_assignsValue (by decide +kernel)) [1, 2, 3] (by decide +kernel)
  have name : (valueOf replayModule replaySource "m" .plain).1 = "m" := by decide +kernel
  have table : tableOf replayModule [1, 2, 3] = [("a", 3), ("b", 2)] := by decide +kernel
  exact ⟨parsed, by decide +kernel, entries, held, name ▸ after, runs, table ▸ object⟩

/-- A module that assigns an export in parentheses. -/
def groupedSource : List Char := "var b; (exports.a) = b;".toList

/-- The tree of `groupedSource`. -/
def groupedModule : Program :=
  ⟨[.variables ⟨0, 6⟩ .var [.mk ⟨4, 5⟩ (.binding ⟨⟨4, 5⟩, "b"⟩) none],
    .expression ⟨7, 23⟩ (.assign ⟨7, 22⟩ true
      (.target (.member ⟨8, 17⟩ (.name ⟨8, 15⟩ "exports") "a")) (.name ⟨21, 22⟩ "b"))]⟩

set_option maxRecDepth 4000 in
/-- An export of the name for the whole value is there twice, and once it has the whole value and not
the one that is assigned; after an export in parentheses, a parenthesis is left over. -/
theorem assignments_not_replayed :
    (parseModule valueNameSource = .ok valueNameModule ∧
      ∃ out, convert valueNameModule valueNameSource "m" .plain = .ok (some out) ∧
        out.wrapped = false ∧ tableOf valueNameModule [()] = [(valueExport, ())] ∧
        (layout valueNameModule valueNameSource "m" .plain).exports =
          [exportOfValue "m", exportOfVariable valueExport valueExport]) ∧
    (parseModule groupedSource = .ok groupedModule ∧
      ∃ out, convert groupedModule groupedSource "m" .plain = .ok (some out) ∧
        out.wrapped = false ∧ (parseModule out.code.toList).toBool = false) := by
  refine ⟨⟨rfl, ?_⟩, ⟨rfl, ?_⟩⟩
  · obtain ⟨out, converted, notWrapped⟩ := exists_of_any (show
      (convert valueNameModule valueNameSource "m" .plain).toOption.join.any
        (fun out => !out.wrapped) = true by decide +kernel)
    exact ⟨out, converted, (Bool.not_eq_true' _).mp notWrapped, by decide +kernel,
      by decide +kernel⟩
  · obtain ⟨out, converted, test⟩ := exists_of_any (show
      (convert groupedModule groupedSource "m" .plain).toOption.join.any
        (fun out => !out.wrapped && !(parseModule out.code.toList).toBool) = true by
          decide +kernel)
    rw [Bool.and_eq_true, Bool.not_eq_true', Bool.not_eq_true'] at test
    exact ⟨out, converted, test.1, test.2⟩

end ModuleInterop.Conversion
