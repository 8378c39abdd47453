import ModuleInterop.Proofs.Build.Links
import ModuleInterop.Proofs.Conversion.Replay

/-!
# What a CommonJS module sees of an ES module

A CommonJS module gets the default export of a proxy.  For a module without a default export that is
the namespace of the module, unless the module has been converted (`proxied`).  So all that an ES module
exports is seen if it is left as it is.

A module may have named exports and CommonJS names in its text as well, and then it is converted and
counts as a CommonJS module.  What is seen is its value, and that is put together from the assignments
to `exports` only: what the module exports by declarations is not seen (`es_names_seen`,
`hybrid_name_unseen`).
-/

set_option autoImplicit false

namespace ModuleInterop.Build

open ModuleInterop.Syntax ModuleInterop.Conversion ModuleInterop.Scope ModuleInterop.Virtual

/-! ## The default export of a proxy -/

/-- The values of a run, as far as proxies look into them: objects with properties, and whether a value
counts as true. -/
structure Values (α : Type) where
  object : Table α → α
  properties : α → Table α
  truthy : α → Bool
  properties_object : ∀ table, properties (object table) = table

namespace Values

variable {α : Type} (V : Values α)

/-- The value of `getCjsExportFromNamespace` for a namespace with some exports: the default export if
there is one that counts as true, and else the namespace. -/
def withoutNamespace (exports : Table α) : α :=
  match exports.get? "default" with
  | some value => if V.truthy value then value else V.object exports
  | none => V.object exports

/-- The default export of the proxy of a module that has been classified and has some exports. -/
def proxied (c : Classification) (exports : Table α) : Option α :=
  match takenName c with
  | some name => exports.get? name
  | none => some (if c = .unknown then V.withoutNamespace exports else V.object exports)

variable {V} {c : Classification} {exports : Table α}

/-- Where no name is taken and there is no default export, the whole namespace is seen. -/
theorem proxied_of_namespace (none : takenName c = none) (noDefault : "default" ∉ exports.map Prod.fst) :
    V.proxied c exports = some (V.object exports) := by
  have absent : exports.get? "default" = .none := by
    refine Option.map_eq_none_iff.mpr (List.find?_eq_none.mpr fun entry mem same => noDefault ?_)
    exact List.mem_map.mpr ⟨entry, mem, beq_iff_eq.mp same⟩
  unfold proxied withoutNamespace
  rw [none, absent]
  exact congrArg some (ite_self _)

end Values

/-- A proxy imports a module as a namespace, and exports that as its default, or what a helper makes of
it. -/
def TakesNamespace (target : String) (c : Classification) : Prop :=
  ∃ name, proxyModule target c = "import * as " ++ name ++ " from " ++ Text.quote target ++
    if c = .unknown then "; import \x7b" ++ namespaceHelper ++ "\x7d from " ++
      Text.quote helpersId ++ "; export default " ++ namespaceHelper ++ "(" ++ name ++ ")"
    else "; export default " ++ name ++ ";"

/-- A proxy that takes no name takes the namespace. -/
theorem takesNamespace {c : Classification} (none : takenName c = none) (target : String) :
    TakesNamespace target c := by
  cases c with
  | esmWithDefault => contradiction
  | cjs => contradiction
  | esmWithoutDefault =>
    have text : proxyModule target .esmWithoutDefault = "import * as " ++ nameOfId target ++
        " from " ++ Text.quote target ++ "; export default " ++ nameOfId target ++ ";" := rfl
    refine ⟨nameOfId target, text.trans ?_⟩
    simp only [reduceCtorEq, if_false, String.append_assoc]
  | unknown =>
    have text : proxyModule target .unknown = "import * as " ++ nameOfId target ++ " from " ++
        Text.quote target ++ "; import \x7b" ++ namespaceHelper ++ "\x7d from " ++
          Text.quote helpersId ++ "; export default " ++ namespaceHelper ++ "(" ++
            nameOfId target ++ ")" := rfl
    refine ⟨nameOfId target, text.trans ?_⟩
    simp only [if_true, String.append_assoc]

/-! ## What is seen of a module without a default export -/

/-- A module that exports nothing as its default is not known to have a default export. -/
theorem hasDefaultExport_eq_false {program : Program} (none : "default" ∉ program.exportedNames) :
    (EsModuleInfo.ofProgram program).hasDefaultExport = false :=
  List.any_eq_false.mpr fun s mem exports =>
    none (List.mem_flatMap.mpr ⟨s, mem, s.default_mem_exportedNames exports⟩)

/-- The value of a converted module that is not wrapped and does not assign its value as a whole, for
some values that it assigns: an object is made of the variables that stand for the assignments. -/
def MakesValue {α : Type} (program : Program) (source : List Char) (id : String)
    (options : Conversion.Options) (values : List α) (table : Table α) : Prop :=
  ∃ entries held,
    (layout program source id options).body.after =
      valueObject (valueOf program source id options).1 entries ∧
    runStores [] ((rewrittenStores program source id options).zip values) = some held ∧
    objectOf held entries = some table

namespace Session

variable {session : Session} {code id : String} {c : Classification} {program : Program}
  {output : Option TransformOutput} {α : Type}

/-- **What a CommonJS module sees of an ES module** without a default export that the build does not
start from.  If the module is left as it is, its proxy gives all that it exports, with the values.  If
it is converted, the proxy gives its value; unless the module is wrapped or assigns its value as a
whole, that has properties for the names that are assigned to `exports`, and a name that the module
exports is not among them unless it is assigned, too. -/
theorem es_names_seen (V : Values α) (unsettled : session.registry.peek id = none)
    (succeeds : (session.transform code id false).1 = .ok output)
    (settled : (session.transform code id false).2.registry.peek id = some c)
    (parsed : parseModule code.toList = .ok program)
    (noDefault : "default" ∉ program.exportedNames) :
    (output = none → TakesNamespace id c ∧
      ∀ exports : Table α, program.exportedNames ⊆ exports.map Prod.fst →
        "default" ∉ exports.map Prod.fst →
        ∃ value, V.proxied c exports = some value ∧ V.properties value = exports ∧
          ∀ name ∈ program.exportedNames, name ∈ (V.properties value).map Prod.fst) ∧
    ∀ text, output = some text →
      Takes id c valueExport ∧ Provides session.options code id false (some text) valueExport ∧
      ∃ out, convert program code.toList id (choices session.options id false program) =
          .ok (some out) ∧ text = ⟨out.code, out.map⟩ ∧
        (out.wrapped = false →
          ¬ AssignsValue (Bindings.ofProgram program) program.body →
          ∀ values : List α, values.length = (storesOf program).length →
            ∃ table, MakesValue program code.toList id (choices session.options id false program)
                values table ∧
              ∀ exports : Table α, exports.get? valueExport = some (V.object table) →
                ∃ value, V.proxied c exports = some value ∧
                  ∀ name ∈ program.exportedNames,
                    name ∈ (V.properties value).map Prod.fst ↔
                      name ∈ assignedNames (Bindings.ofProgram program) program.body) := by
  have own : (EsModuleInfo.ofProgram program).hasDefaultExport = false :=
    hasDefaultExport_eq_false noDefault
  have arises := arises_outcome session.options session.filter code.toList id false
  have known := peek_absorb unsettled
    (outcome session.options session.filter code.toList id false)
  have classified := Option.some.inj (known.symm.trans settled)
  have answered : (outcome session.options session.filter code.toList id false).answer id =
      .ok output := succeeds
  have whole (none : takenName c = none) : TakesNamespace id c ∧
      ∀ exports : Table α, program.exportedNames ⊆ exports.map Prod.fst →
        "default" ∉ exports.map Prod.fst →
        ∃ value, V.proxied c exports = some value ∧ V.properties value = exports ∧
          ∀ name ∈ program.exportedNames, name ∈ (V.properties value).map Prod.fst := by
    refine ⟨takesNamespace none id, fun exports names noDefault => ?_⟩
    refine ⟨_, Values.proxied_of_namespace none noDefault, V.properties_object exports, ?_⟩
    rw [V.properties_object]
    exact names
  have provided (cjs : c = .cjs) : Takes id c valueExport ∧
      Provides session.options code id false output valueExport := by
    subst cjs
    exact taken_is_exported unsettled succeeds settled rfl fun _ => rfl
  revert arises classified answered
  generalize outcome session.options session.filter code.toList id false = result
  intro arises classified answered
  subst classified
  cases arises with
  | unseen | wordless =>
    obtain rfl := Except.ok.inj answered
    exact ⟨fun _ => whole rfl, fun text given => by contradiction⟩
  | @unchanged other read =>
    obtain rfl := Except.ok.inj answered
    obtain rfl := Except.ok.inj (parsed.symm.trans read)
    have none : esClassification (.ofProgram program) = .esmWithoutDefault := if_neg (by simp [own])
    exact ⟨fun _ => whole (congrArg takenName none), fun text given => by contradiction⟩
  | @converted other out read converted =>
    obtain rfl := Except.ok.inj answered
    obtain rfl := Except.ok.inj (parsed.symm.trans read)
    have cjs : (ModuleRecord.converted (.ofProgram program) out).classification = .cjs :=
      if_neg (by simp [own])
    refine ⟨fun none => by contradiction, fun text given => ?_⟩
    obtain rfl := Option.some.inj given
    obtain ⟨takes, provides⟩ := provided cjs
    refine ⟨takes, provides, out, converted, rfl, fun notWrapped piecewise values count => ?_⟩
    obtain ⟨-, entries, held, after, runs, object, -⟩ :=
      exports_replay converted notWrapped piecewise values count
    refine ⟨tableOf program values, ⟨entries, held, after, runs, object⟩, fun exports value => ?_⟩
    refine ⟨V.object (tableOf program values), ?_, fun name _ => ?_⟩
    · show V.proxied (ModuleRecord.converted (.ofProgram program) out).classification exports = _
      rw [cjs]
      exact value
    · rw [V.properties_object, names_tableOf count, mem_foldl_appendNew_iff]
      exact or_iff_right List.not_mem_nil
  | mismatch => contradiction
  | failed => contradiction

/-! ## A module that is left as it is, and one that is converted -/

/-- Objects whose properties are objects. -/
inductive PlainObject where
  | object (properties : List (String × PlainObject))

/-- Objects as values. -/
def plainObjects : Values PlainObject where
  object := .object
  properties | .object properties => properties
  truthy _ := true
  properties_object _ := rfl

/-- A module that exports a variable. -/
def exportingCode : String := "export var a;"

/-- The tree of `exportingCode`. -/
def exportingTree : Program :=
  ⟨[.exportDeclaration ⟨0, 13⟩
    (.variables ⟨7, 13⟩ .var [.mk ⟨11, 12⟩ (.binding ⟨⟨11, 12⟩, "a"⟩) none])]⟩

set_option maxRecDepth 4000 in
/-- The module is left as it is, and its export is seen. -/
theorem exported_name_seen :
    Session.ofOptions fresh.options [] = .ok fresh ∧
      parseModule exportingCode.toList = .ok exportingTree ∧
      (fresh.transform exportingCode "m.js" false).1 = .ok none ∧
      ∃ value, plainObjects.proxied .esmWithoutDefault [("a", .object [])] = some value ∧
        "a" ∈ (plainObjects.properties value).map Prod.fst := by
  have parsed : parseModule exportingCode.toList = .ok exportingTree := rfl
  have run : (fresh.transform exportingCode "m.js" false).1.toOption.any Option.isNone = true ∧
      (fresh.transform exportingCode "m.js" false).2.registry.peek "m.js" =
        some .esmWithoutDefault := by
    decide +kernel
  obtain ⟨output, succeeds, none⟩ := exists_ok_of_any run.1
  obtain rfl := Option.isNone_iff_eq_none.mp none
  obtain ⟨-, seen⟩ := (es_names_seen plainObjects rfl succeeds run.2 parsed (by decide)).1 rfl
  obtain ⟨value, gives, -, shows⟩ := seen [("a", .object [])] (by decide) (by decide)
  exact ⟨rfl, parsed, succeeds, value, gives, shows "a" (by decide)⟩

/-- A module that exports a variable, and requires another one. -/
def requiringCode : String := "export var a; require('b');"

/-- The tree of `requiringCode`. -/
def requiringTree : Program :=
  ⟨exportingTree.body ++ [.expression ⟨14, 27⟩
    (.call ⟨14, 26⟩ (.name ⟨14, 21⟩ "require") [.literal ⟨22, 25⟩ (.string "b")])]⟩

set_option maxRecDepth 4000 in
/-- The module is converted, and its value, which is all that is seen of it, has no properties. -/
theorem hybrid_name_unseen :
    Session.ofOptions fresh.options [] = .ok fresh ∧
      parseModule requiringCode.toList = .ok requiringTree ∧ requiringTree.exportedNames = ["a"] ∧
      (∃ text, (fresh.transform requiringCode "m.js" false).1 = .ok (some text) ∧
        (valueObject "m" []).toList <:+: text.code.toList) ∧
      (fresh.transform requiringCode "m.js" false).2.registry.peek "m.js" = some .cjs ∧
      plainObjects.proxied .cjs [("a", .object []), (valueExport, .object [])] =
        some (.object []) ∧
      "a" ∉ (plainObjects.properties (.object [])).map Prod.fst := by
  have run : (fresh.transform requiringCode "m.js" false).1.toOption.join.any
        (fun text => (valueObject "m" []).toList <:+: text.code.toList) = true ∧
      (fresh.transform requiringCode "m.js" false).2.registry.peek "m.js" = some .cjs := by
    decide +kernel
  obtain ⟨text, succeeds, value⟩ := exists_of_any run.1
  exact ⟨rfl, rfl, by decide, ⟨text, succeeds, of_decide_eq_true value⟩, run.2, rfl, by decide⟩

end Session

end ModuleInterop.Build
