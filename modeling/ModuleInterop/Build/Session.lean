import ModuleInterop.Build.Failure
import ModuleInterop.Build.Registry
import ModuleInterop.Build.Resolution
import ModuleInterop.Syntax.Parser.Module

/-!
# Build sessions

A session holds what a build has found out: the classification of each module that has been
transformed or asked for, and a record of each module that has been looked at.  Transforming a
module settles its classification, also if it fails.  Loading a proxy asks for the classification
of the module it stands for, and may have to wait for it.
-/

set_option autoImplicit false

namespace ModuleInterop.Build

open ModuleInterop.Syntax ModuleInterop.Virtual

/-- What has been found out about a module. -/
structure ModuleRecord where
  classification : Classification
  isEsModule : Bool
  hasDefaultExport : Bool
  wrapped : Bool
  /-- The targets of `require` in the order of their first use. -/
  sources : List String
  namedExports : List String
  deriving DecidableEq, Repr

/-- The record of a module that is left alone. -/
def ModuleRecord.unchanged (classification : Classification) (info : EsModuleInfo) :
    ModuleRecord :=
  ⟨classification, info.isEsModule, info.hasDefaultExport, false, [], []⟩

/-- The record of a module that has been converted. -/
def ModuleRecord.converted (info : EsModuleInfo) (result : Conversion.Converted) : ModuleRecord :=
  { classification := if info.hasDefaultExport then .esmWithDefault else .cjs
    isEsModule := info.isEsModule
    hasDefaultExport := result.addsDefaultExport || info.hasDefaultExport
    wrapped := result.wrapped
    sources := result.sources
    namedExports := result.namedExports }

/-- The text of a converted module. -/
structure TransformOutput where
  code : String
  map : Option SourceMap
  deriving DecidableEq, Repr

/-- Reads the text of the module with an id. -/
def readModule (source : List Char) (id : String) : Except Failure Program :=
  match parseModule source with
  | .ok program => .ok program
  | .error problem =>
    let (line, column) := Text.lineColumn source problem.offset
    .error (.unreadable id problem.cause line column)

/-- The classification of an ES module. -/
def esClassification (info : EsModuleInfo) : Classification :=
  if info.hasDefaultExport then .esmWithDefault else .esmWithoutDefault

/-- What a session has found out, and what it goes by. -/
structure Session where
  options : Options
  filter : Filter
  resolvers : List Resolver
  registry : Registry
  /-- The records by id, the latest of an id first. -/
  records : List (String × ModuleRecord)

namespace Session

/-- A session that has found out nothing yet. -/
def ofOptions (options : Options) (resolvers : List Resolver) : Except Failure Session :=
  match Filter.ofOptions options with
  | .ok filter => .ok ⟨options, filter, resolvers, .empty, []⟩
  | .error bad => .error (.badPattern bad)

/-- The record of a module. -/
def record? (session : Session) (id : String) : Option ModuleRecord :=
  (session.records.find? fun r => r.1 == id).map (·.2)

/-- Settles the classification of a module, unless it is settled. -/
def publish (session : Session) (id : String) (classification : Classification) : Session :=
  { session with registry := (session.registry.settle id classification).2 }

/-- Settles the classification of a module and keeps a record of it. -/
def keep (session : Session) (id : String) (record : ModuleRecord) : Session :=
  let published := session.publish id record.classification
  { published with records := (id, record) :: published.records }

/-- What becomes of a module: nothing (`unseen`), no conversion, a conversion, or a failure. -/
inductive Outcome where
  /-- The module is not looked at. -/
  | unseen
  /-- The module is left alone. -/
  | unchanged (record : ModuleRecord)
  | converted (record : ModuleRecord) (output : TransformOutput)
  /-- The module is no CommonJS module, although names were given that it exports. -/
  | mismatch (record : ModuleRecord)
  | failed (failure : Failure)
  deriving DecidableEq, Repr

/-- The outcome for a module that is left alone: names that it exports must not have been given. -/
def leave (record : ModuleRecord) (names : List String) : Outcome :=
  if names.isEmpty then .unchanged record else .mismatch record

/-- The choices for the conversion of a module. -/
def conversionOptions (options : Options) (id : String) (isEntry : Bool) (info : EsModuleInfo) :
    Conversion.Options :=
  { isEntry, ignoreGlobal := options.ignoreGlobal
    allowDynamicRequire := options.dynamicRequireAllowed
    ignored := options.ignore
    namedExports := options.namedExportsFor id
    hasDefaultExport := info.hasDefaultExport
    sourceMap := options.sourceMap }

/-- The outcome for a module that has been read and has the words of a CommonJS module. -/
def convertModule (options : Options) (program : Program) (source : List Char) (id : String)
    (isEntry : Bool) : Outcome :=
  let info := EsModuleInfo.ofProgram program
  let unchanged := ModuleRecord.unchanged (esClassification info) info
  match Conversion.convert program source id (conversionOptions options id isEntry info) with
  | .ok (some result) => .converted (.converted info result) ⟨result.code, result.map⟩
  | .ok none => .unchanged unchanged
  | .error .notCommonJs => .mismatch unchanged
  | .error (.unpatchable problem) => .failed (.ofPatch problem)

/-- The outcome for a module, which depends on the options and on its own text and id alone. -/
def outcome (options : Options) (filter : Filter) (source : List Char) (id : String)
    (isEntry : Bool) : Outcome :=
  let names := options.namedExportsFor id
  let hasWord := hasCommonJsWord source options.ignoreGlobal
  if !filter.accepts id then .unseen
  else if !hasWord && !hasModuleWord source then
    leave (.unchanged .esmWithoutDefault .none) names
  else
    match readModule source id with
    | .error failure => .failed failure
    | .ok program =>
      if hasWord then convertModule options program source id isEntry
      else
        let info := EsModuleInfo.ofProgram program
        leave (.unchanged (esClassification info) info) names

/-- A session after an outcome. -/
def absorb (session : Session) (id : String) : Outcome → Session
  | .unseen | .failed _ => session.publish id .unknown
  | .unchanged record | .converted record _ | .mismatch record => session.keep id record

/-- What the host is told of an outcome. -/
def Outcome.answer (id : String) : Outcome → Except Failure (Option TransformOutput)
  | .unseen | .unchanged _ => .ok none
  | .converted _ output => .ok (some output)
  | .mismatch _ => .error (.notCommonJs id)
  | .failed failure => .error failure

/-- Transforms a module.  The answer has no output if the module is used as it is. -/
def transform (session : Session) (code id : String) (isEntry : Bool) :
    Except Failure (Option TransformOutput) × Session :=
  let result := outcome session.options session.filter code.toList id isEntry
  (result.answer id, session.absorb id result)

/-- What a virtual module consists of. -/
inductive Loaded where
  /-- A fixed text, or nothing if the id is not that of a virtual module. -/
  | ready (text : Option String)
  /-- The proxy of a module, whose classification decides. -/
  | proxy (target : String)
  deriving DecidableEq, Repr

/-- What the virtual module with an id consists of. -/
def loaded (id : String) : Loaded :=
  if id = helpersId then .ready (some helpers)
  else
    match after? externalPrefix id with
    | some target => .ready (some (externalProxy target))
    | none =>
      match after? proxyPrefix id with
      | some target => .proxy target
      | none => .ready none

/-- Resolves an import, and tells which resolvers were asked what. -/
def resolve (session : Session) (importee : String) (importer : Option String) :
    Option String × List Consultation :=
  resolveId session.options session.resolvers importee importer

end Session

end ModuleInterop.Build
