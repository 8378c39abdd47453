import ModuleInterop.Virtual.Id
import ModuleInterop.Build.Options

/-!
# Resolving ids

Imports are resolved by the resolvers of the host, of which the first one that answers counts.  They
never see the prefixes of virtual modules: these are taken off before, and put back on the answer.
What no resolver answers for, and what is configured to be external, is outside the build.
-/

set_option autoImplicit false

namespace ModuleInterop.Build

open ModuleInterop.Virtual

/-- Answers with the id of the module that is imported, if it can; it is given what is imported and
the id of the module that imports it. -/
abbrev Resolver := String → Option String → Option String

/-- A question that a resolver was asked: its place in the chain, and what it was given. -/
structure Consultation where
  resolver : Nat
  importee : String
  importer : Option String
  deriving DecidableEq, Repr

/-- Asks resolvers in order, the first one having a number, until one answers. -/
def consultFrom (importee : String) (importer : Option String) :
    Nat → List Resolver → Option String × List Consultation
  | _, [] => (none, [])
  | n, resolver :: others =>
    let asked : Consultation := ⟨n, importee, importer⟩
    match resolver importee importer with
    | some answer => (some answer, [asked])
    | none =>
      let (answer, later) := consultFrom importee importer (n + 1) others
      (answer, asked :: later)

/-- Resolves an import of a proxy, given what the proxy stands for. -/
def resolveProxied (options : Options) (resolvers : List Resolver) (target : String)
    (importer : Option String) : Option String × List Consultation :=
  if options.isExternal target then (some (externalId target), [])
  else
    let (answer, asked) := consultFrom target importer 0 resolvers
    (some (match answer with | some id => proxyId id | none => externalId target), asked)

/-- Resolves an import of a module that is not virtual. -/
def resolvePlain (options : Options) (resolvers : List Resolver) (importee : String)
    (importer : Option String) : Option String × List Consultation :=
  if options.isExternal importee then (none, []) else consultFrom importee importer 0 resolvers

/-- Resolves an import, and tells which resolvers were asked what. -/
def resolveId (options : Options) (resolvers : List Resolver) (importee : String)
    (importer : Option String) : Option String × List Consultation :=
  let importer := importer.map withoutProxy
  match after? proxyPrefix importee with
  | some target => resolveProxied options resolvers target importer
  | none =>
    if isReserved importee then (some importee, [])
    else resolvePlain options resolvers importee importer

end ModuleInterop.Build
