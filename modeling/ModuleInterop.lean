import ModuleInterop.Build.OptionsText
import ModuleInterop.Build.Run
import ModuleInterop.Proofs.Syntax.Node
import ModuleInterop.Proofs.Usage.Visit
import ModuleInterop.Proofs.Conversion.Growth
import ModuleInterop.Proofs.Usage.Coverage
import ModuleInterop.Proofs.Conversion.Answer
import ModuleInterop.Proofs.Patch.Output
import ModuleInterop.Proofs.Conversion.Outcome
import ModuleInterop.Proofs.Conversion.Locals
import ModuleInterop.Proofs.Usage.Reference
import ModuleInterop.Proofs.Conversion.RequiredValues
import ModuleInterop.Proofs.Conversion.Elimination
import ModuleInterop.Proofs.Scope.Balance
import ModuleInterop.Proofs.Scope.Nesting
import ModuleInterop.Proofs.Conversion.Provenance
import ModuleInterop.Proofs.Conversion.Hygiene
import ModuleInterop.Proofs.Conversion.Wrapping
import ModuleInterop.Proofs.Text.Position
import ModuleInterop.Proofs.Patch.Reading
import ModuleInterop.Proofs.Patch.Application
import ModuleInterop.Proofs.Patch.Change
import ModuleInterop.Proofs.SourceMap.Decoding
import ModuleInterop.Proofs.SourceMap.Lookup
import ModuleInterop.Proofs.SourceMap.RoundTrip
import ModuleInterop.Proofs.Syntax.Layout
import ModuleInterop.Proofs.Syntax.Lexer
import ModuleInterop.Proofs.Syntax.Parser.Basic
import ModuleInterop.Proofs.Syntax.Parser.Assignment
import ModuleInterop.Proofs.Syntax.Parser.Module
import ModuleInterop.Proofs.Usage.Place
import ModuleInterop.Proofs.Scope.Receive
import ModuleInterop.Proofs.Usage.Receive
import ModuleInterop.Proofs.Scope.Site
import ModuleInterop.Proofs.Scope.Declared
import ModuleInterop.Proofs.Conversion.Elision
import ModuleInterop.Proofs.Conversion.Remnant
import ModuleInterop.Proofs.Conversion.Stretch
import ModuleInterop.Proofs.Conversion.Apart
import ModuleInterop.Proofs.Conversion.Item
import ModuleInterop.Proofs.Conversion.Default
import ModuleInterop.Proofs.Conversion.Hybrid
import ModuleInterop.Proofs.Conversion.Value
import ModuleInterop.Proofs.Scope.Claim
import ModuleInterop.Proofs.Conversion.Exported
import ModuleInterop.Proofs.Conversion.Surface
import ModuleInterop.Proofs.Conversion.Distinct
import ModuleInterop.Proofs.Conversion.Replay
import ModuleInterop.Proofs.Conversion.Freshness
import ModuleInterop.Proofs.Scope.Stack
import ModuleInterop.Proofs.Scope.Move
import ModuleInterop.Proofs.Scope.Hosted
import ModuleInterop.Proofs.Conversion.Capture
import ModuleInterop.Proofs.Build.Links
import ModuleInterop.Proofs.Build.Order
import ModuleInterop.Proofs.Build.Exits
import ModuleInterop.Proofs.Build.Records
import ModuleInterop.Proofs.Build.Edges
import ModuleInterop.Proofs.Usage.Standing
import ModuleInterop.Proofs.Conversion.Alias
import ModuleInterop.Proofs.Build.View
import ModuleInterop.Proofs.Conversion.Removal
import ModuleInterop.Proofs.Usage.Own
import ModuleInterop.Proofs.Conversion.Untouched
import ModuleInterop.Proofs.Syntax.Names
import ModuleInterop.Proofs.Detection
import ModuleInterop.Proofs.Analysis.Truth
import ModuleInterop.Proofs.Usage.Order
import ModuleInterop.Proofs.Syntax.Quoted
import ModuleInterop.Proofs.Conversion.Sources
import ModuleInterop.Proofs.Scope.Alike
import ModuleInterop.Proofs.Scope.Pruned
import ModuleInterop.Proofs.Usage.Pruned
import ModuleInterop.Proofs.Conversion.DeadBranch
import ModuleInterop.Proofs.Build.Skip
import ModuleInterop.Proofs.Patch.Splice
import ModuleInterop.Proofs.Conversion.Survival
import ModuleInterop.Proofs.Conversion.Closure
import ModuleInterop.Proofs.Conversion.Reported
import ModuleInterop.Proofs.Naming
import ModuleInterop.Proofs.Scope.Choice
import ModuleInterop.Proofs.Patch.Trimming
import ModuleInterop.Proofs.Syntax.Row
import ModuleInterop.Proofs.Syntax.Accepted.Basic
import ModuleInterop.Proofs.Syntax.Accepted.Import
import ModuleInterop.Proofs.Syntax.Accepted.Expression
import ModuleInterop.Proofs.Syntax.Accepted.Module
import ModuleInterop.Proofs.Syntax.SelfContained
import ModuleInterop.Proofs.Virtual.Proxy
