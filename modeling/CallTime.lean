import CallTime.Analysis.Analyze
import CallTime.Analysis.Pass
import CallTime.Analysis.Run
import CallTime.Artifact.Basic
import CallTime.Artifact.Evaluate
import CallTime.Artifact.Forest
import CallTime.Artifact.Print
import CallTime.Clock
import CallTime.CommandLine.Options
import CallTime.CommandLine.Run
import CallTime.Duration.Load
import CallTime.Duration.Store
import CallTime.Fault
import CallTime.Files
import CallTime.Format.Json
import CallTime.Format.Toml.Document
import CallTime.Format.Toml.Moment
import CallTime.Format.Toml.Read
import CallTime.Insight.Data
import CallTime.Insight.Store
import CallTime.Language.Registry
import CallTime.Location
import CallTime.Log
import CallTime.Main
import CallTime.Number.Binary64
import CallTime.Number.Shortest
import CallTime.OrderedMap
import CallTime.Path.Basic
import CallTime.Path.Enumerate
import CallTime.Proofs.Arguments
import CallTime.Proofs.CallGraph
import CallTime.Proofs.Charges
import CallTime.Proofs.Coherence
import CallTime.Proofs.Completion
import CallTime.Proofs.Constants
import CallTime.Proofs.Correctness
import CallTime.Proofs.Drafts
import CallTime.Proofs.Durations
import CallTime.Proofs.Enumeration
import CallTime.Proofs.Execution
import CallTime.Proofs.Failure
import CallTime.Proofs.Footprint
import CallTime.Proofs.Forest
import CallTime.Proofs.Interruption
import CallTime.Proofs.Looks
import CallTime.Proofs.Machine
import CallTime.Proofs.Nesting
import CallTime.Proofs.Order
import CallTime.Proofs.Policy
import CallTime.Proofs.Program
import CallTime.Proofs.Reference
import CallTime.Proofs.Repetition
import CallTime.Proofs.Run
import CallTime.Proofs.Service
import CallTime.Proofs.Steps
import CallTime.Proofs.Termination
import CallTime.Proofs.Transparency
import CallTime.Proofs.Trust
import CallTime.Proofs.Walk
import CallTime.Report.Basic
import CallTime.Report.Build
import CallTime.Report.Field
import CallTime.Session
import CallTime.Settings
import CallTime.Settings.File
import CallTime.Source.Binding
import CallTime.Source.Expr
import CallTime.Source.Expr.Print
import CallTime.Source.Grammar.Expr
import CallTime.Source.Grammar.Parser
import CallTime.Source.Grammar.Pattern
import CallTime.Source.Grammar.Stmt
import CallTime.Source.Grammar.Target
import CallTime.Source.Literal
import CallTime.Source.Lower
import CallTime.Source.Signature
import CallTime.Source.Stmt
import CallTime.Source.Token
import CallTime.Source.Token.Number
import CallTime.Source.Token.Scan
import CallTime.Text.Blank
import CallTime.Text.CharSet
import CallTime.Text.Digit
import CallTime.Text.Identifier
import CallTime.Text.Lower
import CallTime.Text.Name
import CallTime.Text.Name.Table
import CallTime.Text.Normal
import CallTime.Text.Normal.Table
import CallTime.Text.Printable
import CallTime.Text.Quoted
import CallTime.Text.Utf8
import CallTime.Value.Arithmetic
import CallTime.Value.Basic
import CallTime.Value.Convert
import CallTime.Value.Operator
import CallTime.Value.Order
import CallTime.Value.Print
import CallTime.Value.Template
import CallTime.Proofs.Measured
import CallTime.Proofs.Budget
import CallTime.Proofs.Agreement
import CallTime.Proofs.Faults
import CallTime.Proofs.Lowering
import CallTime.Proofs.WellFormed
import CallTime.Proofs.Safety
import CallTime.Proofs.Meaning
import CallTime.Proofs.Effects
import CallTime.Proofs.CallSites
import CallTime.Proofs.Labels
import CallTime.Proofs.Translation
import CallTime.Proofs.Caching
import CallTime.Proofs.Candidates
import CallTime.Proofs.Activations
import CallTime.Proofs.Endings
import CallTime.Proofs.Slots
import CallTime.Proofs.Passing
import CallTime.Proofs.Scoping
import CallTime.Proofs.Locals
import CallTime.Proofs.Tracking
import CallTime.Proofs.Building
import CallTime.Proofs.Truth
import CallTime.Proofs.Visits
import CallTime.Proofs.Deferral
import CallTime.Proofs.Capture
import CallTime.Proofs.Mean
import CallTime.Proofs.Provenance
import CallTime.Proofs.Registration
import CallTime.Proofs.Planting
import CallTime.Proofs.Traversal
