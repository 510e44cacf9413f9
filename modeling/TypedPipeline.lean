import TypedPipeline.Artifact
import TypedPipeline.ArtifactMap
import TypedPipeline.ArtifactType
import TypedPipeline.Builtin
import TypedPipeline.Channel
import TypedPipeline.CommandLine.Arguments
import TypedPipeline.CommandLine.Command
import TypedPipeline.CommandLine.Program
import TypedPipeline.Component
import TypedPipeline.Config
import TypedPipeline.Datum
import TypedPipeline.Digest.Sha256
import TypedPipeline.Duration
import TypedPipeline.Event
import TypedPipeline.Executor
import TypedPipeline.Executor.Scripted
import TypedPipeline.Fault
import TypedPipeline.Glob
import TypedPipeline.Graph
import TypedPipeline.Graph.Cycle
import TypedPipeline.Graph.Layers
import TypedPipeline.Graph.Order
import TypedPipeline.Host
import TypedPipeline.Host.FileTree
import TypedPipeline.Host.Output
import TypedPipeline.Identifier
import TypedPipeline.Json
import TypedPipeline.Json.Read
import TypedPipeline.Main
import TypedPipeline.Metrics
import TypedPipeline.Metrics.Collector
import TypedPipeline.Metrics.Exposition
import TypedPipeline.Number.Arithmetic
import TypedPipeline.Number.Binary64
import TypedPipeline.Number.Decimal
import TypedPipeline.Path
import TypedPipeline.Pipeline
import TypedPipeline.Plan
import TypedPipeline.Plan.Write
import TypedPipeline.Proofs.Artifact.History
import TypedPipeline.Proofs.Artifact.Map
import TypedPipeline.Proofs.Artifact.Splits
import TypedPipeline.Proofs.Builtin
import TypedPipeline.Proofs.Builtin.LineStats
import TypedPipeline.Proofs.Component.Build
import TypedPipeline.Proofs.Component.Staging
import TypedPipeline.Proofs.Decision
import TypedPipeline.Proofs.Executor
import TypedPipeline.Proofs.Graph.Basic
import TypedPipeline.Proofs.Graph.Cycle
import TypedPipeline.Proofs.Graph.Depth
import TypedPipeline.Proofs.Graph.Layers
import TypedPipeline.Proofs.Graph.Order
import TypedPipeline.Proofs.Graph.Release
import TypedPipeline.Proofs.Graph.Search
import TypedPipeline.Proofs.Json.Decode
import TypedPipeline.Proofs.Json.Distinct
import TypedPipeline.Proofs.Json.Float
import TypedPipeline.Proofs.Json.Number
import TypedPipeline.Proofs.Json.Text
import TypedPipeline.Proofs.Json.Tree
import TypedPipeline.Proofs.Metrics.Exposition
import TypedPipeline.Proofs.Metrics.Figures
import TypedPipeline.Proofs.Metrics.History
import TypedPipeline.Proofs.Metrics.Scrape
import TypedPipeline.Proofs.Number.Exact
import TypedPipeline.Proofs.Number.Rounding
import TypedPipeline.Proofs.Number.Shortest
import TypedPipeline.Proofs.Pipeline.Assembly
import TypedPipeline.Proofs.Pipeline.Execution
import TypedPipeline.Proofs.Pipeline.Layers
import TypedPipeline.Proofs.Plan.Digest
import TypedPipeline.Proofs.Recipe.Acceptance
import TypedPipeline.Proofs.Recipe.Construction
import TypedPipeline.Proofs.Recipe.Layout
import TypedPipeline.Proofs.Recipe.Naming
import TypedPipeline.Proofs.Recipe.Plan
import TypedPipeline.Proofs.Recipe.Reference
import TypedPipeline.Proofs.Recipe.Refusal
import TypedPipeline.Proofs.Recipe.Report
import TypedPipeline.Proofs.Recipe.Stock
import TypedPipeline.Proofs.Recipe.Unread
import TypedPipeline.Proofs.Request
import TypedPipeline.Proofs.Run.Account
import TypedPipeline.Proofs.Run.Contents
import TypedPipeline.Proofs.Run.Failure
import TypedPipeline.Proofs.Run.Handout
import TypedPipeline.Proofs.Run.Interleaving
import TypedPipeline.Proofs.Run.Isolation
import TypedPipeline.Proofs.Run.Log
import TypedPipeline.Proofs.Run.Resolution
import TypedPipeline.Proofs.Run.Schedule
import TypedPipeline.Proofs.Run.Sight
import TypedPipeline.Proofs.Run.Step
import TypedPipeline.Proofs.Session
import TypedPipeline.Proofs.Session.Producers
import TypedPipeline.Proofs.Session.Typing
import TypedPipeline.Proofs.Spec
import TypedPipeline.Proofs.Spec.Digest
import TypedPipeline.Proofs.Spec.Refusal
import TypedPipeline.Proofs.Spec.Validation
import TypedPipeline.Proofs.SplitNames
import TypedPipeline.Proofs.Store
import TypedPipeline.Proofs.Text.Lines
import TypedPipeline.Proofs.Text.Pieces
import TypedPipeline.Proofs.Text.Words
import TypedPipeline.Proofs.Wiring
import TypedPipeline.Proofs.Workbench
import TypedPipeline.Proofs.Workbench.Conformance
import TypedPipeline.Proofs.Workbench.Holdings
import TypedPipeline.Recipe.Basic
import TypedPipeline.Recipe.Build
import TypedPipeline.Recipe.Load
import TypedPipeline.Recipe.Reference
import TypedPipeline.Recipe.Report
import TypedPipeline.Registry
import TypedPipeline.Request
import TypedPipeline.Runner
import TypedPipeline.Scalar
import TypedPipeline.SortedMap
import TypedPipeline.Spec
import TypedPipeline.SplitNames
import TypedPipeline.Store
import TypedPipeline.Text.Blank
import TypedPipeline.Text.Line
import TypedPipeline.Text.Pieces
import TypedPipeline.Text.Printable
import TypedPipeline.Timestamp
import TypedPipeline.Yaml.Decode
import TypedPipeline.Yaml.Literal
import TypedPipeline.Yaml.Node
import TypedPipeline.Yaml.Print
import TypedPipeline.Yaml.Token
import TypedPipeline.Yaml.Token.Scalar
import TypedPipeline.Yaml.Token.Stream
import TypedPipeline.Yaml.Token.Tag
