import DeclAnalysis.Check.Discovery
import DeclAnalysis.Check.Display
import DeclAnalysis.Check.Outcome
import DeclAnalysis.Command.Arguments
import DeclAnalysis.Command.Check
import DeclAnalysis.Command.Command
import DeclAnalysis.Command.Explain
import DeclAnalysis.Command.Init
import DeclAnalysis.Command.Response
import DeclAnalysis.Command.Run
import DeclAnalysis.Config.Search
import DeclAnalysis.Config.Settings
import DeclAnalysis.Decimal.Double
import DeclAnalysis.Decimal.Shortest
import DeclAnalysis.Diagnostic
import DeclAnalysis.Fault
import DeclAnalysis.Files.Access
import DeclAnalysis.Files.Memory
import DeclAnalysis.Files.Path
import DeclAnalysis.Flow.Graph
import DeclAnalysis.Flow.Lowering
import DeclAnalysis.Flow.Query
import DeclAnalysis.Json.Printer
import DeclAnalysis.Json.Reader
import DeclAnalysis.Json.Value
import DeclAnalysis.Main
import DeclAnalysis.Reachability
import DeclAnalysis.Report
import DeclAnalysis.Resolve.Body
import DeclAnalysis.Resolve.Collect
import DeclAnalysis.Resolve.Register
import DeclAnalysis.Resolve.Run
import DeclAnalysis.Resolve.Signature
import DeclAnalysis.Resolve.Tables
import DeclAnalysis.Semantic.Descriptor
import DeclAnalysis.Semantic.Model
import DeclAnalysis.Semantic.Scope
import DeclAnalysis.Semantic.Trace
import DeclAnalysis.Semantic.Ty
import DeclAnalysis.Terminal.Style
import DeclAnalysis.Text.Parts
import DeclAnalysis.Text.Quoted
import DeclAnalysis.Toml.Datetime
import DeclAnalysis.Toml.Reader
import DeclAnalysis.Toml.Table
import DeclAnalysis.Toml.Value
import DeclAnalysis.Tree.Body
import DeclAnalysis.Tree.Declaration
import DeclAnalysis.Tree.Decode
import DeclAnalysis.Tree.Expr
import DeclAnalysis.Tree.Interchange
import DeclAnalysis.Tree.Label
import DeclAnalysis.Tree.Numbering
import DeclAnalysis.Tree.Roots
import DeclAnalysis.Tree.Schema
import DeclAnalysis.Tree.ShapeError
import DeclAnalysis.Tree.SourceFile
import DeclAnalysis.Typing.Check
import DeclAnalysis.Typing.Infer
import DeclAnalysis.Typing.Session
import DeclAnalysis.Typing.Subtyping
import DeclAnalysis.Typing.TypeName
import DeclAnalysis.Proofs.Flow.Execution
import DeclAnalysis.Proofs.Flow.Elements
import DeclAnalysis.Proofs.Flow.Fragment
import DeclAnalysis.Proofs.Marking
import DeclAnalysis.Proofs.Descent
import DeclAnalysis.Proofs.Flow.Lowering
import DeclAnalysis.Proofs.Flow.Reachable
import DeclAnalysis.Proofs.Flow.Tails
import DeclAnalysis.Proofs.Flow.WalkBack
import DeclAnalysis.Proofs.Flow.ReturnPoints
import DeclAnalysis.Proofs.Computation
import DeclAnalysis.Proofs.Semantic.Evolution
import DeclAnalysis.Proofs.Semantic.Surroundings
import DeclAnalysis.Proofs.Semantic.Filling
import DeclAnalysis.Proofs.Semantic.Growth
import DeclAnalysis.Proofs.Tree.Nodes
import DeclAnalysis.Proofs.Session.Change
import DeclAnalysis.Proofs.Session.Operations
import DeclAnalysis.Proofs.Typing.Infer
import DeclAnalysis.Proofs.Typing.Follows
import DeclAnalysis.Proofs.Typing.Footprint
import DeclAnalysis.Proofs.Resolve.Signature
import DeclAnalysis.Proofs.Resolve.Body
import DeclAnalysis.Proofs.Resolve.Pass
import DeclAnalysis.Proofs.Resolve.Collect
import DeclAnalysis.Proofs.Resolve.Register
import DeclAnalysis.Proofs.Resolve.Faults
import DeclAnalysis.Proofs.Resolve.Outcome
import DeclAnalysis.Proofs.Resolve.SignatureGrowth
import DeclAnalysis.Proofs.Resolve.Awaited
import DeclAnalysis.Proofs.Resolve.Completion
import DeclAnalysis.Proofs.Resolve.WriteOnce
import DeclAnalysis.Proofs.Resolve.Permutation
import DeclAnalysis.Proofs.Session.Honest
import DeclAnalysis.Proofs.Typing.Honest
import DeclAnalysis.Proofs.Resolve.Honest
import DeclAnalysis.Proofs.Semantic.Lookup
import DeclAnalysis.Proofs.Semantic.Widening
import DeclAnalysis.Proofs.Session.Frame
import DeclAnalysis.Proofs.Resolve.SignatureFrame
import DeclAnalysis.Proofs.Resolve.BodyFrame
import DeclAnalysis.Proofs.Resolve.Located
import DeclAnalysis.Proofs.Resolve.Survey
import DeclAnalysis.Proofs.Resolve.SurveyedPasses
import DeclAnalysis.Proofs.Resolve.BodyBindings
import DeclAnalysis.Proofs.Resolve.Chart
import DeclAnalysis.Proofs.Resolve.Charting
import DeclAnalysis.Proofs.Resolve.NamespaceIdentity
import DeclAnalysis.Proofs.Tree.Enclosing
import DeclAnalysis.Proofs.Tree.TypeReferences
import DeclAnalysis.Proofs.Resolve.Denotation
import DeclAnalysis.Proofs.Resolve.Placement
import DeclAnalysis.Proofs.Resolve.Registration
import DeclAnalysis.Proofs.Resolve.Entering
import DeclAnalysis.Proofs.Resolve.Registry
import DeclAnalysis.Proofs.Flow.Demands
import DeclAnalysis.Proofs.Typing.Recorded
import DeclAnalysis.Flow.Builder
import DeclAnalysis.Proofs.Flow.Dominance
import DeclAnalysis.Proofs.Flow.Builder
import DeclAnalysis.Proofs.Flow.Finishing
import DeclAnalysis.Proofs.Typing.ReturnTypes
import DeclAnalysis.Proofs.Tree.Children
import DeclAnalysis.Proofs.Tree.Roots
import DeclAnalysis.Proofs.Flow.Statements
import DeclAnalysis.Proofs.Tree.Bodies
import DeclAnalysis.Proofs.Resolve.Subroutines
import DeclAnalysis.Proofs.Resolve.Unreachable
import DeclAnalysis.Proofs.Resolve.ReturnChecks
import DeclAnalysis.Proofs.Semantic.Kinds
import DeclAnalysis.Proofs.Session.Kinds
import DeclAnalysis.Proofs.Typing.Kinds
import DeclAnalysis.Proofs.Resolve.Kinds
import DeclAnalysis.Proofs.Resolve.BodyKinds
import DeclAnalysis.Proofs.Resolve.Steps
import DeclAnalysis.Proofs.Resolve.PassKinds
import DeclAnalysis.Proofs.Session.Places
import DeclAnalysis.Proofs.Typing.Places
import DeclAnalysis.Proofs.Resolve.Places
import DeclAnalysis.Proofs.Resolve.Reporting
import DeclAnalysis.Proofs.Resolve.PassReporting
import DeclAnalysis.Proofs.Resolve.ReportedOnce
import DeclAnalysis.Proofs.Logs
import DeclAnalysis.Proofs.Semantic.Fields
import DeclAnalysis.Proofs.Session.Answers
import DeclAnalysis.Proofs.Typing.Answers
import DeclAnalysis.Proofs.Resolve.FieldBodies
import DeclAnalysis.Proofs.Resolve.FieldEffects
import DeclAnalysis.Proofs.Semantic.Hierarchy
import DeclAnalysis.Proofs.Resolve.Mismatches
import DeclAnalysis.Proofs.Typing.Silenced
import DeclAnalysis.Proofs.Resolve.Silenced
import DeclAnalysis.Proofs.Tree.Unnumbered
import DeclAnalysis.Proofs.Tree.Encoding
import DeclAnalysis.Proofs.Tree.Records
import DeclAnalysis.Proofs.Tree.Interchange
import DeclAnalysis.Proofs.Resolve.Outset
import DeclAnalysis.Proofs.Resolve.Recordings
import DeclAnalysis.Proofs.Session.Readings
import DeclAnalysis.Proofs.Typing.Joins
import DeclAnalysis.Proofs.Typing.Readings
import DeclAnalysis.Proofs.Resolve.Calls
import DeclAnalysis.Proofs.Resolve.FieldReports
import DeclAnalysis.Proofs.Semantic.Sharing
import DeclAnalysis.Proofs.Resolve.PropertyTypes
import DeclAnalysis.Proofs.Resolve.AccessorTypes
import DeclAnalysis.Proofs.Semantic.Walks
import DeclAnalysis.Proofs.Semantic.Writes
import DeclAnalysis.Proofs.Typing.Coverage
import DeclAnalysis.Proofs.Tree.Preorder
import DeclAnalysis.Proofs.Tree.Search
import DeclAnalysis.Proofs.Tree.UnknownFields
import DeclAnalysis.Proofs.Flow.Regions
import DeclAnalysis.Proofs.Flow.Emission
import DeclAnalysis.Proofs.Severities
