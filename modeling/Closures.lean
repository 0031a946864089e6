import Closures.Command.Arguments
import Closures.Command.Explain
import Closures.Command.Flag
import Closures.Command.Help
import Closures.Command.Host
import Closures.Command.Input
import Closures.Command.Misuse
import Closures.Command.Perform
import Closures.Config.Options
import Closures.Config.Toml
import Closures.Decimal.Binary64
import Closures.Decimal.Read
import Closures.Decimal.Shortest
import Closures.Decimal.Text
import Closures.Diagnostic.Basic
import Closures.Diagnostic.Render
import Closures.Hierarchy.Lookup
import Closures.Hierarchy.Members
import Closures.Hierarchy.Nesting
import Closures.Hierarchy.Search
import Closures.Hierarchy.Subtyping
import Closures.Ident
import Closures.Json.Document
import Closures.Json.Lexeme
import Closures.Json.Numeral
import Closures.Json.Reader
import Closures.Json.Reading
import Closures.Json.Value
import Closures.Lowering.Adaptation
import Closures.Lowering.Adapter
import Closures.Lowering.Body
import Closures.Lowering.Capture
import Closures.Lowering.Cause
import Closures.Lowering.FunctionalInterface
import Closures.Lowering.Program
import Closures.Lowering.Reference
import Closures.Lowering.Site
import Closures.Machine.Dispatch
import Closures.Machine.Eval
import Closures.Machine.Fault
import Closures.Machine.Number
import Closures.Machine.Session
import Closures.Machine.Store
import Closures.Machine.Value
import Closures.Main
import Closures.Primitive
import Closures.Proofs.AdapterCorrespondence
import Closures.Proofs.AdapterDispatch
import Closures.Proofs.AdapterMethods
import Closures.Proofs.Assignability
import Closures.Proofs.AssignedFields
import Closures.Proofs.BodyMeaning
import Closures.Proofs.BoxingGlue
import Closures.Proofs.CaptureAnalysis
import Closures.Proofs.ClosedAdapters
import Closures.Proofs.ClosureIdentity
import Closures.Proofs.ClosureNames
import Closures.Proofs.Computation
import Closures.Proofs.DefaultDispatch
import Closures.Proofs.EnclosingInstances
import Closures.Proofs.EvaluationRecord
import Closures.Proofs.ExactCaptures
import Closures.Proofs.FrozenCaptures
import Closures.Proofs.Hierarchy
import Closures.Proofs.InstanceResolution
import Closures.Proofs.IntegralOperators
import Closures.Proofs.LiveClosure
import Closures.Proofs.LoweringFrame
import Closures.Proofs.MemberSearch
import Closures.Proofs.MostSpecific
import Closures.Proofs.NearestMembers
import Closures.Proofs.Nesting
import Closures.Proofs.Outline
import Closures.Proofs.OverloadSelection
import Closures.Proofs.PairedEvaluation
import Closures.Proofs.PairedHeaps
import Closures.Proofs.PairedScripts
import Closures.Proofs.PartitionIndependence
import Closures.Proofs.PolicyIndependence
import Closures.Proofs.PolicyLowering
import Closures.Proofs.PrimitiveValues
import Closures.Proofs.Recording
import Closures.Proofs.Redeclaration
import Closures.Proofs.ReferenceForms
import Closures.Proofs.Repetition
import Closures.Proofs.RunInduction
import Closures.Proofs.RunInvariants
import Closures.Proofs.SameCode
import Closures.Proofs.ScopedLowering
import Closures.Proofs.Scoping
import Closures.Proofs.Scripts
import Closures.Proofs.SearchDistance
import Closures.Proofs.SearchOrder
import Closures.Proofs.Simulation
import Closures.Proofs.SingleAbstractMethod
import Closures.Proofs.SiteAdapters
import Closures.Proofs.SiteMarks
import Closures.Proofs.SiteRuns
import Closures.Proofs.SiteTargets
import Closures.Proofs.SourcePositions
import Closures.Proofs.StoreChange
import Closures.Proofs.SubtypeSearch
import Closures.Proofs.SuperDispatch
import Closures.Proofs.Superclasses
import Closures.Proofs.SupertypeViews
import Closures.Proofs.TreeReading
import Closures.Proofs.TreeShape
import Closures.Proofs.UnitLowering
import Closures.Proofs.ValueAdaptation
import Closures.Proofs.ValueReading
import Closures.Proofs.WalkAgreement
import Closures.Source.Files
import Closures.Source.Lines
import Closures.Span
import Closures.Text.Similar
import Closures.Text.Split
import Closures.Text.Uppercase
import Closures.Tree.Basic
import Closures.Tree.Build
import Closures.Tree.Decode
import Closures.Tree.Encode
import Closures.Tree.Replace
import Closures.Tree.Walk
import Closures.Ty
