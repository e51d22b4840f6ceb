import CodeCausality.Binary.Hex
import CodeCausality.Files.Tree
import CodeCausality.Main
import CodeCausality.Server.Connection
import CodeCausality.Proofs.Sorted
import CodeCausality.Proofs.Graph.Reach
import CodeCausality.Proofs.Text.ByteOrder
import CodeCausality.Proofs.Graph.Order
import CodeCausality.Proofs.Graph.Construction
import CodeCausality.Proofs.Graph.Cycles
import CodeCausality.Proofs.Graph.Paths
import CodeCausality.Proofs.Model.Grounded
import CodeCausality.Proofs.Simulation.Draw
import CodeCausality.Proofs.Simulation.Intervention
import CodeCausality.Proofs.Simulation.Baselines
import CodeCausality.Proofs.Simulation.Impact
import CodeCausality.Proofs.Simulation.CommonNoise
import CodeCausality.Proofs.Time.Timestamp
import CodeCausality.Proofs.Regression.Shape
import CodeCausality.Proofs.Model.Fitted
import CodeCausality.Proofs.Record.Mechanism
import CodeCausality.Proofs.Record.RoundTrip
import CodeCausality.Proofs.Record.Parents
import CodeCausality.Proofs.Graph.Gain
import CodeCausality.Proofs.Model.Static
import CodeCausality.Proofs.Simulation.PathTracing
import CodeCausality.Proofs.Graph.Merge
import CodeCausality.Proofs.Graph.Build
import CodeCausality.Proofs.Graph.OutDegree
import CodeCausality.Proofs.Simulation.Cancellation
import CodeCausality.Proofs.Record.Reload
import CodeCausality.Proofs.Source.Feedback
import CodeCausality.Proofs.Binary.Format
import CodeCausality.Proofs.Record.Bytes
import CodeCausality.Proofs.Store.Answers
import CodeCausality.Proofs.Json.Number
import CodeCausality.Proofs.Json.Text
import CodeCausality.Proofs.Json.Value
import CodeCausality.Proofs.Record.Text
import CodeCausality.Proofs.Graph.Ancestry
import CodeCausality.Proofs.Simulation.Clamping
import CodeCausality.Proofs.Source.Endpoints
import CodeCausality.Proofs.Store.Access
import CodeCausality.Proofs.Server.Models
import CodeCausality.Proofs.Server.Requests
import CodeCausality.Proofs.Server.Runs
import CodeCausality.Proofs.Record.Rebuild
import CodeCausality.Proofs.Record.Families
import CodeCausality.Proofs.Simulation.Domains
import CodeCausality.Proofs.Server.Overlap
import CodeCausality.Proofs.Trace.Columns
import CodeCausality.Proofs.Model.Training
import CodeCausality.Proofs.Simulation.Features
import CodeCausality.Proofs.Numeric.NotANumber
import CodeCausality.Proofs.Regression.Score
import CodeCausality.Proofs.Model.Threshold
import CodeCausality.Proofs.Model.Calibration
import CodeCausality.Graph.InDegree
import CodeCausality.Proofs.Graph.Least
import CodeCausality.Proofs.Graph.InDegree
import CodeCausality.Proofs.Numeric.LinearSystem
import CodeCausality.Proofs.Regression.Moments
import CodeCausality.Proofs.Regression.LeastSquares
import CodeCausality.Proofs.Regression.CrossValidation
import CodeCausality.Proofs.Numeric.Pivots
import CodeCausality.Proofs.Regression.Units
import CodeCausality.Proofs.Numeric.Percentile
import CodeCausality.Proofs.Simulation.Intervals
import CodeCausality.Proofs.Numeric.Whole
import CodeCausality.Proofs.Trace.Refusals
import CodeCausality.Proofs.Graph.Calls
import CodeCausality.Proofs.Source.Creation
import CodeCausality.Proofs.Source.Grammar.Basic
import CodeCausality.Proofs.Source.Grammar.Type
import CodeCausality.Proofs.Source.Grammar.Pattern
import CodeCausality.Proofs.Source.Grammar.Expr
import CodeCausality.Proofs.Source.Grammar.Item
import CodeCausality.Proofs.Source.Grammar.Words
import CodeCausality.Proofs.Source.Grammar.File
import CodeCausality.Proofs.Source.Forward
import CodeCausality.Proofs.Source.Resolution
import CodeCausality.Proofs.Source.Identity
import CodeCausality.Proofs.Source.Scope
import CodeCausality.Proofs.Source.Versions
import CodeCausality.Proofs.Source.Suppliers
import CodeCausality.Graph.Layers
import CodeCausality.Proofs.Graph.Layers
import CodeCausality.Proofs.Graph.Dot
import CodeCausality.Proofs.Source.Invariant
import CodeCausality.Proofs.Source.Announcements
import CodeCausality.Proofs.Regression.Standardised
import CodeCausality.Simulation.Streams
import CodeCausality.Proofs.Simulation.Streams
import CodeCausality.Numeric.Elimination
import CodeCausality.Proofs.Numeric.Elimination
