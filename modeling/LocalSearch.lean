import LocalSearch.Config.Section
import LocalSearch.Config.Tree
import LocalSearch.Console.Filter
import LocalSearch.Console.Line
import LocalSearch.Datum.Json
import LocalSearch.Datum.Script
import LocalSearch.Datum.Solution
import LocalSearch.Datum.Strategy
import LocalSearch.Proofs.Config.Lines
import LocalSearch.Proofs.Config.Nesting
import LocalSearch.Proofs.Config.Sections
import LocalSearch.Proofs.Config.Tree
import LocalSearch.Proofs.Generators
import LocalSearch.Proofs.Model.Atomic
import LocalSearch.Proofs.Model.Exchange
import LocalSearch.Proofs.Model.FirstFit
import LocalSearch.Proofs.Model.Transposition
import LocalSearch.Proofs.Schedule.Afloat
import LocalSearch.Proofs.Schedule.Deadlines
import LocalSearch.Proofs.Schedule.Deluge
import LocalSearch.Proofs.Search.Clock
import LocalSearch.Proofs.Search.Construction
import LocalSearch.Proofs.Search.Descent
import LocalSearch.Proofs.Search.Guards
import LocalSearch.Proofs.Search.Restart
import LocalSearch.Proofs.Search.Submerged
import LocalSearch.Proofs.Selection.Ballots
import LocalSearch.Proofs.Selection.Effect
import LocalSearch.Proofs.Selection.Frame
import LocalSearch.Proofs.Selection.Learning
import LocalSearch.Proofs.Selection.Patience
import LocalSearch.Proofs.Selection.Rotation
import LocalSearch.Proofs.Selection.Stall
import LocalSearch.Proofs.Selection.Statistics
import LocalSearch.Proofs.Selection.Wheel
import LocalSearch.Proofs.Selection.Yield
import LocalSearch.Scalar.Float
import LocalSearch.Solve
