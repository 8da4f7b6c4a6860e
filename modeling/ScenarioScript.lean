import ScenarioScript.Expr.Printer
import ScenarioScript.Host.Operations
import ScenarioScript.Main
import ScenarioScript.Session
import ScenarioScript.Proofs.Expr.Derivation
import ScenarioScript.Proofs.Expr.Reader
import ScenarioScript.Proofs.Expr.Soundness
import ScenarioScript.Proofs.Expr.Completeness
import ScenarioScript.Proofs.Expr.Grammar
import ScenarioScript.Proofs.Statement.Reader
import ScenarioScript.Proofs.Statement.Pieces
import ScenarioScript.Proofs.Statement.Recovery
import ScenarioScript.Proofs.Token.Lexeme
import ScenarioScript.Proofs.Token.Scan
import ScenarioScript.Proofs.Number.Bits
import ScenarioScript.Proofs.Number.Rounding
import ScenarioScript.Proofs.Number.Decimal
import ScenarioScript.Proofs.Number.Text
import ScenarioScript.Proofs.Text.Stored
import ScenarioScript.Proofs.Expr.Words
import ScenarioScript.Proofs.Expr.RoundTrip
import ScenarioScript.Proofs.Expr.Reparse
import ScenarioScript.Proofs.Token.Place
import ScenarioScript.Proofs.Statement.Place
import ScenarioScript.Proofs.Scenario.Join
import ScenarioScript.Proofs.Expr.Local
import ScenarioScript.Proofs.Statement.Outcome
import ScenarioScript.Proofs.Scenario.BrokenLine
import ScenarioScript.Proofs.Evaluator.Steps
import ScenarioScript.Proofs.Evaluator.Crash
import ScenarioScript.Proofs.Evaluator.Cache
import ScenarioScript.Proofs.Evaluator.Requests
import ScenarioScript.Proofs.Expr.Paths
import ScenarioScript.Proofs.Evaluator.Inputs
import ScenarioScript.Proofs.Evaluator.Listing
import ScenarioScript.Proofs.Simulation.Globals
import ScenarioScript.Proofs.Command.Output
import ScenarioScript.Proofs.Simulation.Timeless
import ScenarioScript.Proofs.Command.Ticks
import ScenarioScript.Proofs.Evaluator.Finite
import ScenarioScript.Proofs.Scenario.Literals
import ScenarioScript.Proofs.Simulation.Finite
import ScenarioScript.Proofs.Command.Numbers
import ScenarioScript.Proofs.Evaluator.Course
import ScenarioScript.Proofs.Evaluator.Calls
import ScenarioScript.Proofs.Evaluator.Effects
import ScenarioScript.Proofs.Session.Steps
import ScenarioScript.Proofs.Session.Writers
import ScenarioScript.Proofs.Session.Variables
import ScenarioScript.Proofs.Session.Isolation
import ScenarioScript.Proofs.Simulation.Unlabelled
import ScenarioScript.Proofs.Command.Removal
import ScenarioScript.Proofs.Glob.Pieces
import ScenarioScript.Proofs.Glob.Scan
import ScenarioScript.Proofs.Simulation.Hush
import ScenarioScript.Proofs.Scenario.Places
import ScenarioScript.Proofs.Command.Quiet
import ScenarioScript.Proofs.Command.Status
import ScenarioScript.Proofs.Expr.Lookahead
import ScenarioScript.Proofs.Expr.Viable
import ScenarioScript.Proofs.Expr.ErrorPlace
import ScenarioScript.Proofs.Expr.Height
import ScenarioScript.Proofs.Expr.Order
import ScenarioScript.Proofs.Statement.OpenEnd
import ScenarioScript.Proofs.Token.Cover
import ScenarioScript.Proofs.Evaluator.Within
import ScenarioScript.Proofs.Evaluator.Comparison
import ScenarioScript.Proofs.Evaluator.Failures
import ScenarioScript.Proofs.Scenario.Layout
import ScenarioScript.Proofs.Evaluator.Dependence
import ScenarioScript.Proofs.Evaluator.Unknown
import ScenarioScript.Proofs.Statement.Progress
import ScenarioScript.Proofs.Command.Settings
import ScenarioScript.Proofs.Number.Extremum
import ScenarioScript.Proofs.Host.Extremum
import ScenarioScript.Proofs.Expr.Descent
import ScenarioScript.Proofs.Expr.Progress
