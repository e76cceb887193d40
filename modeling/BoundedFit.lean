import BoundedFit.Fault.Text
import BoundedFit.Problem.Dense
import BoundedFit.Solver.Log
import BoundedFit.Solver.Journal
import BoundedFit.Solver.Chart
import BoundedFit.Solver.Derivative
import BoundedFit.Contour.Text
import BoundedFit.Scalar.Marked
import BoundedFit.Proofs.Run.Feasible
import BoundedFit.Proofs.Run.Tight
import BoundedFit.Proofs.Run.Drift
import BoundedFit.Proofs.Minimum
import BoundedFit.Proofs.Run.Visits
import BoundedFit.Proofs.Descent
import BoundedFit.Proofs.Undamped
import BoundedFit.Proofs.Comparison
import BoundedFit.Proofs.Run.Best
import BoundedFit.Proofs.Run.Report
import BoundedFit.Proofs.Dominated.Block
import BoundedFit.Proofs.Dominated.Trace
import BoundedFit.Proofs.Dominated.Result
import BoundedFit.Proofs.Run.Prefix
import BoundedFit.Proofs.Run.Accepted
import BoundedFit.Proofs.Run.Transitions
import BoundedFit.Proofs.Run.Stretched
import BoundedFit.Proofs.Contour.Lap
import BoundedFit.Proofs.Contour.Shift
import BoundedFit.Proofs.Relabel.Result
import BoundedFit.Proofs.Linear.Independent
import BoundedFit.Proofs.Step.Least
import BoundedFit.Proofs.Block.Exit
import BoundedFit.Proofs.ActiveSet.History
import BoundedFit.Proofs.Step.Release
import BoundedFit.Proofs.Step.Damping
import BoundedFit.Proofs.State
import BoundedFit.Proofs.Step.Exposed
import BoundedFit.Proofs.Clamp.Nearest
import BoundedFit.Proofs.Infeasible
import BoundedFit.Proofs.Contour.History
import BoundedFit.Proofs.Contour.Window
import BoundedFit.Proofs.Derivative.Check
import BoundedFit.Proofs.Limits
import BoundedFit.Proofs.Run.Restart
import BoundedFit.Proofs.Run.Verbose
import BoundedFit.Proofs.Run.Lines
