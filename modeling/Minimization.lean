import Minimization.Backend.Loose
import Minimization.Backend.Operand
import Minimization.Debug
import Minimization.Demo
import Minimization.Method.Settings
import Minimization.Observer.Files
import Minimization.Observer.Settings
import Minimization.Operator.Wrapper
import Minimization.Problem.Basic
import Minimization.Run.Manual
import Minimization.Run.Summary
import Minimization.Tensor.Definite
import Minimization.Text.Json.Reader
import Minimization.Proofs.Run.Iteration
import Minimization.Proofs.Run.Overheard
import Minimization.Proofs.Run.Stopping
import Minimization.Proofs.Scalar.Exact
import Minimization.Proofs.Coupling.Basic
import Minimization.Proofs.Coupling.Lockstep
import Minimization.Proofs.Coupling.Run
import Minimization.Proofs.Counts.Recording
import Minimization.Proofs.Run.Invariant
import Minimization.Proofs.Counts.Nested
import Minimization.Proofs.Counts.Runs
import Minimization.Proofs.Counts.Abort
import Minimization.Proofs.Counts.Sharing
import Minimization.Proofs.Counts.Pool
import Minimization.Proofs.Counts.History
import Minimization.Proofs.Scalar.Order
import Minimization.Proofs.Scalar.Double
import Minimization.Proofs.Progress.Summary
import Minimization.Proofs.Contract.Ends
import Minimization.Proofs.Contract.Run
import Minimization.Proofs.Contract.Nested
import Minimization.Proofs.Contract.Observers
import Minimization.Proofs.Scalar.Finite
import Minimization.Proofs.Tensor.Vectors
import Minimization.Proofs.Operator.Answers
import Minimization.Proofs.Operator.Sphere
import Minimization.Proofs.LineSearch.Ray
import Minimization.Proofs.LineSearch.Backtracking
import Minimization.Proofs.LineSearch.StrongWolfe
import Minimization.Proofs.LineSearch.Found
import Minimization.Proofs.LineSearch.Wolfe
import Minimization.Proofs.QuasiNewton.Update
import Minimization.Proofs.QuasiNewton.Contract
import Minimization.Proofs.QuasiNewton.Cone
import Minimization.Proofs.Method.Coherence
import Minimization.Proofs.LineSearch.Trial
import Minimization.Proofs.LineSearch.Bracket
import Minimization.Proofs.LineSearch.Zoom
import Minimization.Proofs.Scalar.Root
import Minimization.Proofs.Tensor.Elimination
import Minimization.Proofs.Dogleg.Parameter
import Minimization.Proofs.Dogleg.Path
import Minimization.Proofs.Dogleg.Region
import Minimization.Proofs.TrustRegion.Step
import Minimization.Proofs.TrustRegion.Radius
import Minimization.Proofs.TrustRegion.Progress
import Minimization.Proofs.LineSearch.Descent
import Minimization.Proofs.Method.Descent
import Minimization.Proofs.Run.Ending
import Minimization.Proofs.Run.Cap
import Minimization.Proofs.Method.Trajectory
import Minimization.Proofs.Method.Abort
import Minimization.Proofs.Method.Recovery
import Minimization.Proofs.Operator.Signals
import Minimization.Proofs.Contract.Uninterrupted
import Minimization.Proofs.Method.Interrupts
import Minimization.Proofs.Observer.Introduced
import Minimization.Proofs.Run.Finished
import Minimization.Proofs.Method.Finished
import Minimization.Proofs.Scalar.Signed
import Minimization.Proofs.Scalar.Rounding
import Minimization.Proofs.Scalar.Packing
import Minimization.Proofs.Scalar.Arithmetic
import Minimization.Proofs.LineSearch.Conduct
import Minimization.Proofs.LineSearch.Decrease
import Minimization.Proofs.Method.BestCost
import Minimization.Proofs.Tensor.Shaped
import Minimization.Proofs.Contract.Leaves
import Minimization.Proofs.LineSearch.Bounded
import Minimization.Proofs.LineSearch.Capped
import Minimization.Proofs.Method.Trials
import Minimization.Proofs.QuasiNewton.Secant
import Minimization.Proofs.Coupling.View
import Minimization.Proofs.Method.Reuse
import Minimization.Proofs.Observer.Rounds
import Minimization.Proofs.Observer.Account
import Minimization.Proofs.Run.Checked
import Minimization.Proofs.LineSearch.Checked
import Minimization.Proofs.Method.Checked
import Minimization.Proofs.Dogleg.Boundary
import Minimization.Proofs.Dogleg.Decrease
import Minimization.Proofs.TrustRegion.Decrease
import Minimization.Proofs.Counts.Spending
import Minimization.Proofs.Counts.Budget
import Minimization.Proofs.Operator.Transcript
import Minimization.Proofs.QuasiNewton.Costs
import Minimization.Proofs.Backend.Kernel
import Minimization.Proofs.Backend.Carried
import Minimization.Proofs.Backend.Searches
import Minimization.Proofs.Backend.Runs
import Minimization.Proofs.Backend.Methods
import Minimization.Proofs.Operator.Quadratic
import Minimization.Proofs.Backend.Alike
import Minimization.Proofs.QuasiNewton.RankTwo
import Minimization.Proofs.LineSearch.FirstAccepted
import Minimization.Proofs.SteepestDescent.Evaluations
import Minimization.Proofs.Method.Resumption
import Minimization.Proofs.TrustRegion.Failure
import Minimization.Proofs.Differences.Calls
import Minimization.Proofs.Run.Steered
import Minimization.Proofs.Method.FixedSteps
import Minimization.Proofs.Rosenbrock.Taylor
import Minimization.Proofs.Rosenbrock.Derivatives
import Minimization.Proofs.Differences.Lines
import Minimization.Proofs.Differences.Exact
import Minimization.Proofs.LineSearch.Outcome
import Minimization.Proofs.LineSearch.Samples
import Minimization.Proofs.LineSearch.Halving
import Minimization.Proofs.Logbook.Registry
import Minimization.Proofs.Logbook.Requests
import Minimization.Proofs.Logbook.Sharing
