import Minimization.Method.Settings
import Minimization.Observer.Kinds
import Minimization.Problem.LeastSquares
import Minimization.Problem.Quadratic
import Minimization.Problem.Rosenbrock
import Minimization.Run.Summary
import Minimization.Scalar.Double

namespace Minimization.Demo

/-!
# Three demonstrations

Each demonstration runs one method on one small problem and tells of the result in a few lines of
text.

* `valley` — the quasi-Newton method in the valley of the Rosenbrock function, with log lines.
* `leastSquares` — Landweber iteration beside the solution of the normal equations.
* `dogleg` — the trust-region method on a quadratic function that is much steeper along one axis.
* `output` — the text of the demonstration of a name.
-/

/-- A run of a method from a point, under the given observers. -/
def perform (operator : Operator Unit Double) (settings : MethodSettings Double) (x : Tensor Double)
    (maxIters : Nat) (observers : List (Watch (Watcher Double))) :
    Action Logbook Double (Run (Method Double) Unit (Watcher Double) Double) := do
  let method ← Action.ofExcept settings.build
  let config ← Action.ofExcept (RunConfig.standard.override { maxIters := some (maxIters : Int) })
  let plan : Plan (Method Double) Unit (Watcher Double) Double :=
    ⟨Method.solver, Watcher.observer, ⟨operator, false⟩, config⟩
  let progress := ProgressOn.start x config.maxIters
  .ofFun fun b =>
    let (outcome, run) := (Run.execute plan).exec
      ⟨progress, method, { Session.start () with logbook := b }, observers⟩
    (outcome.map fun _ => run, run.session.logbook)

/-- The summary of a run. -/
def summaryOf (run : Run (Method Double) Unit (Watcher Double) Double) : String :=
  summary run.progress run.session.counts

/-- The quasi-Newton method on the Rosenbrock function.  Every iteration is logged; every third
    point, and every new best one, is saved. -/
def valley : Action Logbook Double (List String) := do
  Logbook.configure (.number Run.infoLevel) none .standard
  let lines ← Watcher.toLines "bfgs" (some Watcher.infoLevel)
  let third ← Action.ofExcept (ObserverMode.every 3)
  let run ← perform (Rosenbrock.operator Rosenbrock.usualA Rosenbrock.usualB)
    (.quasiNewton (.identity .array 2) (.lineSearch { constants := .strongWolfe none none }))
    (.vector .array [-1.2, 1.0]) 100
    [⟨.always, lines⟩, ⟨third, .files "param" .json []⟩, ⟨.newBest, .files "best" .json []⟩]
  return [summaryOf run, "Minimizer found: " ++ run.progress.bestParam.text]

/-- Landweber iteration on a least-squares problem. -/
def leastSquares : Action Logbook Double (List String) := do
  let problem : LeastSquares Double :=
    ⟨.matrix .array 2 [[4.0, 1.0], [1.0, 3.0]], .vector .array [1.0, 2.0]⟩
  let run ← perform problem.operator (.landweber 0.01 false) (.vector .array [0.0, 0.0]) 1000 []
  let solution ← Action.ofExcept problem.solution
  return [
    summaryOf run,
    "Landweber solution: " ++ run.progress.param.text,
    "Normal equations:   " ++ solution.text]

/-- The final radius of a trust-region method. -/
def radiusText : Method Double → String
  | .trustRegion s => Scalar.shortest s.radius
  | _ => ""

/-- The trust-region method on a quadratic function.  The first region does not hold the Newton
    step, so the path ends on its boundary until the region has grown. -/
def dogleg : Action Logbook Double (List String) := do
  let problem : Quadratic Double :=
    ⟨[[1.0, 0.0], [0.0, 10.0]], [0.0, 0.0], 0.0, .array⟩
  let run ← perform problem.operator (.trustRegion (.dogleg none) (some 3.0) (some 100.0) none)
    (.vector .array [10.0, 1.0]) 50 []
  return [summaryOf run, "Final radius: " ++ radiusText run.solver]

/-- Lines of text, each with its line break. -/
def joined (lines : List String) : String := String.join (lines.map (· ++ "\n"))

/-- The demonstration of a name. -/
def ofName : String → Option (Action Logbook Double (List String))
  | "bfgs_rosenbrock" => some valley
  | "landweber" => some leastSquares
  | "trust_region" => some dogleg
  | _ => none

/-- The text of the demonstration of a name. -/
def output (name : String) : Action Logbook Double String :=
  match ofName name with
  | some demo => do return joined (← demo)
  | none => throw .unknownValue

end Minimization.Demo
