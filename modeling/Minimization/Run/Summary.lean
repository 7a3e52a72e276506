import Minimization.Run.Basic
import Minimization.Scalar.Double
import Minimization.Tensor.Text

namespace Minimization

/-!
# The summary of a run

* `summary` — the final progress and the counts, line by line.
* `Series.extend` — a run that is executed again and again.
-/

/-- The final progress and the counts of a run. -/
def summary (p : Progress Double) (counts : Counts) : String :=
  "\n".intercalate [
    "OptimizationResult:",
    "    param (best):  " ++ p.bestParam.text,
    "    cost (best):   " ++ Scalar.shortest p.bestCost,
    "    param (last):  " ++ p.param.text,
    "    cost (last):   " ++ Scalar.shortest p.cost,
    "    iters:         " ++ toString p.iter,
    "    evaluations:   " ++ counts.text,
    "    termination:   " ++ p.reason.text]

/-- What came of executing a run several times. -/
structure Series where
  /-- The last failure. -/
  failure : Option (Failure Double) := none
  /-- The last summary. -/
  summary : Option String := none

/-- Executes a run some more times, each from where the one before it ended. -/
def Series.extend {σ ω η : Type} (P : Plan σ ω η Double) :
    Nat → Series → Action (Run σ ω η Double) Double Series
  | 0, s => pure s
  | n + 1, s => do
    match ← Action.attempt (Run.execute P) with
    | .ok _ =>
      let r ← get
      extend P n { s with summary := some (Minimization.summary r.progress r.session.counts) }
    | .error e => extend P n { s with failure := some e }

end Minimization
