import Minimization.Session

namespace Minimization

/-!
# Solvers

* `Solver` — an optimisation method with memory `σ`: what it does before the first iteration, in one
  iteration, and when it stops.  All three may change the memory, evaluate the operator, and fail.
* `Solver.terminateWithin` — the method's own reason, or else the cap on the iterations.
-/

/-- An optimisation method with memory `σ`. -/
structure Solver (σ ω α : Type) where
  /-- The name that log lines and failures mention. -/
  name : σ → String
  /-- The method and its settings in one line. -/
  text : σ → String
  /-- Prepares a run; what is reported is merged before the first iteration. -/
  init : Setting ω α → Progress α → Action (Workspace σ ω) α (Option (Report α)) :=
    fun _ _ => pure none
  /-- One iteration. -/
  step : Setting ω α → Progress α → Action (Workspace σ ω) α (Report α)
  /-- The method's own reason to stop, after an iteration. -/
  terminate : Progress α → Action (Workspace σ ω) α Reason := fun _ => pure .notTerminated

namespace Solver

variable {σ ω α : Type}

/-- The reason to stop after an iteration: the method's own, or else the cap on the iterations. -/
def terminateWithin (S : Solver σ ω α) (p : Progress α) : Action (Workspace σ ω) α Reason := do
  let own ← S.terminate p
  if own.isTerminal then return own
  else if p.maxIters ≤ (p.iter : Int) then return .maxIters
  else return .notTerminated

end Solver

end Minimization
