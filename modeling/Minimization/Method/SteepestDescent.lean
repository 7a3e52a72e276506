import Minimization.LineSearch.Basic

namespace Minimization.SteepestDescent

/-!
# Steepest descent

* `solver` — follows the negative gradient by the step length that a line search finds.  Cost and
  gradient at the current point are handed to the search, which does not evaluate them again.

The memory of the method is that of its line search.
-/

variable {ω α : Type} [Scalar α]

/-- The name in log lines. -/
def name : String := "Steepest Descent"

/-- The settings in one line. -/
def text (s : LineSearch α) : String := "SteepestDescent(linesearch=" ++ s.text ++ ")"

/-- One search along the negative gradient. -/
def step (setting : Setting ω α) (p : Progress α) :
    Action (Workspace (LineSearch α) ω) α (Report α) := do
  let x := p.param
  let cost ← Workspace.onSession (Session.cost setting.operator x)
  let gradient ← Workspace.onSession (Session.gradient setting.operator x)
  let direction := x.backend.scale gradient (-1.0)
  let found ← LineSearch.run setting x (some direction) (some cost) (some gradient)
  return { param := some found.param, cost := some found.cost }

/-- The method as a solver. -/
def solver : Solver (LineSearch α) ω α where
  name _ := name
  text := text
  step := step

end Minimization.SteepestDescent
