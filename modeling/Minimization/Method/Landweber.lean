import Minimization.Solver

namespace Minimization

/-!
# Landweber iteration

* `Landweber` — gradient steps of a fixed length; only the cap and the target cost end a run.
* `Landweber.solver` — one gradient evaluation per iteration, and one cost evaluation at the new
  point if the costs are wanted.
-/

/-- Gradient steps of a fixed length. -/
structure Landweber (α : Type) where
  omega : α
  /-- Evaluate and report the cost of every new point. -/
  costing : Bool

namespace Landweber

variable {ω α : Type} [Scalar α]

/-- The name in log lines. -/
def name : String := "Landweber"

/-- The settings in one line. -/
def text (s : Landweber α) : String := "Landweber(omega=" ++ Scalar.shortest s.omega ++ ")"

/-- The step `x - ω ∇f(x)`. -/
def step (setting : Setting ω α) (p : Progress α) :
    Action (Workspace (Landweber α) ω) α (Report α) := do
  let s ← Workspace.readSolver
  let gradient ← Workspace.onSession (Session.gradient setting.operator p.param)
  let x ← Action.ofExcept (p.param.backend.scaledSub p.param s.omega gradient)
  if s.costing then
    let cost ← Workspace.onSession (Session.cost setting.operator x)
    return { param := some x, cost := some cost }
  else return { param := some x }

/-- The iteration as a solver. -/
def solver : Solver (Landweber α) ω α where
  name _ := name
  text := text
  step := step

end Landweber

end Minimization
