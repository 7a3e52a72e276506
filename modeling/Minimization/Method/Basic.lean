import Minimization.Method.Landweber
import Minimization.Method.Newton
import Minimization.Method.Script
import Minimization.Method.SteepestDescent
import Minimization.Method.TrustRegion

namespace Minimization

/-!
# The methods of the library

* `Method` — any of the solvers, with its settings and memory.
* `Method.solver` — what the method at hand does.
* `Method.asSearch`, `Method.asSubproblem` — the method inside another one.
* `Method.setDirection`, `Method.setRadius`, `Method.setInitialStep`, `Method.setDamping` — settings
  that may be changed after construction; a method without the setting refuses.
-/

/-- A solver with its settings and memory. -/
inductive Method (α : Type) where
  | landweber (s : Landweber α)
  | newton (s : Newton α)
  | steepestDescent (s : LineSearch α)
  | quasiNewton (s : QuasiNewton α)
  | lineSearch (s : LineSearch α)
  | dogleg (s : Dogleg α)
  | trustRegion (s : TrustRegion α)
  | script (s : Script α)

namespace Method

variable {ω α : Type} [Scalar α]

/-- The name in log lines. -/
def name : Method α → String
  | .landweber _ => Landweber.name
  | .newton _ => Newton.name
  | .steepestDescent _ => SteepestDescent.name
  | .quasiNewton _ => QuasiNewton.name
  | .lineSearch s => s.name
  | .dogleg _ => Dogleg.name
  | .trustRegion _ => TrustRegion.name
  | .script s => s.name

/-- The settings in one line. -/
def text : Method α → String
  | .landweber s => s.text
  | .newton s => s.text
  | .steepestDescent s => SteepestDescent.text s
  | .quasiNewton s => s.text
  | .lineSearch s => s.text
  | .dogleg s => s.text
  | .trustRegion s => s.text
  | .script _ => "Script()"

/-- Lets the method at hand act. -/
def dispatch {β : Type} (act : {σ : Type} → Solver σ ω α → Action (Workspace σ ω) α β) :
    Action (Workspace (Method α) ω) α β := do
  match ← Workspace.readSolver with
  | .landweber s => Workspace.wrapping .landweber s (act Landweber.solver)
  | .newton s => Workspace.wrapping .newton s (act Newton.solver)
  | .steepestDescent s => Workspace.wrapping .steepestDescent s (act SteepestDescent.solver)
  | .quasiNewton s => Workspace.wrapping .quasiNewton s (act QuasiNewton.solver)
  | .lineSearch s => Workspace.wrapping .lineSearch s (act LineSearch.solver)
  | .dogleg s => Workspace.wrapping .dogleg s (act Dogleg.solver)
  | .trustRegion s => Workspace.wrapping .trustRegion s (act TrustRegion.solver)
  | .script s => Workspace.wrapping .script s (act Script.solver)

/-- The method at hand as a solver. -/
def solver : Solver (Method α) ω α where
  name := name
  text := text
  init setting p := dispatch fun S => S.init setting p
  step setting p := dispatch fun S => S.step setting p
  terminate p := dispatch fun S => S.terminate p

/-! ### Inside other methods -/

/-- The method in the place of a line search. -/
def asSearch : Method α → LineSearch α
  | .lineSearch s => s
  | m => .unsuited m.text

/-- The method in the place of a solver for the step inside a region. -/
def asSubproblem : Method α → Subproblem α
  | .dogleg s => .dogleg s
  | .trustRegion s => .unsuited s.text (some s.radius)
  | m => .unsuited m.text none

/-! ### Settings that may change -/

/-- Sets the direction of a line search, or takes it away. -/
def setDirection (direction : Option (Tensor α)) : Method α → Except (Failure α) (Method α)
  | .lineSearch s => (s.setDirection direction).map .lineSearch
  | _ => .error .noSuchSetting

/-- Sets the first step length of a line search. -/
def setInitialStep (step : α) : Method α → Except (Failure α) (Method α)
  | .lineSearch s => (s.setInitialStep step).map .lineSearch
  | _ => .error .noSuchSetting

/-- Sets the radius of a dogleg method. -/
def setRadius (radius : α) : Method α → Except (Failure α) (Method α)
  | .dogleg _ => .ok (.dogleg ⟨radius⟩)
  | _ => .error .noSuchSetting

/-- Sets the damping factor of Newton's method. -/
def setDamping (gamma : α) : Method α → Except (Failure α) (Method α)
  | .newton _ => (Newton.make gamma).map .newton
  | _ => .error .noSuchSetting

end Method

end Minimization
