import Minimization.Method.QuasiNewton
import Minimization.Method.Subproblem

namespace Minimization

/-!
# The trust-region method

* `TrustRegion` — the radius of the region in which the quadratic model is trusted, and its bounds.
* `TrustRegion.ratio` — the actual decrease of the cost by the decrease the model predicts.
* `TrustRegion.nextRadius` — a quarter after a poor step, twice after a good one that reached the
  boundary, never above the largest radius.
* `TrustRegion.solver` — a step is taken if its ratio exceeds a threshold; otherwise the point
  stays.
-/

/-- A trust-region method. -/
structure TrustRegion (α : Type) where
  subproblem : Subproblem α
  radius : α
  maxRadius : α
  /-- The ratio above which a step is taken. -/
  acceptance : α

namespace TrustRegion

variable {ω α : Type} [Scalar α]

/-- A method with checked settings. -/
def make (subproblem : Subproblem α) (radius maxRadius acceptance : α) :
    Except (Failure α) (TrustRegion α) :=
  if !Scalar.lt 0.0 radius then .error (.invalid .radius)
  else if !Scalar.le radius maxRadius then .error (.invalid .maximalRadius)
  else if !(Scalar.le 0.0 acceptance && Scalar.lt acceptance 0.25) then
    .error (.invalid .acceptance)
  else .ok ⟨subproblem, radius, maxRadius, acceptance⟩

/-- The name in log lines. -/
def name : String := "Trust region"

/-- The settings in one line. -/
def text (s : TrustRegion α) : String :=
  "TrustRegion(subproblem=" ++ s.subproblem.text ++ ", radius=" ++ Scalar.shortest s.radius ++ ")"

/-- Actual by predicted decrease; zero if no decrease is predicted or the new cost is not finite. -/
def ratio (cost newCost predicted : α) : α :=
  if Scalar.lt 0.0 predicted && Scalar.isFinite newCost then (cost - newCost) / predicted else 0.0

/-- The radius after a step of the given ratio and length. -/
def nextRadius (s : TrustRegion α) (rho length : α) : α :=
  if Scalar.lt rho 0.25 then s.radius * 0.25
  else if Scalar.lt 0.75 rho && Scalar.le (0.9 * s.radius) length then
    Scalar.least (2.0 * s.radius) s.maxRadius
  else s.radius

/-- Evaluates cost, gradient and Hessian at the start. -/
def init (setting : Setting ω α) (p : Progress α) :
    Action (Workspace (TrustRegion α) ω) α (Option (Report α)) := do
  let x := p.param
  let cost ← Workspace.onSession (Session.cost setting.operator x)
  let gradient ← Workspace.onSession (Session.gradient setting.operator x)
  let hessian ← Workspace.onSession (Session.hessian setting.operator x)
  return some {
    param := some x, cost := some cost, gradient := some gradient, hessian := some hessian }

/-- The step inside the region, by a nested run. -/
def subproblemStep (setting : Setting ω α) (x gradient hessian : Tensor α) :
    Action (Workspace (TrustRegion α) ω) α (Tensor α) := do
  let s ← Workspace.readSolver
  let dogleg ← Action.ofExcept (s.subproblem.setRadius s.radius)
  let found ← Workspace.within (fun _ => dogleg) (fun d s => { s with subproblem := .dogleg d })
    (Run.nested Dogleg.solver setting fun c =>
      Run.seeded x c.maxIters none (some gradient) (some hessian))
  return found.param

/-- The decrease of the quadratic model along a step. -/
def predictedDecrease (b : Backend) (cost : α) (gradient hessian step : Tensor α) :
    Except (Failure α) α := do
  let model := cost + (← b.dot gradient step) + 0.5 * (← b.weightedDot step hessian step)
  return cost - model

/-- One step.  The radius changes before the derivatives at the new point are evaluated. -/
def step (setting : Setting ω α) (p : Progress α) :
    Action (Workspace (TrustRegion α) ω) α (Report α) := do
  let x := p.param
  let b := x.backend
  let cost := p.cost
  let gradient ← Action.ofExcept p.requireGradient
  let hessian ← Action.ofExcept p.requireHessian
  let direction ← subproblemStep setting x gradient hessian
  let newX ← Action.ofExcept (Backend.add x direction)
  let newCost ← Workspace.onSession (Session.cost setting.operator newX)
  let predicted ← Action.ofExcept (predictedDecrease b cost gradient hessian direction)
  let rho := ratio cost newCost predicted
  let length ← Action.ofExcept (b.norm direction)
  -- From here on the new radius counts, even if an evaluation below fails.
  Workspace.modifySolver fun s => { s with radius := s.nextRadius rho length }
  let s ← Workspace.readSolver
  let notes := [("radius", .number s.radius), ("rho", .number rho)]
  if Scalar.lt s.acceptance rho && Scalar.isFinite newCost then
    let newGradient ← Workspace.onSession (Session.gradient setting.operator newX)
    let newHessian ← Workspace.onSession (Session.hessian setting.operator newX)
    return {
      param := some newX, cost := some newCost, gradient := some newGradient
      hessian := some newHessian, notes := notes }
  else
    return {
      -- The point stays; what is known there is reported once more.
      param := some x, cost := some cost, gradient := some gradient, hessian := some hessian
      notes := notes }

/-- A small gradient, or a small region. -/
def terminate (s : TrustRegion α) (p : Progress α) : Except (Failure α) Reason := do
  let gradient ← p.requireGradient
  let length ← p.param.backend.norm gradient
  if Scalar.lt length (Scalar.sqrt machineEpsilon) then return .targetPrecision
  else if Scalar.lt s.radius (Scalar.sqrt machineEpsilon) then return .targetTolerance
  else return .notTerminated

/-- The method as a solver. -/
def solver : Solver (TrustRegion α) ω α where
  name _ := name
  text := text
  init := init
  step := step
  terminate p := do Action.ofExcept (terminate (← Workspace.readSolver) p)

end TrustRegion

end Minimization
