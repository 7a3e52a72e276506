import Minimization.LineSearch.Basic

namespace Minimization

/-!
# The quasi-Newton method of full memory

* `secantUpdate` — the rank-two update of an inverse Hessian, `none` where the curvature is not
  positive.
* `QuasiNewton` — the inverse Hessian and the line search.
* `QuasiNewton.solver` — one line search and one gradient per iteration; stops at a small gradient
  or an unchanged cost.
-/

/-- The gap between one and the next double. -/
def machineEpsilon {α : Type} [Scalar α] : α := 2.220446049250313080847263336181640625e-16

/-- The inverse Hessian after a step `s` along which the gradient changed by `y`:
    `(I - ρ s yᵀ) H (I - ρ y sᵀ) + ρ s sᵀ` with `ρ = 1 / y·s`.  Without positive curvature `y·s`
    there is no update; the curvature is yielded in either case. -/
def secantUpdate {α : Type} [Scalar α] (h s y : Tensor α) :
    Except (Failure α) (α × Option (Tensor α)) := do
  let b := s.backend
  let curvature ← b.dot y s
  if Scalar.lt 0.0 curvature && Scalar.isFinite curvature then
    let rho := 1.0 / curvature
    let identity ← b.eyeLike h
    -- `ρ s yᵀ` and its transpose.
    let left := b.scale (← b.outer s y) rho
    let right := left.transpose
    let before ← Backend.sub identity left
    let after ← Backend.sub identity right
    let correction := b.scale (← b.outer s s) rho
    -- Products are formed from the right.
    let middle ← Backend.apply h after
    return (curvature, some (← Backend.add (← Backend.apply before middle) correction))
  else return (curvature, none)

/-- An approximate inverse Hessian and a line search. -/
structure QuasiNewton (α : Type) where
  inverseHessian : Tensor α
  search : LineSearch α

namespace QuasiNewton

variable {ω α : Type} [Scalar α]

/-- The name in log lines. -/
def name : String := "BFGS"

/-- The settings in one line. -/
def text (s : QuasiNewton α) : String := "BFGS(linesearch=" ++ s.search.text ++ ")"

/-- The warning about an update that was skipped. -/
def skipLine (curvature : α) : String :=
  "BFGS: curvature condition violated (y^T s = " ++ Scalar.scientific 3 curvature ++
    "), skipping update"

/-- Updates the inverse Hessian; warns if the update is skipped. -/
def refine (h : Tensor α) : α × Option (Tensor α) → Action (Session ω) α (Tensor α)
  | (_, some updated) => pure updated
  | (curvature, none) => do
    Session.log warningLevel Logbook.quasiNewtonLogger fun _ => skipLine curvature
    return h

/-- Evaluates cost and gradient at the start. -/
def init (setting : Setting ω α) (p : Progress α) :
    Action (Workspace (QuasiNewton α) ω) α (Option (Report α)) := do
  let cost ← Workspace.onSession (Session.cost setting.operator p.param)
  let gradient ← Workspace.onSession (Session.gradient setting.operator p.param)
  return some { param := some p.param, cost := some cost, gradient := some gradient }

/-- One search along `-H ∇f(x)`, and an update of `H`. -/
def step (setting : Setting ω α) (p : Progress α) :
    Action (Workspace (QuasiNewton α) ω) α (Report α) := do
  let x := p.param
  let oldGradient ← Action.ofExcept p.requireGradient
  let h := (← Workspace.readSolver).inverseHessian
  let direction :=
    x.backend.scale (← Action.ofExcept (Backend.apply h oldGradient)) (-1.0)
  let found ← Workspace.within (·.search) (fun search s => { s with search := search })
    (LineSearch.run setting x (some direction) (some p.cost) (some oldGradient))
  let gradient ← Workspace.onSession (Session.gradient setting.operator found.param)
  let y ← Action.ofExcept (Backend.sub gradient oldGradient)
  let s ← Action.ofExcept (Backend.sub found.param x)
  let update ← Action.ofExcept (secantUpdate h s y)
  let refined ← Workspace.onSession (refine h update)
  -- Nothing below can raise, so the matrix is replaced by a step that succeeds only.
  Workspace.modifySolver fun m => { m with inverseHessian := refined }
  return { param := some found.param, cost := some found.cost, gradient := some gradient }

/-- A small gradient, or a cost that did not change. -/
def terminate (p : Progress α) : Except (Failure α) Reason := do
  let gradient ← p.requireGradient
  let length ← p.param.backend.norm gradient
  if Scalar.lt length (Scalar.sqrt machineEpsilon) then return .targetPrecision
  else if Scalar.lt (Scalar.abs (p.prevCost - p.cost)) machineEpsilon then return .noChangeInCost
  else return .notTerminated

/-- The method as a solver. -/
def solver : Solver (QuasiNewton α) ω α where
  name _ := name
  text := text
  init := init
  step := step
  terminate p := Action.ofExcept (terminate p)

end QuasiNewton

end Minimization
