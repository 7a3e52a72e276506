import Minimization.Solver

namespace Minimization

/-!
# Damped Newton iteration

* `Newton` — steps along the Newton direction with a fixed damping factor in `(0, 1]`.
* `Newton.solver` — one gradient and one Hessian per iteration; a singular Hessian ends the run.
-/

/-- Newton steps with a fixed damping factor. -/
structure Newton (α : Type) where
  gamma : α

namespace Newton

variable {ω α : Type} [Scalar α]

/-- A method with a checked damping factor. -/
def make (gamma : α) : Except (Failure α) (Newton α) :=
  if Scalar.lt 0.0 gamma && Scalar.le gamma 1.0 then .ok ⟨gamma⟩
  else .error (.invalid .damping)

/-- The name in log lines. -/
def name : String := "Newton method"

/-- The settings in one line. -/
def text (s : Newton α) : String := "Newton(gamma=" ++ Scalar.shortest s.gamma ++ ")"

/-- The step `x - γ (∇²f(x))⁻¹ ∇f(x)`. -/
def step (setting : Setting ω α) (p : Progress α) :
    Action (Workspace (Newton α) ω) α (Report α) := do
  let b := p.param.backend
  let s ← Workspace.readSolver
  let gradient ← Workspace.onSession (Session.gradient setting.operator p.param)
  let hessian ← Workspace.onSession (Session.hessian setting.operator p.param)
  let inverse ← Action.ofExcept (b.inv hessian)
  let direction ← Action.ofExcept (Backend.apply inverse gradient)
  let x ← Action.ofExcept (b.scaledSub p.param s.gamma direction)
  return { param := some x }

/-- The iteration as a solver. -/
def solver : Solver (Newton α) ω α where
  name _ := name
  text := text
  step := step

end Newton

end Minimization
