import Minimization.LineSearch.Line
import Minimization.Method.Dogleg

namespace Minimization

/-!
# Starting from what is known

Line searches and the dogleg method take over what is already known at their starting point and
evaluate the rest.

* `Session.knownCost`, `Session.knownGradient`, `Session.knownHessian` — a value that is known, or
  else an evaluation.
* `Line.settle` — the start of a line search from cost and gradient; `Line.begin_eq` puts the parts
  together.
* `Dogleg.step_eq` — the same for the dogleg method.
-/

variable {ω α : Type}

namespace Session

/-- The cost of the current point; an infinite one is not known yet. -/
def knownCost [Scalar α] (A : Setting ω α) (p : Progress α) : Action (Session ω) α α :=
  if Scalar.isInfinite p.cost then cost A.operator p.param else pure p.cost

/-- The gradient at the current point. -/
def knownGradient (A : Setting ω α) (p : Progress α) : Action (Session ω) α (Tensor α) :=
  match p.gradient with
  | some g => pure g
  | none => gradient A.operator p.param

/-- The Hessian at the current point. -/
def knownHessian (A : Setting ω α) (p : Progress α) : Action (Session ω) α (Tensor α) :=
  match p.hessian with
  | some h => pure h
  | none => hessian A.operator p.param

end Session

variable [Scalar α]

namespace Line

/-- The start of a search in a direction, once cost and gradient at its origin are known. -/
def settle (x direction : Tensor α) (cost : α) (gradient : Tensor α) :
    Action (Workspace (Line α) ω) α (Report α) := do
  let slope ← Action.ofExcept (x.backend.dot gradient direction)
  Workspace.modifySolver fun l =>
    { l with start := some ⟨x, cost, gradient, slope⟩, trials := 0, done := none }
  let length ← Action.ofExcept (x.backend.norm direction)
  if Scalar.eq length 0.0 then Workspace.modifySolver (finish .lineSearchCondition)
  else if !Scalar.lt slope 0.0 then throw (.invalid .notDescent)
  return { param := some x, cost := some cost, gradient := some gradient }

/-- The start of a search, part by part. -/
theorem begin_eq (name : String) (A : Setting ω α) (p : Progress α) : begin name A p = (do
    let direction ← Action.ofExcept ((← Workspace.readSolver).requireDirection name)
    let cost ← Workspace.onSession (Session.knownCost A p)
    let gradient ← Workspace.onSession (Session.knownGradient A p)
    settle p.param direction cost gradient) := by
  unfold begin Session.knownCost Session.knownGradient settle
  by_cases hcost : Scalar.isInfinite p.cost
  · cases p.gradient <;> simp only [hcost, if_true] <;> rfl
  · cases p.gradient <;> simp only [hcost] <;> rfl

end Line

/-- A dogleg step, part by part. -/
theorem Dogleg.step_eq (A : Setting ω α) (p : Progress α) : Dogleg.step A p = (do
    let s ← Workspace.readSolver
    if Scalar.isNaN s.radius then throw (.impossible .radiusMissing)
    else do
      let g ← Workspace.onSession (Session.knownGradient A p)
      let h ← Workspace.onSession (Session.knownHessian A p)
      Action.ofExcept (path p.param.backend s g h)) := by
  unfold step Session.knownGradient Session.knownHessian
  refine bind_congr fun s => ?_
  by_cases hradius : Scalar.isNaN s.radius
  · rw [if_pos hradius, if_pos hradius]
    rfl
  · rw [if_neg hradius, if_neg hradius]
    cases p.gradient <;> cases p.hessian <;> rfl

end Minimization
