import Minimization.Solver

namespace Minimization

/-!
# The dogleg path

The dogleg path leads from the origin to the Cauchy point and on to the Newton step.  Its end inside
a region around the origin is an approximate minimiser of the quadratic model there.

* `pathParameter` — where the path meets the boundary: below one on the first leg, between one and
  two on the second.
* `Dogleg` — the radius of the region, not a number until it is set.
* `Dogleg.solver` — one run of one iteration; its result is the step, not the point it leads to.
-/

/-- The parameter at which the second leg has length `√delta`, from the inner products of Cauchy
    point and Newton step: the larger root of a quadratic, or a closed form where that root is not
    finite. -/
def pathParameter {α : Type} [Scalar α] (utu btb utb delta : α) : α :=
  let t1 := 3.0 * utb - btb - 2.0 * utu
  let t2 := Scalar.sqrt
    (Scalar.square utb - 2.0 * utb * delta + delta * btb - btb * utu + delta * utu)
  let t3 := -2.0 * utb + btb + utu
  -- Both roots; one that is not a number gives way to the other.
  let tau := Scalar.maxNumber (-(t1 + t2) / t3) (-(t1 - t2) / t3)
  if Scalar.isFinite tau then tau else (delta + btb - 2.0 * utu) / (btb - utu)

/-- The region in which the path ends. -/
structure Dogleg (α : Type) where
  radius : α

namespace Dogleg

variable {ω α : Type} [Scalar α]

/-- A method whose radius has not been set. -/
def unset : Dogleg α := ⟨Scalar.notANumber⟩

/-- The name in log lines. -/
def name : String := "Dogleg"

/-- The settings in one line. -/
def text (s : Dogleg α) : String := "Dogleg(radius=" ++ Scalar.shortest s.radius ++ ")"

/-- The square of the radius, which must not overflow. -/
def squaredRadius (s : Dogleg α) : Except (Failure α) α :=
  match Scalar.square? s.radius with
  | some d => .ok d
  | none => .error .overflow

/-- A step reached at a parameter of the path. -/
def reached (step : Tensor α) (tau : α) : Report α :=
  { param := some step, notes := [("tau", .number tau)] }

/-- The step for a gradient and a Hessian. -/
def path (b : Backend) (s : Dogleg α) (g h : Tensor α) : Except (Failure α) (Report α) := do
  let newton := b.scale (← Backend.apply (← b.inv h) g) (-1.0)
  -- The whole path lies inside the region.
  if Scalar.le (← b.norm newton) s.radius then return reached newton 2.0
  -- The first leg ends where the model is least along the negative gradient.
  let coefficient := -(← b.dot g g) / (← b.weightedDot g h g)
  let cauchy := b.scale g coefficient
  let utu ← b.dot cauchy cauchy
  let btb ← b.dot newton newton
  let utb ← b.dot cauchy newton
  let tau := pathParameter utu btb utb (← s.squaredRadius)
  -- The path leaves the region on the first leg, on the second one, or the data are corrupted.
  if Scalar.le 0.0 tau && Scalar.lt tau 1.0 then return reached (b.scale cauchy tau) tau
  else if Scalar.le 1.0 tau && Scalar.le tau 2.0 then
    let step ← b.scaledAdd cauchy (tau - 1.0) (← Backend.sub newton cauchy)
    return reached step tau
  else throw (.impossible (.pathParameter tau))

/-- One step, from what is known of gradient and Hessian or else from evaluations. -/
def step (setting : Setting ω α) (p : Progress α) :
    Action (Workspace (Dogleg α) ω) α (Report α) := do
  let s ← Workspace.readSolver
  if Scalar.isNaN s.radius then throw (.impossible .radiusMissing)
  let g ← match p.gradient with
    | some g => pure g
    | none => Workspace.onSession (Session.gradient setting.operator p.param)
  let h ← match p.hessian with
    | some h => pure h
    | none => Workspace.onSession (Session.hessian setting.operator p.param)
  Action.ofExcept (path p.param.backend s g h)

/-- The method as a solver; one iteration is enough. -/
def solver : Solver (Dogleg α) ω α where
  name _ := name
  text := text
  step := step
  terminate p := pure (if 1 ≤ p.iter then .maxIters else .notTerminated)

end Dogleg

end Minimization
