import Minimization.Method.Dogleg

namespace Minimization

/-!
# Solvers for the step inside a region

* `Subproblem` — the dogleg method, or a solver that was put in its place and cannot be given a
  radius.
* `Subproblem.setRadius` — what happens to the subproblem before every step.
-/

/-- What a trust-region method asks for its steps. -/
inductive Subproblem (α : Type) where
  | dogleg (s : Dogleg α)
  /-- Another solver, known by its text, and its radius if it has one. -/
  | unsuited (text : String) (radius : Option α)

namespace Subproblem

variable {α : Type}

/-- The settings in one line. -/
def text [Scalar α] : Subproblem α → String
  | .dogleg s => s.text
  | .unsuited text _ => text

/-- The radius, which another solver need not have. -/
def radius : Subproblem α → Except (Failure α) α
  | .dogleg s => .ok s.radius
  | .unsuited _ (some r) => .ok r
  | .unsuited _ none => .error .noSuchSetting

/-- Sets the radius of the dogleg method. -/
def setRadius (r : α) : Subproblem α → Except (Failure α) (Dogleg α)
  | .dogleg _ => .ok ⟨r⟩
  | .unsuited _ _ => .error .noSuchSetting

end Subproblem

end Minimization
