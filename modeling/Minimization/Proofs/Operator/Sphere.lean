import Minimization.Problem.Sphere
import Minimization.Proofs.Operator.Answers
import Minimization.Proofs.Tensor.Vectors

namespace Minimization

/-!
# The sphere function over a field

* `sphere_real`, `sphereGradient_real`, `sphereGradient_ofVec` — cost and gradient at finite
  numbers.
* `sphereOperator_cost`, `sphereOperator_gradient` — the operator answers by them everywhere.
* `not_sphere_le` — the cost is nowhere as low as it could be, whatever the entries are.
-/

variable {K ω : Type} [Field K] [LinearOrder K] [Roots K]

/-- At finite numbers the sphere is a sum of squares. -/
theorem sphere_real (b : Backend) (shape : List Nat) (xs : List K) :
    sphere (.real b shape xs) = (.finite (List.zipWith (· * ·) xs xs).sum : Exact K) :=
  Backend.inner_finite xs xs

/-- It answers every cost. -/
theorem sphereOperator_cost (D : Tensor (Exact K) → Prop) (E : Failure (Exact K) → Prop) :
    Answers (sphereOperator : Operator ω (Exact K)).cost D sphere E := fun _ _ _ => rfl

/-- It answers every gradient. -/
theorem sphereOperator_gradient (D : Tensor (Exact K) → Prop) (E : Failure (Exact K) → Prop) :
    Answers (sphereOperator : Operator ω (Exact K)).gradient D sphereGradient E := fun _ _ _ => rfl

omit [Roots K] in
/-- A square is not minus infinity. -/
theorem Exact.square_ne (x : Exact K) : x.mul x ≠ infinite true := by
  cases x with
  | finite x => nofun
  | infinite s => cases s <;> nofun
  | notANumber => nofun

omit [LinearOrder K] [Roots K] in
/-- Neither is a sum of such numbers. -/
theorem Exact.add_ne {x y : Exact K} (hx : x ≠ infinite true) (hy : y ≠ infinite true) :
    x.add y ≠ infinite true := by
  -- Only an infinite summand can make a sum infinite, and with its own sign.
  cases x with
  | finite x =>
    cases y with
    | infinite t => exact hy
    | _ => nofun
  | infinite s =>
    cases y with
    | finite y => exact hx
    | infinite t =>
      show (if s = t then infinite s else notANumber) ≠ infinite true
      split
      · exact hx
      · nofun
    | notANumber => nofun
  | notANumber => nofun

/-- A sum of squares is not the negative infinity, even if some of them are not numbers. -/
theorem not_sphere_le (x : Tensor (Exact K)) :
    Scalar.le (sphere x) (-Scalar.infinity) = false := by
  -- A sum of squares is never minus infinity; the induction needs this of the sum so far.
  have hsum (xs : List (Exact K)) : ∀ acc, acc ≠ .infinite true →
      (List.zipWith (· * ·) xs xs).foldl (· + ·) acc ≠ .infinite true := by
    induction xs with
    | nil => exact fun acc hacc => hacc
    | cons y xs ih => exact fun acc hacc => ih _ (Exact.add_ne hacc y.square_ne)
  have hne : sphere x ≠ .infinite true := hsum x.entries _ (by rw [Exact.lit_zero]; nofun)
  generalize sphere x = c at hne
  cases c with
  | finite c => rfl
  | infinite s =>
    cases s with
    | false => rfl
    | true => exact absurd rfl hne
  | notANumber => rfl

variable [IsStrictOrderedRing K]

/-- Its gradient is twice the point. -/
theorem sphereGradient_real (shape : List Nat) (xs : List K) :
    sphereGradient (.real .array shape xs) = Tensor.real .array shape (xs.map (2 * ·)) := by
  simp [sphereGradient, Tensor.real, Tensor.onBackend, Tensor.map, Function.comp_def]

/-- The same for vectors. -/
theorem sphereGradient_ofVec {n : Nat} (v : Fin n → K) :
    sphereGradient (.ofVec .array v) = Tensor.ofVec .array (2 • v) := by
  rw [Tensor.ofVec, sphereGradient_real, List.map_ofFn, Tensor.ofVec]
  congr 2
  funext i
  simp

end Minimization
