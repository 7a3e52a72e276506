import Mathlib.Algebra.MvPolynomial.PDeriv
import Mathlib.Algebra.Polynomial.Derivative
import Mathlib.Data.Matrix.Mul
import Mathlib.LinearAlgebra.Matrix.NonsingularInverse
import Mathlib.LinearAlgebra.Matrix.Symmetric
import Mathlib.RingTheory.Derivation.Lie
import Mathlib.RingTheory.Polynomial.Basic
import Mathlib.Tactic.LinearCombination
import Mathlib.Tactic.Module

namespace Minimization.Differences

open Matrix Polynomial

/-!
# Polynomials along lines

A polynomial in several variables is, along a line, a polynomial in the step, of no higher degree.

* `along` — a polynomial along a line; `derivative_along` — its derivative.
* `partials`, `secondPartials` — gradient and Hessian; `coeff_one_along`, `coeff_two_along` — they are
  the first two coefficients.
* `partials_add` — the gradient of a quadratic polynomial is affine; `partials_eq_zero_iff` — if the
  Hessian is invertible, there is one point where it vanishes.
* `central_along`, `second_along`, `mixed_along` — central differences of polynomials of low degree.
-/

variable {R : Type} [CommRing R] {n : ℕ} (p : MvPolynomial (Fin n) R) (x d : Fin n → R) (t : R)

/-! ### Lines -/

/-- Polynomials along a line. -/
noncomputable def along : MvPolynomial (Fin n) R →ₐ[R] R[X] :=
  MvPolynomial.aeval fun i => C (x i) + C (d i) * X

/-- A constant is constant along every line. -/
@[simp] theorem along_C (a : R) : along x d (MvPolynomial.C a) = C a :=
  MvPolynomial.aeval_C _ a

/-- A coordinate is linear along a line. -/
@[simp] theorem along_X (i : Fin n) : along x d (MvPolynomial.X i) = C (x i) + C (d i) * X :=
  MvPolynomial.aeval_X _ i

/-- Its values are those at the points of the line. -/
theorem eval_along : (along x d p).eval t = MvPolynomial.eval (x + t • d) p := by
  induction p using MvPolynomial.induction_on with
  | C a => simp
  | add p q hp hq => rw [map_add, eval_add, hp, hq, map_add]
  | mul_X p i hp =>
    have hpoint : (along x d (MvPolynomial.X i)).eval t = (x + t • d) i := by
      rw [along_X, eval_add, eval_mul, eval_C, eval_C, eval_X, mul_comm]
      rfl
    rw [map_mul, eval_mul, hp, hpoint, map_mul, MvPolynomial.eval_X]

/-- **Along a line** the degree does not grow. -/
theorem natDegree_along : (along x d p).natDegree ≤ p.totalDegree := by
  have hlinear (i : Fin n) : (C (x i) + C (d i) * X : R[X]).natDegree ≤ 1 := by
    rw [add_comm]
    exact natDegree_linear_le
  exact (MvPolynomial.aeval_natDegree_le p le_rfl _ hlinear).trans_eq (Nat.mul_one _)

/-- **The derivative along a line**, by the rules for sums and products. -/
theorem derivative_along :
    derivative (along x d p) = ∑ i, C (d i) * along x d (MvPolynomial.pderiv i p) := by
  induction p using MvPolynomial.induction_on with
  | C a => simp
  | add p q hp hq => simp only [map_add, hp, hq, mul_add, Finset.sum_add_distrib]
  | mul_X p i hp =>
    have hfactor : derivative (along x d (MvPolynomial.X i)) = C (d i) := by simp
    -- A variable has a derivative by itself only.
    have hother : ∑ j, C (d j) * along x d (p * MvPolynomial.pderiv j (MvPolynomial.X i)) =
        along x d p * C (d i) := by
      rw [Finset.sum_eq_single i]
      · rw [MvPolynomial.pderiv_X_self, mul_one, mul_comm]
      · intro j _ hj
        rw [MvPolynomial.pderiv_X_of_ne hj.symm, mul_zero, map_zero, mul_zero]
      · simp
    rw [map_mul, derivative_mul, hp, hfactor, ← hother, Finset.sum_mul, ← Finset.sum_add_distrib]
    refine Finset.sum_congr rfl fun j _ => ?_
    rw [MvPolynomial.pderiv_mul, map_add, mul_add, map_mul (along x d) _ (MvPolynomial.X i), mul_assoc]

/-! ### Gradient and Hessian -/

/-- The gradient. -/
noncomputable def partials : Fin n → R := fun i => MvPolynomial.eval x (MvPolynomial.pderiv i p)

/-- The Hessian. -/
noncomputable def secondPartials : Matrix (Fin n) (Fin n) R :=
  .of fun i j => MvPolynomial.eval x (MvPolynomial.pderiv j (MvPolynomial.pderiv i p))

/-- Partial derivatives may be taken in either order. -/
theorem pderiv_comm (i j : Fin n) : MvPolynomial.pderiv i (MvPolynomial.pderiv j p) =
    MvPolynomial.pderiv j (MvPolynomial.pderiv i p) := by
  -- The commutator is a derivation as well, and it vanishes on the variables.
  have hcommute : ⁅MvPolynomial.pderiv (R := R) i, MvPolynomial.pderiv (R := R) j⁆ = 0 := by
    refine MvPolynomial.derivation_ext fun k => ?_
    rw [Derivation.commutator_apply, MvPolynomial.pderiv_X, MvPolynomial.pderiv_X]
    simp [Pi.single_apply, apply_ite]
  rw [← sub_eq_zero, ← Derivation.commutator_apply, hcommute, Derivation.zero_apply]

/-- The Hessian is symmetric. -/
theorem isSymm_secondPartials : (secondPartials p x).IsSymm :=
  IsSymm.ext fun i j => congrArg (fun q : MvPolynomial (Fin n) R => q.eval x) (pderiv_comm p i j)

/-- The value at the origin of the line. -/
theorem coeff_zero_along : (along x d p).coeff 0 = MvPolynomial.eval x p := by
  rw [coeff_zero_eq_eval_zero, eval_along, zero_smul, add_zero]

/-- Every further coefficient is one of a directional derivative. -/
theorem coeff_succ_along (k : ℕ) : (along x d p).coeff (k + 1) * (k + 1) =
    ∑ i, d i * (along x d (MvPolynomial.pderiv i p)).coeff k := by
  have h := congrArg (coeff · k) (derivative_along p x d)
  simpa only [coeff_derivative, finsetSum_coeff, coeff_C_mul] using h

/-- **The linear part** along a line. -/
theorem coeff_one_along : (along x d p).coeff 1 = partials p x ⬝ᵥ d := by
  have h := coeff_succ_along p x d 0
  simp only [coeff_zero_along, Nat.cast_zero, zero_add, mul_one] at h
  rw [h]
  exact Finset.sum_congr rfl fun i _ => mul_comm ..

/-- **The quadratic part** along a line. -/
theorem coeff_two_along : 2 * (along x d p).coeff 2 = d ⬝ᵥ secondPartials p x *ᵥ d := by
  have h := coeff_succ_along p x d 1
  simp only [coeff_one_along, Nat.cast_one, one_add_one_eq_two] at h
  rw [mul_comm, h]
  rfl

/-! ### Polynomials of low degree -/

/-- A derivative has one degree less. -/
theorem totalDegree_pderiv {k : ℕ} (hp : p.totalDegree ≤ k + 1) (i : Fin n) :
    (MvPolynomial.pderiv i p).totalDegree ≤ k := by
  refine Finset.sup_le fun m hm => ?_
  have hcoeff : MvPolynomial.coeff (m + Finsupp.single i 1) p ≠ 0 := by
    intro hzero
    rw [MvPolynomial.mem_support_iff, MvPolynomial.coeff_pderiv, hzero, zero_mul] at hm
    exact hm rfl
  have hdegree := MvPolynomial.le_totalDegree (MvPolynomial.mem_support_iff.2 hcoeff)
  rw [Finsupp.sum_add_index' (fun _ => rfl) fun _ _ _ => rfl, Finsupp.sum_single_index rfl] at hdegree
  omega

/-- **The gradient** of a quadratic polynomial is affine. -/
theorem partials_add (hp : p.totalDegree ≤ 2) :
    partials p (x + d) = partials p x + secondPartials p x *ᵥ d := by
  funext i
  have hdegree : (along x d (MvPolynomial.pderiv i p)).natDegree < 2 :=
    Nat.lt_succ_of_le ((natDegree_along _ x d).trans (totalDegree_pderiv p hp i))
  have hline := eval_along (MvPolynomial.pderiv i p) x d 1
  rw [eval_eq_sum_range' hdegree, Finset.sum_range_succ, Finset.sum_range_one, coeff_zero_along,
    coeff_one_along, one_smul, pow_zero, pow_one, mul_one, mul_one] at hline
  exact hline.symm

/-- **The stationary point** of a quadratic polynomial with an invertible Hessian. -/
theorem partials_eq_zero_iff (hp : p.totalDegree ≤ 2) (hH : IsUnit (secondPartials p x).det)
    (y : Fin n → R) :
    partials p y = 0 ↔ y = x - (secondPartials p x)⁻¹ *ᵥ partials p x := by
  have hline := partials_add p x (y - x) hp
  rw [add_sub_cancel] at hline
  rw [hline]
  constructor
  · intro hzero
    have hdirection := congrArg ((secondPartials p x)⁻¹ *ᵥ ·) hzero
    simp only [mulVec_add, mulVec_mulVec, nonsing_inv_mul _ hH, one_mulVec, mulVec_zero] at hdirection
    rw [← sub_eq_zero, ← hdirection]
    abel
  · rintro rfl
    rw [sub_sub_cancel_left, mulVec_neg, mulVec_mulVec, mul_nonsing_inv _ hH, one_mulVec, add_neg_cancel]

/-! ### Central differences -/

section
variable {q : R[X]}

/-- A central difference is exact up to degree two. -/
theorem central_difference (hq : q.natDegree ≤ 2) :
    q.eval t - q.eval (-t) = 2 * t * q.coeff 1 := by
  simp only [eval_eq_sum_range' (Nat.lt_succ_of_le hq), Finset.sum_range_succ, Finset.sum_range_zero]
  ring

/-- A second difference is exact up to degree three. -/
theorem second_difference (hq : q.natDegree ≤ 3) :
    q.eval t - 2 * q.eval 0 + q.eval (-t) = t * t * (2 * q.coeff 2) := by
  simp only [eval_eq_sum_range' (Nat.lt_succ_of_le hq), Finset.sum_range_succ, Finset.sum_range_zero]
  ring

end

/-- A central difference gives a derivative. -/
theorem central_along (hp : p.totalDegree ≤ 2) :
    MvPolynomial.eval (x + t • d) p - MvPolynomial.eval (x - t • d) p =
      2 * t * (partials p x ⬝ᵥ d) := by
  rw [← coeff_one_along, ← central_difference t ((natDegree_along p x d).trans hp), eval_along,
    eval_along, neg_smul, sub_eq_add_neg x]

/-- A second difference gives a second derivative. -/
theorem second_along (hp : p.totalDegree ≤ 3) :
    MvPolynomial.eval (x + t • d) p - 2 * MvPolynomial.eval x p + MvPolynomial.eval (x - t • d) p =
      t * t * (d ⬝ᵥ secondPartials p x *ᵥ d) := by
  rw [← coeff_two_along, ← second_difference t ((natDegree_along p x d).trans hp), eval_along,
    eval_along, eval_along, neg_smul, zero_smul, add_zero, sub_eq_add_neg x]

/-- A mixed difference gives a mixed derivative. -/
theorem mixed_along (hp : p.totalDegree ≤ 3) (e : Fin n → R) :
    MvPolynomial.eval (x + t • d + t • e) p - MvPolynomial.eval (x + t • d - t • e) p -
        MvPolynomial.eval (x - t • d + t • e) p + MvPolynomial.eval (x - t • d - t • e) p =
      4 * (t * t) * (d ⬝ᵥ secondPartials p x *ᵥ e) := by
  have hsymm : e ⬝ᵥ secondPartials p x *ᵥ d = d ⬝ᵥ secondPartials p x *ᵥ e := by
    rw [dotProduct_mulVec, ← mulVec_transpose, isSymm_secondPartials p x, dotProduct_comm]
  -- The four points lie on two lines through `x`, along the sum and along the difference.
  have hsum := second_along p x (d + e) t hp
  have hdifference := second_along p x (d - e) t hp
  simp only [mulVec_add, mulVec_sub, dotProduct_add, dotProduct_sub, add_dotProduct, sub_dotProduct,
    hsymm] at hsum hdifference
  have hpoints : x + t • d + t • e = x + t • (d + e) ∧ x + t • d - t • e = x + t • (d - e) ∧
      x - t • d + t • e = x - t • (d - e) ∧ x - t • d - t • e = x - t • (d + e) := by
    refine ⟨?_, ?_, ?_, ?_⟩ <;> module
  obtain ⟨ha, hb, hc, hd⟩ := hpoints
  rw [ha, hb, hc, hd]
  linear_combination hsum - hdifference

end Minimization.Differences
