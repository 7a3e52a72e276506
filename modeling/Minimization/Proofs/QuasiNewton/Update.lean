import Mathlib.LinearAlgebra.Matrix.Symmetric
import Minimization.Proofs.Method.Parts
import Minimization.Proofs.Tensor.Vectors

namespace Minimization.QuasiNewton

open Minimization Matrix

/-!
# The update of the inverse Hessian

* `refined` — the matrix after a step, as a matrix over the field; `secantUpdate_ofVec` and
  `revision_ofVec` say that this is what the method computes.
* `Definite` — symmetric and positive definite, over any ordered field.
* `Definite.refined` — the update keeps a matrix definite.  With positive curvature it is `A H Aᵀ +
  ρ s sᵀ`, and where `Aᵀ` sends a vector to zero the second summand is positive.
* `Definite.descent` — `-H g` leads downhill.
-/

variable {K : Type} [Field K] {n : Nat}

/-- The rank-two update for positive curvature. -/
def corrected (H : Matrix (Fin n) (Fin n) K) (s y : Fin n → K) : Matrix (Fin n) (Fin n) K :=
  (1 - (1 / y ⬝ᵥ s) • vecMulVec s y) * (H * (1 - ((1 / y ⬝ᵥ s) • vecMulVec s y)ᵀ)) +
    (1 / y ⬝ᵥ s) • vecMulVec s s

variable {H : Matrix (Fin n) (Fin n) K} {s y : Fin n → K}

/-- The transposed factor subtracts a multiple of `y`. -/
theorem factor_mulVec (rho : K) (v : Fin n → K) :
    (1 - (rho • vecMulVec s y)ᵀ) *ᵥ v = v - (rho * s ⬝ᵥ v) • y := by
  rw [sub_mulVec, one_mulVec, transpose_smul, transpose_vecMulVec, smul_mulVec, vecMulVec_mulVec,
    op_smul_eq_smul, smul_smul]

/-- The quadratic form of the updated matrix. -/
theorem dotProduct_corrected (v : Fin n → K) : v ⬝ᵥ corrected H s y *ᵥ v =
    (v - (1 / y ⬝ᵥ s * s ⬝ᵥ v) • y) ⬝ᵥ H *ᵥ (v - (1 / y ⬝ᵥ s * s ⬝ᵥ v) • y) +
      1 / y ⬝ᵥ s * (s ⬝ᵥ v) ^ 2 := by
  -- Both factors are one matrix and its transpose.
  have htranspose : 1 - (1 / y ⬝ᵥ s) • vecMulVec s y =
      (1 - ((1 / y ⬝ᵥ s) • vecMulVec s y)ᵀ)ᵀ := by simp
  have hfirst (A : Matrix (Fin n) (Fin n) K) :
      v ⬝ᵥ (Aᵀ * (H * A)) *ᵥ v = (A *ᵥ v) ⬝ᵥ H *ᵥ (A *ᵥ v) := by
    rw [← mulVec_mulVec, dotProduct_mulVec, vecMul_transpose, mulVec_mulVec]
  have hsecond : v ⬝ᵥ ((1 / y ⬝ᵥ s) • vecMulVec s s) *ᵥ v = 1 / y ⬝ᵥ s * (s ⬝ᵥ v) ^ 2 := by
    rw [smul_mulVec, vecMulVec_mulVec, op_smul_eq_smul, dotProduct_smul,
      dotProduct_smul, dotProduct_comm v s]
    simp only [smul_eq_mul]
    ring
  rw [corrected, add_mulVec, dotProduct_add, hsecond]
  nth_rewrite 1 [htranspose]
  rw [hfirst, factor_mulVec]

/-- The updated matrix is as symmetric as the one before. -/
theorem isSymm_corrected (h : H.IsSymm) : (corrected H s y).IsSymm := by
  unfold corrected Matrix.IsSymm
  rw [transpose_add, transpose_mul, transpose_mul, h.eq]
  simp [transpose_vecMulVec, mul_assoc]

variable [LinearOrder K]

/-- The matrix after a step `s` along which the gradient has changed by `y`. -/
def refined (H : Matrix (Fin n) (Fin n) K) (s y : Fin n → K) : Matrix (Fin n) (Fin n) K :=
  if 0 < y ⬝ᵥ s then corrected H s y else H

/-- The method computes the update. -/
theorem secantUpdate_ofVec [Roots K] [IsStrictOrderedRing K] (b : Backend)
    (H : Matrix (Fin n) (Fin n) K) (s y : Fin n → K) :
    secantUpdate (.ofMat b H) (.ofVec b s) (.ofVec b y) = (.ok (.finite (y ⬝ᵥ s),
      if 0 < y ⬝ᵥ s then some (.ofMat b (corrected H s y)) else none) :
        Except (Failure (Exact K)) _) := by
  unfold secantUpdate
  -- The matrix is corrected for positive curvature only, which is also what makes the division exact.
  by_cases hcurvature : 0 < y ⬝ᵥ s
  · have hrho := Exact.finite_div (1 : K) hcurvature.ne'
    simp [bind, Except.bind, hcurvature, hrho, pure, Except.pure, corrected]
  · simp [bind, Except.bind, hcurvature, pure, Except.pure]

/-- So does an iteration that has found a vector, from the step and the change of the gradient. -/
theorem revision_ofVec [Roots K] [IsStrictOrderedRing K] (b : Backend)
    (H : Matrix (Fin n) (Fin n) K) (x v x' v' : Fin n → K) :
    revision (.ofMat b H) (.ofVec b x) (.ofVec b v) (.ofVec b x') (.ofVec b v') =
      .ok (.finite ((v' - v) ⬝ᵥ (x' - x)), if 0 < (v' - v) ⬝ᵥ (x' - x) then
        some (.ofMat b (corrected H (x' - x) (v' - v))) else none) := by
  unfold revision
  rw [Backend.sub_ofVec, Backend.sub_ofVec, ← secantUpdate_ofVec]
  rfl

/-! ### Definite matrices -/

/-- Symmetric and positive definite. -/
structure Definite (H : Matrix (Fin n) (Fin n) K) : Prop where
  symm : H.IsSymm
  pos : ∀ v, v ≠ 0 → 0 < v ⬝ᵥ H *ᵥ v

variable [IsStrictOrderedRing K]

/-- The identity matrix. -/
theorem Definite.one : Definite (1 : Matrix (Fin n) (Fin n) K) where
  symm := Matrix.isSymm_one
  pos v hv := by
    rw [one_mulVec]
    have hzero : v ⬝ᵥ v ≠ 0 := fun h => hv (dotProduct_self_eq_zero.1 h)
    exact lt_of_le_of_ne (Finset.sum_nonneg fun i _ => mul_self_nonneg (v i)) hzero.symm

/-- **The update keeps a matrix symmetric and positive definite.** -/
theorem Definite.refined (h : Definite H) (s y : Fin n → K) :
    Definite (QuasiNewton.refined H s y) := by
  unfold QuasiNewton.refined
  split
  · next hcurvature =>
    have hrho : 0 < 1 / y ⬝ᵥ s := one_div_pos.2 hcurvature
    refine ⟨isSymm_corrected h.symm, fun v hv => ?_⟩
    rw [dotProduct_corrected]
    by_cases hzero : v - (1 / y ⬝ᵥ s * s ⬝ᵥ v) • y = 0
    · -- Then `s ⬝ᵥ v` is not zero, since `v` is a multiple of `y` by it.
      have hsv : s ⬝ᵥ v ≠ 0 := by
        intro hsv
        rw [hsv, mul_zero, zero_smul, sub_zero] at hzero
        exact hv hzero
      rw [hzero, zero_dotProduct, zero_add]
      positivity
    · have hpos := h.pos _ hzero
      positivity
  · exact h

/-- **The direction leads downhill**, unless the gradient is zero. -/
theorem Definite.descent (h : Definite H) (g : Fin n → K) :
    (g ≠ 0 → g ⬝ᵥ -(H *ᵥ g) < 0) ∧ (g = 0 → -(H *ᵥ g) = 0) := by
  constructor
  · intro hg
    rw [dotProduct_neg, neg_lt_zero]
    exact h.pos g hg
  · rintro rfl
    rw [mulVec_zero, neg_zero]

end Minimization.QuasiNewton
