import Minimization.Proofs.Dogleg.Boundary

namespace Minimization.Dogleg

open Minimization Matrix

/-!
# The model along the path

The path is there to make the quadratic model small.  Along its second leg the model never grows, so
a step to the boundary is worth at least what the end of the first leg is worth.

* `model` — the quadratic model of the cost, without the cost at the origin.
* `model_second_leg` — the model along the second leg, in terms of the leg alone.
* `model_cauchy`, `model_cauchy_neg` — its value at the end of the first leg.
* `path_decreases`, `ends_step_decreases` — that a step is worth at least as much.
-/

variable {K ω : Type} [Field K] [LinearOrder K] [IsStrictOrderedRing K] {n : Nat}
  {H : Matrix (Fin n) (Fin n) K} {g : Fin n → K}

/-- The quadratic model of the cost, without the cost at the origin. -/
def model (H : Matrix (Fin n) (Fin n) K) (g v : Fin n → K) : K :=
  g ⬝ᵥ v + v ⬝ᵥ H *ᵥ v / (2 : ℕ)

omit [LinearOrder K] [IsStrictOrderedRing K] in
theorem model_eq (H : Matrix (Fin n) (Fin n) K) (g v : Fin n → K) :
    model H g v = g ⬝ᵥ v + v ⬝ᵥ H *ᵥ v / 2 := by
  rw [model, Nat.cast_ofNat]

omit [LinearOrder K] [IsStrictOrderedRing K] in
/-- A symmetric form. -/
theorem dotProduct_mulVec_comm (hH : H.IsSymm) (u v : Fin n → K) : u ⬝ᵥ H *ᵥ v = v ⬝ᵥ H *ᵥ u := by
  rw [dotProduct_mulVec, ← mulVec_transpose, hH.eq, dotProduct_comm]

/-- The model along a line. -/
theorem model_along (hH : H.IsSymm) (u d : Fin n → K) (s : K) : model H g (u + s • d) =
    model H g u + s * (g + H *ᵥ u) ⬝ᵥ d + s ^ 2 / 2 * d ⬝ᵥ H *ᵥ d := by
  have hform : (u + s • d) ⬝ᵥ H *ᵥ (u + s • d) =
      u ⬝ᵥ H *ᵥ u + 2 * s * d ⬝ᵥ H *ᵥ u + s ^ 2 * d ⬝ᵥ H *ᵥ d := by
    rw [mulVec_add, mulVec_smul, add_dotProduct, dotProduct_add, dotProduct_add, smul_dotProduct,
      smul_dotProduct, dotProduct_smul, dotProduct_smul, dotProduct_mulVec_comm hH u d]
    simp only [smul_eq_mul]
    ring
  rw [model_eq, model_eq, hform, dotProduct_add, dotProduct_smul, add_dotProduct,
    dotProduct_comm (H *ᵥ u) d, smul_eq_mul]
  ring

omit [LinearOrder K] [IsStrictOrderedRing K] in
/-- The Newton step solves the equation of the critical point. -/
theorem mulVec_newton (hH : IsUnit H.det) : H *ᵥ newton H g = -g := by
  rw [newton, mulVec_neg, mulVec_mulVec, Matrix.mul_nonsing_inv _ hH, one_mulVec]

/-- **The model along a leg to the Newton step**: the slope at its start is the curvature along it,
    downwards. -/
theorem model_second_leg (hH : H.IsSymm) (hdet : IsUnit H.det) (u : Fin n → K) (s : K) :
    model H g (u + s • (newton H g - u)) = model H g u -
      s * (1 - s / 2) * (newton H g - u) ⬝ᵥ H *ᵥ (newton H g - u) := by
  have hslope : (g + H *ᵥ u) ⬝ᵥ (newton H g - u) =
      -((newton H g - u) ⬝ᵥ H *ᵥ (newton H g - u)) := by
    have hcritical : g + H *ᵥ u = -(H *ᵥ (newton H g - u)) := by
      rw [mulVec_sub, mulVec_newton hdet]
      abel
    rw [hcritical, neg_dotProduct, dotProduct_comm]
  rw [model_along hH, hslope]
  ring

/-- No point of the leg is worth less than its start. -/
theorem model_second_leg_le (hH : QuasiNewton.Definite H) (u : Fin n → K) {s : K} (h₀ : 0 ≤ s)
    (h₁ : s ≤ 1) : model H g (u + s • (newton H g - u)) ≤ model H g u := by
  have hcurvature : 0 ≤ (newton H g - u) ⬝ᵥ H *ᵥ (newton H g - u) := by
    by_cases hzero : newton H g - u = 0
    · rw [hzero, zero_dotProduct]
    · exact (hH.pos _ hzero).le
  have hfactor : 0 ≤ s * (1 - s / 2) := mul_nonneg h₀ (by linarith)
  rw [model_second_leg hH.symm (isUnit_det hH)]
  linarith [mul_nonneg hfactor hcurvature]

/-- The model at the end of the first leg. -/
theorem model_cauchy (hcurvature : g ⬝ᵥ H *ᵥ g ≠ 0) :
    model H g (cauchy H g) = -(g ⬝ᵥ g) ^ 2 / (2 * g ⬝ᵥ H *ᵥ g) := by
  rw [model_eq, cauchy, mulVec_smul, dotProduct_smul, dotProduct_smul, smul_dotProduct]
  simp only [smul_eq_mul]
  field_simp
  ring

/-- It is below the model at the origin. -/
theorem model_cauchy_neg (hH : QuasiNewton.Definite H) (hg : g ≠ 0) :
    model H g (cauchy H g) < 0 := by
  have hcurvature := hH.pos g hg
  have hsquare : g ⬝ᵥ g ≠ 0 := fun hzero => hg (dotProduct_self_eq_zero.1 hzero)
  rw [model_cauchy hcurvature.ne', neg_div, neg_lt_zero]
  positivity

variable [Roots K] {b : Backend} {rho : K}

/-- **A step is worth at least the end of the first leg** if the region contains that. -/
theorem path_decreases [SquareRoots K] (b : Backend) (hH : QuasiNewton.Definite H) (hg : g ≠ 0)
    (hrho : 0 ≤ rho) (hin : cauchy H g ⬝ᵥ cauchy H g ≤ rho * rho) :
    ∃ v tau, path b ⟨.finite rho⟩ (.ofVec b g) (.ofMat b H) = .ok (reached (.ofVec b v) tau) ∧
      model H g v ≤ model H g (cauchy H g) := by
  obtain ⟨hinside, hcrossing⟩ :=
    path_of_cauchy_inside b (isUnit_det hH) (hH.pos g hg).ne' hrho hin
  by_cases hnewton : newton H g ⬝ᵥ newton H g ≤ rho * rho
  · -- The Newton step is the end of the second leg.
    refine ⟨_, _, hinside hnewton, ?_⟩
    have hend := model_second_leg_le (g := g) hH (cauchy H g) zero_le_one le_rfl
    rwa [one_smul, add_sub_cancel] at hend
  · obtain ⟨tau, h₁, h₂, hpath, -⟩ := hcrossing hnewton
    refine ⟨_, _, hpath, ?_⟩
    rw [pathPoint, if_neg (not_lt.2 h₁)]
    exact model_second_leg_le hH _ (by linarith) (by linarith)

/-- The same of the method, with gradient and Hessian known or evaluated. -/
theorem ends_step_decreases [SquareRoots K] {A : Setting ω (Exact K)} {session : Session ω}
    {p : Progress (Exact K)} (hp : p.param.backend = b) (hH : QuasiNewton.Definite H) (hg : g ≠ 0)
    (hrho : 0 ≤ rho) (hin : cauchy H g ⬝ᵥ cauchy H g ≤ rho * rho)
    (hgradient : ∀ session, (Session.knownGradient A p).Ends session (fun v _ => v = .ofVec b g)
      fun _ => False)
    (hhessian : ∀ session, (Session.knownHessian A p).Ends session (fun m _ => m = .ofMat b H)
      fun _ => False) :
    (solver.step A p).Ends ⟨⟨.finite rho⟩, session⟩
      (fun report _ => ∃ v tau, report = reached (.ofVec b v) tau ∧
        model H g v ≤ model H g (cauchy H g)) fun _ => False := by
  obtain ⟨v, tau, hpath, hle⟩ := path_decreases b hH hg hrho hin
  refine ends_step (Exact.isNaN_finite _) hp hgradient hhessian fun s => ?_
  rw [hpath]
  exact ⟨v, tau, rfl, hle⟩

end Minimization.Dogleg
