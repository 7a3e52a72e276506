import Mathlib.Tactic.LinearCombination
import Minimization.Proofs.Contract.Ends
import Minimization.Proofs.Dogleg.Parameter
import Minimization.Proofs.LineSearch.Start
import Minimization.Proofs.QuasiNewton.Update
import Minimization.Proofs.Tensor.Elimination

namespace Minimization.Dogleg

open Minimization Matrix

/-!
# The path through vectors

* `cauchy`, `newton` — the ends of the two legs, as vectors over the field.
* `path_of_inside`, `path_of_parameter`, `path_of_off` — the three ways in which the computation of
  a step ends: with the Newton step, with a point of the path, or with a refusal.
* `dotProduct_cauchy_newton` — for a definite matrix the second leg leads away from the origin.
-/

/-- The step is computed from gradient and Hessian, known or evaluated. -/
theorem ends_step {ω α : Type} [Scalar α] {A : Setting ω α} {p : Progress α} {s : Dogleg α}
    {session : Session ω} {b : Backend} {g h : Tensor α}
    {Q : Report α → Workspace (Dogleg α) ω → Prop} {E : Failure α → Prop}
    (hradius : Scalar.isNaN s.radius = false) (hp : p.param.backend = b)
    (hgradient : ∀ session, (Session.knownGradient A p).Ends session (fun v _ => v = g)
      fun _ => False)
    (hhessian : ∀ session, (Session.knownHessian A p).Ends session (fun m _ => m = h)
      fun _ => False)
    (hpath : ∀ session, (Action.ofExcept (path b s g h) : Action (Workspace (Dogleg α) ω) α _).Ends
      ⟨s, session⟩ Q E) : (solver.step A p).Ends ⟨s, session⟩ Q E := by
  refine ends_step_iff.2 ?_
  rw [if_neg (by rw [hradius]; exact Bool.false_ne_true)]
  -- Each of the two comes from wherever it is known, in the session that is left by then.
  refine ((hgradient session).expecting fun _ h => h.elim).mono ?_
  rintro _ t rfl
  refine ((hhessian t).expecting fun _ h => h.elim).mono ?_
  rintro _ t' rfl
  have hend := hpath t'
  rwa [Workspace.ends_ofExcept, ← hp] at hend

variable {K : Type} [Field K] {n : Nat}

/-- The end of the first leg, where the model is least along the negative gradient. -/
def cauchy (H : Matrix (Fin n) (Fin n) K) (g : Fin n → K) : Fin n → K :=
  (-(g ⬝ᵥ g) / (g ⬝ᵥ H *ᵥ g)) • g

/-- The end of the second leg, where the model is least. -/
noncomputable def newton (H : Matrix (Fin n) (Fin n) K) (g : Fin n → K) : Fin n → K :=
  -(H⁻¹ *ᵥ g)

/-- The Newton step from a solution of its equation. -/
theorem newton_eq {H : Matrix (Fin n) (Fin n) K} {g x : Fin n → K} (hH : IsUnit H.det)
    (hx : H *ᵥ x = g) : newton H g = -x := by
  rw [newton, ← hx, mulVec_mulVec, Matrix.nonsing_inv_mul _ hH, one_mulVec]

variable [LinearOrder K]

/-- The point at a parameter of the path. -/
def pathPoint (u v : Fin n → K) (tau : K) : Fin n → K :=
  if tau < 1 then tau • u else u + (tau - 1) • (v - u)

variable [IsStrictOrderedRing K] [Roots K] {H : Matrix (Fin n) (Fin n) K} {g : Fin n → K}
  {b : Backend} {rho : K}

/-! ### The three outcomes -/

/-- Whether a vector is inside the region, from its length. -/
theorem norm_ofVec_le [SquareRoots K] (hrho : 0 ≤ rho) (v : Fin n → K) : ∃ length,
    b.norm (.ofVec b v) = (.ok length : Except (Failure (Exact K)) _) ∧
      (Scalar.le length (.finite rho) = true ↔ v ⬝ᵥ v ≤ rho * rho) := by
  have hnonneg : 0 ≤ v ⬝ᵥ v := Finset.sum_nonneg fun i _ => mul_self_nonneg (v i)
  obtain ⟨q, hq, hsquare, hroot⟩ := Exact.sqrt_finite hnonneg
  refine ⟨.finite q, ?_, ?_⟩
  · rw [Backend.norm_ofVec]
    exact congrArg Except.ok hroot
  · rw [Exact.le_finite, ← hsquare]
    exact (mul_self_le_mul_self_iff hq hrho)

/-- The Newton step is computed. -/
theorem newton_ofVec (hH : IsUnit H.det) :
    b.inv (.ofMat b H) = (.ok (.ofMat b H⁻¹) : Except (Failure (Exact K)) _) ∧
      Backend.apply (.ofMat b H⁻¹) (.ofVec b g) =
        (.ok (.ofVec b (H⁻¹ *ᵥ g)) : Except (Failure (Exact K)) _) ∧
      b.scale (.ofVec b (H⁻¹ *ᵥ g)) (-1.0) = Tensor.ofVec b (newton H g) := by
  refine ⟨Backend.inv_ofMat b hH, Backend.apply_ofVec .., ?_⟩
  rw [Exact.lit_one, Exact.finite_neg, Backend.scale_ofVec, neg_one_smul, newton]

/-- The step if the Newton step lies inside the region. -/
theorem path_of_inside [SquareRoots K] (hH : IsUnit H.det) (hrho : 0 ≤ rho)
    (hin : newton H g ⬝ᵥ newton H g ≤ rho * rho) :
    path b ⟨.finite rho⟩ (.ofVec b g) (.ofMat b H) =
      .ok (reached (.ofVec b (newton H g)) (2.0 : Exact K)) := by
  obtain ⟨hinv, happly, hscale⟩ := newton_ofVec (b := b) (g := g) hH
  obtain ⟨length, hlength, hle⟩ := norm_ofVec_le (b := b) hrho (newton H g)
  simp only [path, hinv, happly, hscale, hlength, bind, Except.bind, hle.2 hin, if_true]
  rfl

/-- The report for a parameter of the path from the origin over `u` to `v`, or the refusal. -/
def select (b : Backend) (u v : Fin n → K) (tau : Exact K) :
    Except (Failure (Exact K)) (Report (Exact K)) :=
  if Scalar.le 0.0 tau && Scalar.lt tau 1.0 then
    return reached (b.scale (.ofVec b u) tau) tau
  else if Scalar.le 1.0 tau && Scalar.le tau 2.0 then do
    let step ← b.scaledAdd (.ofVec b u) (tau - 1.0) (.ofVec b (v - u))
    return reached step tau
  else throw (.impossible (.pathParameter tau))

/-- Otherwise the parameter decides. -/
theorem path_of_outside [SquareRoots K] (hH : IsUnit H.det) (hcurvature : g ⬝ᵥ H *ᵥ g ≠ 0)
    (hrho : 0 ≤ rho) (hout : rho * rho < newton H g ⬝ᵥ newton H g) :
    path b ⟨.finite rho⟩ (.ofVec b g) (.ofMat b H) =
      select b (cauchy H g) (newton H g) (parameter (cauchy H g) (newton H g) (rho * rho)) := by
  obtain ⟨hinv, happly, hscale⟩ := newton_ofVec (b := b) (g := g) hH
  obtain ⟨length, hlength, hle⟩ := norm_ofVec_le (b := b) hrho (newton H g)
  have hlonger : Scalar.le length (.finite rho) = false :=
    Bool.eq_false_iff.2 (mt hle.1 (not_le.2 hout))
  have hfirst : b.scale (.ofVec b g) (-.finite (g ⬝ᵥ g) / .finite (g ⬝ᵥ H *ᵥ g)) =
      Tensor.ofVec b (cauchy H g) := by
    rw [Exact.finite_neg, Exact.finite_div _ hcurvature, Backend.scale_ofVec, cauchy]
  have hsquared : (squaredRadius ⟨.finite rho⟩ : Except (Failure (Exact K)) _) =
      .ok (.finite (rho * rho)) := by
    have hsquare : Scalar.square (.finite rho : Exact K) = .finite (rho * rho) := rfl
    simp [squaredRadius, Scalar.square?, hsquare]
  -- No operation on finite numbers fails, so only the parameter is left to decide.
  simp only [path, hinv, happly, hscale, hlength, bind, Except.bind, hlonger, Bool.false_eq_true,
    if_false, Backend.dot_ofVec, Backend.weightedDot_ofVec, hfirst, hsquared, Backend.sub_ofVec]
  rfl

/-- A parameter between zero and two is that of a point of the path. -/
theorem select_of_mem (b : Backend) (u v : Fin n → K) {tau : K} (h₀ : 0 ≤ tau) (h₂ : tau ≤ 2) :
    select b u v (.finite tau) = .ok (reached (.ofVec b (pathPoint u v tau)) (.finite tau)) := by
  unfold select pathPoint
  by_cases hlt : tau < 1
  · simp [h₀, hlt, pure, Except.pure]
  · simp [h₀, hlt, not_lt.1 hlt, h₂, pure, Except.pure, bind, Except.bind]

omit [Roots K] in
/-- The path ends at the end of its second leg. -/
theorem pathPoint_two (u v : Fin n → K) : pathPoint u v 2 = v := by
  have htwo : ¬(2 : K) < 1 := not_lt.2 one_le_two
  have hone : (2 - 1 : K) = 1 := by norm_num
  rw [pathPoint, if_neg htwo, hone, one_smul, add_sub_cancel]

/-- Any other parameter is refused. -/
theorem select_of_not_mem (b : Backend) (u v : Fin n → K) {tau : Exact K}
    (h : ∀ t, tau = .finite t → ¬(0 ≤ t ∧ t ≤ 2)) :
    select b u v tau = .error (.impossible (.pathParameter tau)) := by
  unfold select
  cases tau with
  | notANumber => rfl
  | infinite negative => cases negative <;> rfl
  | finite t =>
    have hout := h t rfl
    have hfirst : ¬(0 ≤ t ∧ t < 1) := fun ⟨h₀, h₁⟩ => hout ⟨h₀, by linarith⟩
    have hsecond : ¬(1 ≤ t ∧ t ≤ 2) := fun ⟨h₁, h₂⟩ => hout ⟨by linarith, h₂⟩
    simp only [Exact.lit_zero, Exact.lit_one, Exact.lit_two, Bool.and_eq_true, Exact.le_finite,
      Exact.lt_finite, hfirst, hsecond, if_false]
    rfl

/-! ### Definite matrices -/

omit [IsStrictOrderedRing K] [Roots K] in
/-- A definite matrix is invertible. -/
theorem isUnit_det (hH : QuasiNewton.Definite H) : IsUnit H.det := by
  rw [← Matrix.isUnit_iff_isUnit_det, ← Matrix.mulVec_injective_iff_isUnit]
  refine (injective_iff_map_eq_zero (Matrix.mulVecLin H)).2 fun v hv => ?_
  by_contra hne
  have hpos := hH.pos v hne
  have hzero : H *ᵥ v = 0 := hv
  rw [hzero, dotProduct_zero] at hpos
  exact lt_irrefl 0 hpos

omit [Roots K] in
/-- **The second leg leads away from the origin.**  With `h = H⁻¹ g` and the coefficient `t` of the
    first leg, the inner product is `t (h - t g)ᵀ H (h - t g)`. -/
theorem dotProduct_cauchy_newton (hH : QuasiNewton.Definite H) (g : Fin n → K) :
    0 ≤ cauchy H g ⬝ᵥ (newton H g - cauchy H g) := by
  by_cases hg : g = 0
  · simp [hg, cauchy]
  have hcurvature := hH.pos g hg
  have hsquare : 0 < g ⬝ᵥ g := lt_of_le_of_ne (Finset.sum_nonneg fun i _ => mul_self_nonneg (g i))
    fun h => hg (dotProduct_self_eq_zero.1 h.symm)
  obtain ⟨t, ht⟩ : ∃ t, t = g ⬝ᵥ g / g ⬝ᵥ H *ᵥ g := ⟨_, rfl⟩
  have hpos : 0 < t := ht ▸ div_pos hsquare hcurvature
  have hcauchy : cauchy H g = -(t • g) := by rw [cauchy, neg_div, ← ht, neg_smul]
  -- The Newton step solves the equation of the model's critical point.
  obtain ⟨h, hh⟩ : ∃ h, h = H⁻¹ *ᵥ g := ⟨_, rfl⟩
  have hsolves : H *ᵥ h = g := by
    rw [hh, mulVec_mulVec, Matrix.mul_nonsing_inv _ (isUnit_det hH), one_mulVec]
  have hsymm : h ⬝ᵥ H *ᵥ g = g ⬝ᵥ g := by
    rw [dotProduct_mulVec, ← mulVec_transpose, hH.symm.eq, hsolves]
  have hleast : t * g ⬝ᵥ H *ᵥ g = g ⬝ᵥ g := by rw [ht, div_mul_cancel₀ _ hcurvature.ne']
  have hform : (h - t • g) ⬝ᵥ H *ᵥ (h - t • g) = h ⬝ᵥ g - t * g ⬝ᵥ g := by
    rw [mulVec_sub, mulVec_smul, hsolves, sub_dotProduct, dotProduct_sub, dotProduct_sub,
      dotProduct_smul, dotProduct_smul, smul_dotProduct, smul_dotProduct, hsymm]
    simp only [smul_eq_mul]
    linear_combination t * hleast
  have hnonneg : 0 ≤ (h - t • g) ⬝ᵥ H *ᵥ (h - t • g) := by
    by_cases hzero : h - t • g = 0
    · rw [hzero, zero_dotProduct]
    · exact (hH.pos _ hzero).le
  have hproduct : cauchy H g ⬝ᵥ (newton H g - cauchy H g) = t * (h ⬝ᵥ g - t * g ⬝ᵥ g) := by
    rw [hcauchy, newton, ← hh, neg_dotProduct, smul_dotProduct, dotProduct_sub, dotProduct_neg,
      dotProduct_neg, dotProduct_smul, dotProduct_comm g h]
    simp only [smul_eq_mul]
    ring
  rw [hproduct, ← hform]
  positivity

end Minimization.Dogleg
