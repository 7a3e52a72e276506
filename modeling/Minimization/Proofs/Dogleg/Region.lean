import Minimization.Problem.Sphere
import Minimization.Proofs.Dogleg.Path

namespace Minimization.Dogleg

open Minimization Matrix

/-!
# Which steps the dogleg method finds

For a definite matrix and a gradient that is not zero, the method finds a step whenever the region
contains the end of the first leg.  In a smaller region the parameter is still that of the second
leg, beyond its ends, and need not lie on the path.

* `Crosses` — when the parameter of the second leg lies on the path.
* `root_mem_iff`, `quotient_mem_iff` — where either formula for the parameter lies on the path;
  `parameter_mem_iff` — that `Crosses` says so.
* `step_returns_iff` — when the method returns a step, and that it calls the data corrupted
  otherwise.
-/

variable {K ω : Type} [Field K] [LinearOrder K] [IsStrictOrderedRing K] {n : Nat}

/-- The line through the second leg, which is not a point, meets the boundary no earlier than one
    length of the leg before `u`; or it misses the boundary, and the closed form is not negative. -/
def Crosses (u v : Fin n → K) (δ : K) : Prop :=
  u ≠ v ∧
    (0 ≤ discriminant u v δ ∧
        (u ⬝ᵥ (v - u) ≤ (v - u) ⬝ᵥ (v - u) ∨ (u - (v - u)) ⬝ᵥ (u - (v - u)) ≤ δ) ∨
      discriminant u v δ < 0 ∧ 2 * u ⬝ᵥ u ≤ δ + v ⬝ᵥ v)

variable {u v : Fin n → K} {δ : K}

omit [LinearOrder K] [IsStrictOrderedRing K] in
/-- The squared lengths of the point one leg after `u` and of the point one leg before it. -/
theorem dotProduct_around (u v : Fin n → K) :
    v ⬝ᵥ v = u ⬝ᵥ u + 2 * u ⬝ᵥ (v - u) + (v - u) ⬝ᵥ (v - u) ∧
      (u - (v - u)) ⬝ᵥ (u - (v - u)) =
        u ⬝ᵥ u - 2 * u ⬝ᵥ (v - u) + (v - u) ⬝ᵥ (v - u) := by
  obtain ⟨hu, hleg⟩ := dotProduct_leg u v
  constructor
  · rw [hu, hleg]
    ring
  · rw [sub_dotProduct, dotProduct_sub u, dotProduct_sub (v - u) u, dotProduct_comm (v - u) u]
    ring

/-- A square root is at least a number if that number is not positive, or its square not larger. -/
theorem le_root_iff {q x d : K} (hq : 0 ≤ q) (hsquare : q * q = d) :
    x ≤ q ↔ x ≤ 0 ∨ x * x ≤ d := by
  rw [← hsquare]
  constructor
  · intro hle
    by_cases hx : x ≤ 0
    · exact .inl hx
    · exact .inr (mul_self_le_mul_self (not_le.1 hx).le hle)
  · rintro (hx | hle)
    · exact hx.trans hq
    · by_contra hlt
      exact absurd hle (not_le.2 (mul_self_lt_mul_self hq (not_le.1 hlt)))

/-- Where the larger root `(q - a) / w` of the quadratic, shifted by one, lies between zero and two:
    not beyond the end of the leg, because the end is outside, and not too far before its start. -/
theorem root_mem_iff {w a U q : K} (hw : 0 < w) (ha : 0 ≤ a) (hq : 0 ≤ q)
    (hsquare : q * q = a ^ 2 - w * (U - δ)) (hout : δ < U + 2 * a + w) :
    0 ≤ 1 + (q - a) / w ∧ 1 + (q - a) / w ≤ 2 ↔ a ≤ w ∨ U - 2 * a + w ≤ δ := by
  -- With a root beyond the end of the leg the end would be inside.
  have hupper : 1 + (q - a) / w ≤ 2 := by
    have hle : q ≤ w + a := by
      by_contra hlt
      have hgreater := mul_self_lt_mul_self (by linarith : 0 ≤ w + a) (not_le.1 hlt)
      nlinarith
    have hquotient : (q - a) / w ≤ 1 := by
      rw [div_le_one hw]
      linarith
    linarith
  have hroot : 0 ≤ 1 + (q - a) / w ↔ a - w ≤ q := by
    rw [one_add_div hw.ne', le_div_iff₀ hw, zero_mul, ← add_sub_assoc, sub_nonneg,
      sub_le_iff_le_add']
  -- The point one leg before the start of the leg, of squared length `U - 2 * a + w`, is inside.
  have hsquares : (a - w) * (a - w) ≤ a ^ 2 - w * (U - δ) ↔ U - 2 * a + w ≤ δ := by
    have hdifference : a ^ 2 - w * (U - δ) - (a - w) * (a - w) =
        w * (δ - (U - 2 * a + w)) := by ring
    rw [← sub_nonneg, hdifference, mul_nonneg_iff_of_pos_left hw, sub_nonneg]
  rw [and_iff_left hupper, hroot, le_root_iff hq hsquare, sub_nonpos, hsquares]

/-- Where the closed form lies between zero and two, for squared lengths `U` and `V`. -/
theorem quotient_mem_iff {U V : K} (hlt : U < V) (hout : δ < V) :
    0 ≤ (δ + V - 2 * U) / (V - U) ∧ (δ + V - 2 * U) / (V - U) ≤ 2 ↔ 2 * U ≤ δ + V := by
  have hdiff := sub_pos.2 hlt
  have hupper : (δ + V - 2 * U) / (V - U) ≤ 2 := by
    rw [div_le_iff₀ hdiff]
    linarith
  rw [and_iff_left hupper, le_div_iff₀ hdiff, zero_mul, sub_nonneg]

variable [Roots K]

/-- **The parameter lies on the path** exactly if the second leg crosses the boundary. -/
theorem parameter_mem_iff [SquareRoots K] (hdown : 0 ≤ u ⬝ᵥ (v - u)) (hout : δ < v ⬝ᵥ v) :
    (∃ tau, parameter u v δ = .finite tau ∧ 0 ≤ tau ∧ tau ≤ 2) ↔ Crosses u v δ := by
  obtain ⟨hafter, hbefore⟩ := dotProduct_around u v
  have hfinite {x : K} (hx : parameter u v δ = .finite x) :
      (∃ tau, parameter u v δ = .finite tau ∧ 0 ≤ tau ∧ tau ≤ 2) ↔ 0 ≤ x ∧ x ≤ 2 := by
    rw [hx]
    constructor
    · rintro ⟨tau, htau, hmem⟩
      obtain rfl := Exact.finite.inj htau
      exact hmem
    · exact fun hmem => ⟨x, rfl, hmem⟩
  by_cases hne : u = v
  · -- A leg of length zero has no parameter.
    subst hne
    rw [parameter_self hout]
    simp [Crosses]
  by_cases hD : 0 ≤ discriminant u v δ
  · obtain ⟨q, hq, hsquare, hparameter⟩ := parameter_of_nonneg hne hD
    have hcrosses : Crosses u v δ ↔ u ⬝ᵥ (v - u) ≤ (v - u) ⬝ᵥ (v - u) ∨
        (u - (v - u)) ⬝ᵥ (u - (v - u)) ≤ δ := by
      simp [Crosses, hne, hD, not_lt.2 hD]
    rw [hfinite hparameter, hcrosses, hbefore]
    exact root_mem_iff (leg_pos hne) hdown hq hsquare (hout.trans_eq hafter)
  · -- The path leads away from the origin, so the second leg ends farther out than the first.
    rw [not_le] at hD
    have hpos := leg_pos hne
    have hlt : u ⬝ᵥ u < v ⬝ᵥ v := by linarith
    have hcrosses : Crosses u v δ ↔ 2 * u ⬝ᵥ u ≤ δ + v ⬝ᵥ v := by
      simp [Crosses, hne, hD, not_le.2 hD]
    rw [hfinite (parameter_of_neg hlt hD), hcrosses]
    exact quotient_mem_iff hlt hout

/-! ### A step -/

variable {H : Matrix (Fin n) (Fin n) K} {g : Fin n → K} {rho : K}

/-- The method finds a step: the Newton step lies inside the region, or the second leg crosses its
    boundary. -/
def Finds (H : Matrix (Fin n) (Fin n) K) (g : Fin n → K) (rho : K) : Prop :=
  newton H g ⬝ᵥ newton H g ≤ rho * rho ∨ Crosses (cauchy H g) (newton H g) (rho * rho)

omit [Roots K] in
/-- A region that contains the end of the first leg is large enough. -/
theorem finds_of_cauchy_inside (hin : cauchy H g ⬝ᵥ cauchy H g ≤ rho * rho) : Finds H g rho := by
  unfold Finds
  generalize cauchy H g = u at hin ⊢
  generalize newton H g = v
  by_cases hout : v ⬝ᵥ v ≤ rho * rho
  · exact .inl hout
  have hne : u ≠ v := by
    rintro rfl
    exact hout hin
  have hpos := leg_pos hne
  refine .inr ⟨hne, .inl ⟨?_, ?_⟩⟩
  · rw [discriminant]
    have hinside := mul_nonneg hpos.le (sub_nonneg.2 hin)
    nlinarith
  · -- One leg before an end inside the region, the boundary has not been met.
    rw [(dotProduct_around u v).2]
    by_cases hshort : u ⬝ᵥ (v - u) ≤ (v - u) ⬝ᵥ (v - u)
    · exact .inl hshort
    · exact .inr (by linarith)

/-- What the computation of a step ends in. -/
theorem path_cases [SquareRoots K] (b : Backend) (hH : QuasiNewton.Definite H) (hg : g ≠ 0)
    (hrho : 0 < rho) :
    (Finds H g rho → ∃ tau, path b ⟨.finite rho⟩ (.ofVec b g) (.ofMat b H) =
      .ok (reached (.ofVec b (pathPoint (cauchy H g) (newton H g) tau)) (.finite tau)) ∧
        0 ≤ tau ∧ tau ≤ 2) ∧
    (¬Finds H g rho → ∃ tau, path b ⟨.finite rho⟩ (.ofVec b g) (.ofMat b H) =
      .error (.impossible (.pathParameter tau)) ∧ ∀ t, tau = .finite t → ¬(0 ≤ t ∧ t ≤ 2)) := by
  have hunit := isUnit_det hH
  have hcurvature : g ⬝ᵥ H *ᵥ g ≠ 0 := (hH.pos g hg).ne'
  by_cases hin : newton H g ⬝ᵥ newton H g ≤ rho * rho
  · refine ⟨fun _ => ⟨2, ?_, zero_le_two, le_refl 2⟩, fun h => absurd (.inl hin) h⟩
    rw [path_of_inside hunit hrho.le hin, Exact.lit_two, pathPoint_two]
  · -- Outside the parameter of the second leg decides.
    rw [path_of_outside hunit hcurvature hrho.le (not_le.1 hin)]
    have hmem := parameter_mem_iff (dotProduct_cauchy_newton hH g) (not_le.1 hin)
    have hfinds : Finds H g rho ↔ Crosses (cauchy H g) (newton H g) (rho * rho) := by
      simp [Finds, hin]
    rw [hfinds, ← hmem]
    constructor
    · rintro ⟨tau, htau, h₀, h₂⟩
      exact ⟨tau, by rw [htau]; exact select_of_mem b _ _ h₀ h₂, h₀, h₂⟩
    · intro hnot
      have hrefused (t : K) (ht : parameter (cauchy H g) (newton H g) (rho * rho) = .finite t) :
          ¬(0 ≤ t ∧ t ≤ 2) := fun ⟨h₀, h₂⟩ => hnot ⟨t, ht, h₀, h₂⟩
      exact ⟨_, select_of_not_mem b _ _ hrefused, hrefused⟩

/-- **When the dogleg method finds a step.**  For a symmetric positive definite Hessian and a
    gradient that is not zero, known or evaluated, a step is returned whose parameter lies between
    zero and two, exactly if the Newton step lies inside the region or the second leg crosses the
    boundary; a region that contains the end of the first leg is large enough.  In all other cases
    the data are called corrupted. -/
theorem step_returns_iff [SquareRoots K] (A : Setting ω (Exact K)) (session : Session ω) (b : Backend)
    {p : Progress (Exact K)} (hp : p.param.backend = b) (hH : QuasiNewton.Definite H) (hg : g ≠ 0)
    (hrho : 0 < rho)
    (hgradient : ∀ session, (Session.knownGradient A p).Ends session (fun v _ => v = .ofVec b g)
      fun _ => False)
    (hhessian : ∀ session, (Session.knownHessian A p).Ends session (fun m _ => m = .ofMat b H)
      fun _ => False) :
    (Finds H g rho → (solver.step A p).Ends ⟨⟨.finite rho⟩, session⟩
      (fun report w => w.solver = ⟨.finite rho⟩ ∧ ∃ tau,
        report = reached (.ofVec b (pathPoint (cauchy H g) (newton H g) tau)) (.finite tau) ∧
          0 ≤ tau ∧ tau ≤ 2) fun _ => False) ∧
    (¬Finds H g rho → (solver.step A p).Ends ⟨⟨.finite rho⟩, session⟩ (fun _ _ => False)
      fun e => ∃ tau, e = .impossible (.pathParameter tau) ∧
        ∀ t, tau = .finite t → ¬(0 ≤ t ∧ t ≤ 2)) ∧
    (cauchy H g ⬝ᵥ cauchy H g ≤ rho * rho → Finds H g rho) := by
  obtain ⟨hfinds, hrefuses⟩ := path_cases b hH hg hrho
  refine ⟨fun h => ends_step (Exact.isNaN_finite _) hp hgradient hhessian fun s => ?_,
    fun h => ends_step (Exact.isNaN_finite _) hp hgradient hhessian fun s => ?_,
    finds_of_cauchy_inside⟩
  -- The path has a parameter, and the report is the point there.
  · obtain ⟨tau, hpath, h₀, h₂⟩ := hfinds h
    rw [hpath]
    exact ⟨rfl, tau, rfl, h₀, h₂⟩
  · obtain ⟨tau, hpath, hout⟩ := hrefuses h
    rw [hpath]
    exact ⟨tau, rfl, hout⟩

/-! ### One dimension -/

section Line

/-- The second derivative of `x ^ 2`. -/
def twice : Matrix (Fin 1) (Fin 1) ℝ := !![2]

/-- Its slope at one. -/
def slope : Fin 1 → ℝ := ![2]

/-- The second derivative is positive. -/
theorem definite_twice : QuasiNewton.Definite twice := by
  refine ⟨by ext i j; fin_cases i; fin_cases j; rfl, fun v hv => ?_⟩
  have hne : v 0 ≠ 0 := fun h => hv (funext fun i => by fin_cases i; exact h)
  have hform : v ⬝ᵥ twice *ᵥ v = 2 * (v 0 * v 0) := by
    simp [twice, dotProduct, mulVec]
    ring
  rw [hform]
  have hpos := mul_self_pos.2 hne
  positivity

/-- The slope is not zero. -/
theorem slope_ne_zero : slope ≠ 0 := fun h => by
  have hzero := congrFun h 0
  simp [slope] at hzero

/-- In one dimension both legs end in one point. -/
theorem legs_twice : cauchy twice slope = ![-1] ∧ newton twice slope = ![-1] := by
  constructor
  · ext i
    fin_cases i
    simp [cauchy, twice, slope, dotProduct, mulVec]
    norm_num
  · have hsolves : twice *ᵥ ![1] = slope := by
      ext i
      fin_cases i
      simp [twice, slope, mulVec, dotProduct]
    rw [newton_eq (isUnit_det definite_twice) hsolves]
    ext i
    fin_cases i
    rfl

/-- Gradient and Hessian are known. -/
noncomputable def knownSlope : Progress (Exact ℝ) :=
  Run.seeded (.ofVec .array ![1]) 1 none (some (.ofVec .array slope)) (some (.ofMat .array twice))

/-- Inside half the Cauchy step no step is found. -/
theorem not_finds_half : ¬Finds twice slope (1 / 2) := by
  obtain ⟨hcauchy, hnewton⟩ := legs_twice
  rw [Finds, hcauchy, hnewton]
  rintro (hin | hcrosses)
  · simp [dotProduct] at hin
    norm_num at hin
  · exact hcrosses.1 rfl

/-- For `x ^ 2` at one, a radius of one half is refused and a radius of one is not. -/
theorem step_returns_iff_line :
    QuasiNewton.Definite twice ∧ slope ≠ 0 ∧ (0 : ℝ) < 1 / 2 ∧
    ((solver.step ⟨sphereOperator, true⟩ knownSlope).Ends ⟨⟨.finite (1 / 2)⟩, .start ()⟩
      (fun _ _ => False) fun e => ∃ tau : Exact ℝ, e = .impossible (.pathParameter tau) ∧
        ∀ t, tau = .finite t → ¬(0 ≤ t ∧ t ≤ 2)) ∧
    (solver.step ⟨sphereOperator, true⟩ knownSlope).Ends ⟨⟨.finite 1⟩, .start ()⟩
      (fun report w => w.solver = ⟨.finite 1⟩ ∧ ∃ tau : ℝ,
        report = reached (.ofVec .array (pathPoint (cauchy twice slope) (newton twice slope) tau))
          (.finite tau) ∧ 0 ≤ tau ∧ tau ≤ 2) fun _ => False := by
  have hgradient (s : Session Unit) : (Session.knownGradient ⟨sphereOperator, true⟩
      knownSlope).Ends s (fun v _ => v = .ofVec .array slope) fun _ => False := rfl
  have hhessian (s : Session Unit) : (Session.knownHessian ⟨sphereOperator, true⟩
      knownSlope).Ends s (fun m _ => m = .ofMat .array twice) fun _ => False := rfl
  have hhalf := step_returns_iff ⟨sphereOperator, true⟩ (.start ()) .array rfl definite_twice
    slope_ne_zero (by norm_num : (0 : ℝ) < 1 / 2) hgradient hhessian
  have hwhole := step_returns_iff ⟨sphereOperator, true⟩ (.start ()) .array rfl definite_twice
    slope_ne_zero one_pos hgradient hhessian
  -- The gradient is an eigenvector, so the Cauchy point is the Newton point: there is no second leg.
  have hcauchy : cauchy twice slope ⬝ᵥ cauchy twice slope ≤ 1 * 1 := by
    rw [legs_twice.1]
    simp [dotProduct]
  exact ⟨definite_twice, slope_ne_zero, by norm_num, hhalf.2.1 not_finds_half,
    hwhole.1 (hwhole.2.2 hcauchy)⟩

/-- **A step is refused** for a definite matrix, a gradient that is not zero and a positive radius:
    in one dimension both legs end in one point, and a smaller region has no parameter. -/
theorem step_refused : QuasiNewton.Definite twice ∧ slope ≠ 0 ∧ (0 : ℝ) < 1 / 2 ∧
    (solver.step ⟨sphereOperator, true⟩ knownSlope).Ends ⟨⟨.finite (1 / 2)⟩, .start ()⟩
      (fun _ _ => False) fun e => e = .impossible (.pathParameter (.infinite true : Exact ℝ)) := by
  refine ⟨definite_twice, slope_ne_zero, by norm_num, ?_⟩
  -- Both legs are the same step of length one, and the region has half that radius.
  obtain ⟨hcauchy, hnewton⟩ := legs_twice
  have hout : (1 / 2 * (1 / 2) : ℝ) < newton twice slope ⬝ᵥ newton twice slope := by
    rw [hnewton]
    norm_num [dotProduct]
  have hpath : path .array ⟨.finite (1 / 2)⟩ (.ofVec .array slope) (.ofMat .array twice) =
      .error (.impossible (.pathParameter (.infinite true : Exact ℝ))) := by
    rw [path_of_outside (isUnit_det definite_twice)
      (definite_twice.pos slope slope_ne_zero).ne' (by norm_num) hout, hcauchy, ← hnewton,
      parameter_self hout]
    exact select_of_not_mem _ _ _ fun t ht => by cases ht
  have hbackend : knownSlope.param.backend = .array := rfl
  refine ends_step (Exact.isNaN_finite _) hbackend (fun _ => rfl) (fun _ => rfl) fun s => ?_
  rw [hpath]
  rfl

end Line

end Minimization.Dogleg
