import Mathlib.Analysis.Convex.Segment
import Minimization.Problem.Sphere
import Minimization.Proofs.Dogleg.Region

namespace Minimization.Dogleg

open Minimization Matrix

/-!
# Steps to the boundary

Once the region contains the end of the first leg, the second leg either ends inside it or leaves it
exactly once.  Neither needs a definite matrix: an invertible one is enough, and a leg that leads back
towards the origin crosses the boundary behind it.

* `root_of_inside` — the larger root of the quadratic, for a leg that starts inside and ends outside.
* `parameter_of_inside` — the parameter computed for such a leg is that of its crossing.
* `path_of_cauchy_inside` — the two ways in which the computation of a step ends there.
* `step_on_boundary` — that the method returns the Newton step or a step to the boundary.
-/

variable {K ω : Type} [Field K] [LinearOrder K] [IsStrictOrderedRing K] {n : Nat}

omit [LinearOrder K] [IsStrictOrderedRing K] in
/-- The squared length along a leg. -/
theorem dotProduct_along (u v : Fin n → K) (s : K) :
    (u + s • (v - u)) ⬝ᵥ (u + s • (v - u)) =
      u ⬝ᵥ u + 2 * s * u ⬝ᵥ (v - u) + s ^ 2 * (v - u) ⬝ᵥ (v - u) := by
  rw [add_dotProduct, dotProduct_add, dotProduct_add, smul_dotProduct, smul_dotProduct,
    dotProduct_smul, dotProduct_smul, dotProduct_comm (v - u) u]
  simp only [smul_eq_mul]
  ring

/-- **The crossing.**  A leg of squared length `w` that starts at squared length `U`, inside, and
    ends outside: the larger root `s` of the quadratic lies on it, before its end, and the squared
    length there is that of the boundary. -/
theorem root_of_inside {w a U q δ : K} (hw : 0 < w) (hq : 0 ≤ q)
    (hsquare : q * q = a ^ 2 - w * (U - δ)) (hin : U ≤ δ) (hout : δ < U + 2 * a + w) :
    0 ≤ (q - a) / w ∧ (q - a) / w < 1 ∧
      U + 2 * ((q - a) / w) * a + ((q - a) / w) ^ 2 * w = δ := by
  refine ⟨?_, ?_, ?_⟩
  · -- From a start inside, the root exceeds the inner product of start and leg.
    have hle : a ≤ q := by
      refine (le_root_iff hq hsquare).2 (.inr ?_)
      have hinside := mul_nonneg hw.le (sub_nonneg.2 hin)
      linarith
    exact div_nonneg (sub_nonneg.2 hle) hw.le
  · -- With a root at the end of the leg or beyond it the end would be inside.
    rw [div_lt_one hw]
    by_contra hge
    have hend : w + a ≤ q := by linarith
    have hinside : w + a ≤ 0 ∨ (w + a) * (w + a) ≤ a ^ 2 - w * (U - δ) :=
      (le_root_iff hq hsquare).1 hend
    obtain hnonpos | hle := hinside
    · linarith
    · have hgap : 0 < w * (U + 2 * a + w - δ) := mul_pos hw (sub_pos.2 hout)
      linarith
  · have hexpand : U + 2 * ((q - a) / w) * a + ((q - a) / w) ^ 2 * w = U + (q * q - a ^ 2) / w := by
      field_simp
      ring
    rw [hexpand, hsquare]
    field_simp
    ring

variable {u v : Fin n → K} {δ : K}

/-- From a start inside the quadratic has roots. -/
theorem discriminant_of_inside (hin : u ⬝ᵥ u ≤ δ) : 0 ≤ discriminant u v δ := by
  have hleg : 0 ≤ (v - u) ⬝ᵥ (v - u) := Finset.sum_nonneg fun i _ => mul_self_nonneg ((v - u) i)
  have hinside := mul_nonneg hleg (sub_nonneg.2 hin)
  rw [discriminant]
  nlinarith

section Roots

variable [Roots K]

/-- **The parameter of the crossing** is the one that the method computes, so the closed form for a
    leg without a crossing is not taken. -/
theorem parameter_of_inside [SquareRoots K] (hin : u ⬝ᵥ u ≤ δ) (hout : δ < v ⬝ᵥ v) :
    ∃ tau, parameter u v δ = .finite tau ∧ 1 ≤ tau ∧ tau < 2 ∧
      pathPoint u v tau ⬝ᵥ pathPoint u v tau = δ := by
  -- A leg of length zero would be inside and outside at once.
  have hne : u ≠ v := by
    rintro rfl
    exact absurd hin (not_le.2 hout)
  obtain ⟨q, hq, hsquare, hparameter⟩ := parameter_of_nonneg hne (discriminant_of_inside hin)
  have hend : δ < u ⬝ᵥ u + 2 * u ⬝ᵥ (v - u) + (v - u) ⬝ᵥ (v - u) :=
    hout.trans_eq (dotProduct_around u v).1
  obtain ⟨hnonneg, hlt, hmeets⟩ := root_of_inside (leg_pos hne) hq hsquare hin hend
  refine ⟨_, hparameter, by linarith, by linarith, ?_⟩
  -- The parameter is on the second leg, whose formula the point is given by.
  have hsecond : ¬1 + (q - u ⬝ᵥ (v - u)) / ((v - u) ⬝ᵥ (v - u)) < 1 := by
    rw [not_lt]
    linarith
  rw [pathPoint, if_neg hsecond, add_sub_cancel_left, dotProduct_along]
  exact hmeets

omit [Roots K] in
/-- The points of the second leg. -/
theorem pathPoint_mem_segment {tau : K} (h₁ : 1 ≤ tau) (h₂ : tau ≤ 2) :
    pathPoint u v tau ∈ segment K u v := by
  rw [segment_eq_image', pathPoint, if_neg (not_lt.2 h₁)]
  exact ⟨tau - 1, ⟨by linarith, by linarith⟩, rfl⟩

/-! ### A step -/

variable {H : Matrix (Fin n) (Fin n) K} {g : Fin n → K} {b : Backend} {rho : K}

/-- A vector on the boundary has the length of the radius. -/
theorem norm_on_boundary [SquareRoots K] (hrho : 0 ≤ rho) (hv : v ⬝ᵥ v = rho * rho) :
    b.norm (.ofVec b v) = (.ok (.finite rho) : Except (Failure (Exact K)) _) := by
  obtain ⟨q, hq, hsquare, hroot⟩ := Exact.sqrt_finite (mul_nonneg hrho hrho)
  obtain rfl : q = rho := (mul_self_inj hq hrho).1 hsquare
  rw [Backend.norm_ofVec, hv]
  exact congrArg Except.ok hroot

/-- How the computation of a step ends if the region contains the end of the first leg. -/
theorem path_of_cauchy_inside [SquareRoots K] (b : Backend) (hH : IsUnit H.det)
    (hcurvature : g ⬝ᵥ H *ᵥ g ≠ 0) (hrho : 0 ≤ rho)
    (hin : cauchy H g ⬝ᵥ cauchy H g ≤ rho * rho) :
    (newton H g ⬝ᵥ newton H g ≤ rho * rho →
      path b ⟨.finite rho⟩ (.ofVec b g) (.ofMat b H) =
        .ok (reached (.ofVec b (newton H g)) (2.0 : Exact K))) ∧
    (¬newton H g ⬝ᵥ newton H g ≤ rho * rho → ∃ tau, 1 ≤ tau ∧ tau < 2 ∧
      path b ⟨.finite rho⟩ (.ofVec b g) (.ofMat b H) =
        .ok (reached (.ofVec b (pathPoint (cauchy H g) (newton H g) tau)) (.finite tau)) ∧
      b.norm (.ofVec b (pathPoint (cauchy H g) (newton H g) tau)) =
        (.ok (.finite rho) : Except (Failure (Exact K)) _)) := by
  refine ⟨path_of_inside hH hrho, fun hnewton => ?_⟩
  -- The Newton step leads out, so that the path meets the boundary behind the Cauchy point.
  rw [not_le] at hnewton
  obtain ⟨tau, hparameter, h₁, h₂, hboundary⟩ := parameter_of_inside hin hnewton
  refine ⟨tau, h₁, h₂, ?_, norm_on_boundary hrho hboundary⟩
  rw [path_of_outside hH hcurvature hrho hnewton, hparameter]
  exact select_of_mem b _ _ (zero_le_one.trans h₁) h₂.le

/-- **Steps to the boundary.**  For an invertible Hessian, definite or not, a gradient along which
    its curvature is not zero, known or evaluated, and a region that contains the end of the first
    leg, the method returns a step.  It is the Newton step if the region contains that.  Otherwise
    its parameter is at least one and below two, and it leads along the second leg to a point whose
    length is the radius. -/
theorem step_on_boundary [SquareRoots K] (A : Setting ω (Exact K)) (session : Session ω)
    (b : Backend) {p : Progress (Exact K)} (hp : p.param.backend = b) (hH : IsUnit H.det)
    (hcurvature : g ⬝ᵥ H *ᵥ g ≠ 0) (hrho : 0 < rho)
    (hin : cauchy H g ⬝ᵥ cauchy H g ≤ rho * rho)
    (hgradient : ∀ session, (Session.knownGradient A p).Ends session (fun v _ => v = .ofVec b g)
      fun _ => False)
    (hhessian : ∀ session, (Session.knownHessian A p).Ends session (fun m _ => m = .ofMat b H)
      fun _ => False) :
    (solver.step A p).Ends ⟨⟨.finite rho⟩, session⟩
      (fun report _ =>
        (newton H g ⬝ᵥ newton H g ≤ rho * rho →
          report = reached (.ofVec b (newton H g)) (2.0 : Exact K)) ∧
        (¬newton H g ⬝ᵥ newton H g ≤ rho * rho → ∃ tau step, 1 ≤ tau ∧ tau < 2 ∧
          report = reached (.ofVec b step) (.finite tau) ∧
          step = cauchy H g + (tau - 1) • (newton H g - cauchy H g) ∧
          step ∈ segment K (cauchy H g) (newton H g) ∧
          b.norm (.ofVec b step) = (.ok (.finite rho) : Except (Failure (Exact K)) _)))
      fun _ => False := by
  obtain ⟨hinside, hcrossing⟩ := path_of_cauchy_inside b hH hcurvature hrho.le hin
  refine ends_step (Exact.isNaN_finite _) hp hgradient hhessian fun s => ?_
  -- The Newton step decides which of the two answers is given.
  by_cases hnewton : newton H g ⬝ᵥ newton H g ≤ rho * rho
  · rw [hinside hnewton]
    exact ⟨fun _ => rfl, fun hnot => absurd hnewton hnot⟩
  · obtain ⟨tau, h₁, h₂, hpath, hnorm⟩ := hcrossing hnewton
    rw [hpath]
    refine ⟨fun h => absurd h hnewton, fun _ => ⟨tau, _, h₁, h₂, rfl, ?_, ?_, hnorm⟩⟩
    · rw [pathPoint, if_neg (not_lt.2 h₁)]
    · exact pathPoint_mem_segment h₁ h₂.le

end Roots

/-! ### A saddle -/

section Saddle

/-- An invertible matrix that is not definite. -/
def saddle : Matrix (Fin 2) (Fin 2) ℝ := !![1, 1; 1, 0]

/-- A slope along which the curvature is positive. -/
def slant : Fin 2 → ℝ := ![1, 1]

/-- The saddle can be inverted. -/
theorem isUnit_det_saddle : IsUnit saddle.det := by
  rw [saddle, det_fin_two_of, isUnit_iff_ne_zero]
  norm_num

/-- Along the gradient its curvature is positive. -/
theorem curvature_slant : slant ⬝ᵥ saddle *ᵥ slant = 3 := by
  simp [slant, saddle, dotProduct, mulVec, Fin.sum_univ_two]
  norm_num

/-- The squared lengths of the two ends. -/
theorem legs_saddle : cauchy saddle slant ⬝ᵥ cauchy saddle slant = 8 / 9 ∧
    newton saddle slant ⬝ᵥ newton saddle slant = 1 := by
  constructor
  · rw [cauchy, curvature_slant]
    norm_num [slant, dotProduct, Fin.sum_univ_two]
  · have hsolves : saddle *ᵥ ![1, 0] = slant := by
      ext i
      fin_cases i <;> simp [slant, saddle, dotProduct, mulVec, Fin.sum_univ_two]
    rw [newton_eq isUnit_det_saddle hsolves]
    simp [dotProduct, Fin.sum_univ_two]

/-- The progress of a run that is given both of them. -/
noncomputable def knownSaddle : Progress (Exact ℝ) :=
  Run.seeded (.ofVec .array ![1, 0]) 1 none (some (.ofVec .array slant))
    (some (.ofMat .array saddle))

/-- At radius one the Newton step is taken; at a radius below it, a step to the boundary. -/
theorem step_on_boundary_saddle :
    IsUnit saddle.det ∧ slant ⬝ᵥ saddle *ᵥ slant ≠ 0 ∧
    ((solver.step ⟨sphereOperator, true⟩ knownSaddle).Ends ⟨⟨.finite 1⟩, .start ()⟩
      (fun report _ => report = reached (.ofVec .array (newton saddle slant)) (2.0 : Exact ℝ))
      fun _ => False) ∧
    (solver.step ⟨sphereOperator, true⟩ knownSaddle).Ends ⟨⟨.finite (19 / 20)⟩, .start ()⟩
      (fun report _ => ∃ (tau : ℝ) (step : Fin 2 → ℝ), 1 ≤ tau ∧ tau < 2 ∧
        report = reached (.ofVec .array step) (.finite tau) ∧
        Backend.norm .array (.ofVec .array step) =
          (.ok (.finite (19 / 20)) : Except (Failure (Exact ℝ)) _))
      fun _ => False := by
  have hgradient (s : Session Unit) : (Session.knownGradient ⟨sphereOperator, true⟩
      knownSaddle).Ends s (fun v _ => v = .ofVec .array slant) fun _ => False := rfl
  have hhessian (s : Session Unit) : (Session.knownHessian ⟨sphereOperator, true⟩
      knownSaddle).Ends s (fun m _ => m = .ofMat .array saddle) fun _ => False := rfl
  have hcurvature : slant ⬝ᵥ saddle *ᵥ slant ≠ 0 := by
    rw [curvature_slant]
    exact three_ne_zero
  obtain ⟨hcauchy, hnewton⟩ := legs_saddle
  -- The Newton step has length one, the Cauchy step is shorter.
  have hwide : cauchy saddle slant ⬝ᵥ cauchy saddle slant ≤ 1 * 1 := by
    rw [hcauchy]
    norm_num
  have htight : cauchy saddle slant ⬝ᵥ cauchy saddle slant ≤ 19 / 20 * (19 / 20) := by
    rw [hcauchy]
    norm_num
  refine ⟨isUnit_det_saddle, hcurvature, ?_, ?_⟩
  · refine (step_on_boundary ⟨sphereOperator, true⟩ (.start ()) .array rfl isUnit_det_saddle
      hcurvature one_pos hwide hgradient hhessian).mono ?_
    rintro report _ ⟨hinside, -⟩
    refine hinside ?_
    rw [hnewton, one_mul]
  · refine (step_on_boundary ⟨sphereOperator, true⟩ (.start ()) .array rfl isUnit_det_saddle
      hcurvature (by norm_num) htight hgradient hhessian).mono ?_
    rintro report _ ⟨-, hcrossing⟩
    have hout : ¬newton saddle slant ⬝ᵥ newton saddle slant ≤ 19 / 20 * (19 / 20) := by
      rw [hnewton]
      norm_num
    obtain ⟨tau, step, h₁, h₂, hreport, -, -, hnorm⟩ := hcrossing hout
    exact ⟨tau, step, h₁, h₂, hreport, hnorm⟩

end Saddle

end Minimization.Dogleg
