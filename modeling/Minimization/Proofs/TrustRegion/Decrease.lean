import Minimization.Proofs.Contract.Nested
import Minimization.Proofs.Counts.Recording
import Minimization.Proofs.Dogleg.Decrease
import Minimization.Proofs.Run.Checked
import Minimization.Proofs.TrustRegion.Step

namespace Minimization

/-!
# The decrease that a trust-region step predicts

The run inside a trust-region step returns the step along the path.  Where the region contains the
end of the first leg, the quadratic model therefore predicts a decrease, and the ratio of the step is
a quotient by a positive number.

* `Dogleg.exec_step_known` — a step from what is known.
* `Dogleg.ends_nested` — the run inside a trust-region step makes that step, and stops.
* `TrustRegion.predictedDecrease_ofVec` — the predicted decrease is that of the model.
* `TrustRegion.predicts_decrease` — a decrease of at least that of the first leg is predicted.
-/

namespace Dogleg

section Nested

variable {ω α : Type} [Scalar α]

/-- A step from what is known leaves the session alone. -/
theorem exec_step_known (A : Setting ω α) {p : Progress α} {s : Dogleg α} {g h : Tensor α}
    (session : Session ω) (hradius : Scalar.isNaN s.radius = false) (hg : p.gradient = some g)
    (hh : p.hessian = some h) :
    (step A p).exec ⟨s, session⟩ = (path p.param.backend s g h, ⟨s, session⟩) := by
  -- With both derivatives known, the step evaluates nothing.
  have hstep : step A p = (do
      let s ← Workspace.readSolver
      if Scalar.isNaN s.radius then throw (.impossible .radiusMissing)
      else Action.ofExcept (path p.param.backend s g h)) := by
    rw [step_eq]
    unfold Session.knownGradient Session.knownHessian
    rw [hg, hh]
    rfl
  rw [hstep, Action.exec_bind]
  show (if Scalar.isNaN s.radius then throw (.impossible .radiusMissing)
    else Action.ofExcept (path p.param.backend s g h) :
      Action (Workspace (Dogleg α) ω) α (Report α)).exec ⟨s, session⟩ = _
  rw [hradius]
  rfl

/-- Progress and memory of the run inside a trust-region step: the start, until the step `y` has been
    made, which ends the run. -/
structure Finding (start : Progress α) (d : Dogleg α) (y : Tensor α) (p : Progress α)
    (s : Dogleg α) : Prop where
  memory : s = d
  capped : p.maxIters ≠ 0
  found : p.reason = .notTerminated → p = start
  stopped : p.reason ≠ .notTerminated → p.param = y

/-- The run makes one step and stops. -/
theorem finding_contract (A : Setting ω α) (start : Progress α) {d : Dogleg α} {g h y : Tensor α}
    {tau : α} (hradius : Scalar.isNaN d.radius = false) (hg : start.gradient = some g)
    (hh : start.hessian = some h) (hcost : Scalar.isNaN start.cost = false)
    (hpath : path start.param.backend d g h = .ok (reached y tau)) :
    Run.Contract (Run.nestedPlan solver A)
      (fun p s => s = d ∧ p.maxIters ≠ 0 ∧ 1 ≤ p.iter ∧ p.param = y) (Finding start d y)
      fun _ => False where
  stopped := by
    intro p s reason hstop hp
    -- A nested run has a cap, and nobody can ask it to stop.
    obtain hcap | hguard := hstop
    · exact absurd hcap hp.capped
    · cases hguard
  step := by
    intro p s session hp hgo
    obtain rfl := hp.found hgo
    obtain rfl := hp.memory
    have hexec := exec_step_known A session hradius hg hh
    rw [hpath] at hexec
    refine .intro ?_ fun e t herror => ?_
    · intro report w hok
      obtain ⟨hreport, rfl⟩ := Prod.mk.inj (hexec.symm.trans hok)
      obtain rfl := Except.ok.inj hreport
      refine ⟨rfl, ?_, ?_, ?_⟩
      · rw [ProgressOn.maxIters_increment, ProgressOn.maxIters_update]
        exact hp.capped
      · rw [ProgressOn.iter_increment]
        omega
      · rw [ProgressOn.param_increment, ProgressOn.param_update]
        rfl
    · exact absurd (hexec.symm.trans herror) (by simp)
  inspected := by
    intro r report w e hp hgo hok hfound
    obtain hstart := hp.found hgo
    have hexec := exec_step_known A r.session (hp.memory ▸ hradius) (hstart ▸ hg) (hstart ▸ hh)
    rw [hp.memory, hstart, hpath] at hexec
    rw [hp.memory, hstart] at hok
    obtain ⟨hreport, rfl⟩ := Prod.mk.inj (hexec.symm.trans hok)
    obtain rfl := Except.ok.inj hreport
    -- The step shows the cost that it started from, and has counted nothing.
    have hclear : Run.inspection (Run.nestedPlan solver A) r.session.counts
        (Run.counted r (reached y tau) ⟨d, r.session⟩) = .ok () := by
      unfold Run.inspection
      split
      · refine (Run.finding_eq_ok_iff _ _ _).2 ⟨?_, ?_⟩
        · show Scalar.isNaN ((r.progress.update (reached y tau)).1.increment.cost) = false
          rw [ProgressOn.cost_increment, ProgressOn.cost_update, hstart]
          exact hcost
        · have hsame := Counts.decreased?_add r.session.counts .zero
          rwa [Counts.add_zero] at hsame
      · rfl
    rw [hclear] at hfound
    cases hfound
  terminate := by
    rintro p s session ⟨rfl, hcap, hiter, rfl⟩
    show (pure (if 1 ≤ p.iter then Reason.maxIters else .notTerminated) :
      Action (Workspace (Dogleg α) ω) α Reason).Ends _ _ _
    rw [if_pos hiter, Action.ends_pure]
    exact ⟨rfl, hcap, nofun, fun _ => rfl⟩
  introduced name notes ws := Run.noObserver_introduced name notes ws _
  watched p notes isNewBest ws := Run.noObserver_watched p notes isNewBest ws _

/-- **The run inside a trust-region step** returns the step along the path. -/
theorem ends_nested (A : Setting ω α) {x g h y : Tensor α} {d : Dogleg α} {tau : α}
    (session : Session ω) (hradius : Scalar.isNaN d.radius = false)
    (hinfinity : Scalar.isNaN (Scalar.infinity : α) = false)
    (hpath : path x.backend d g h = .ok (reached y tau)) :
    (Run.nested solver A fun c => Run.seeded x c.maxIters none (some g) (some h)).Ends ⟨d, session⟩
      (fun p _ => p.param = y) fun _ => False := by
  obtain ⟨-, hmax, hgo⟩ := Run.seeded_unstarted x (RunConfig.defaultMaxIters : Int) (none : Option α)
    (some g) (some h)
  have hcontract := finding_contract A
    (Run.seeded x RunConfig.defaultMaxIters none (some g) (some h)) hradius rfl rfl hinfinity hpath
  -- The nested run is not barred, since its cap is not zero; when it has ended, its point is that of the
  -- path.
  refine (hcontract.nested x none (some g) (some h) fun session => ?_).mono ?_
  · refine ⟨rfl, ?_, fun _ => rfl, fun hstopped => absurd hgo hstopped⟩
    show (Run.seeded x RunConfig.defaultMaxIters none (some g) (some h)).maxIters ≠ 0
    rw [hmax]
    decide
  · rintro p w ⟨hfinding, hterminal⟩
    refine hfinding.stopped fun hrunning => ?_
    rw [hrunning] at hterminal
    cases hterminal

end Nested

end Dogleg

namespace TrustRegion

open Matrix

variable {K ω : Type} [Field K] [LinearOrder K] [IsStrictOrderedRing K] [Roots K] {n : Nat}
  {H : Matrix (Fin n) (Fin n) K} {g : Fin n → K} {b : Backend} {rho : K}

/-- The predicted decrease is that of the model. -/
theorem predictedDecrease_ofVec (b : Backend) (c : K) (g v : Fin n → K)
    (H : Matrix (Fin n) (Fin n) K) :
    predictedDecrease b (.finite c) (.ofVec b g) (.ofMat b H) (.ofVec b v) =
      .ok (.finite (-Dogleg.model H g v)) := by
  have hmodel : c - (c + g ⬝ᵥ v + 1 / 2 * v ⬝ᵥ H *ᵥ v) = -Dogleg.model H g v := by
    rw [Dogleg.model_eq]
    ring
  unfold predictedDecrease
  simp only [Backend.dot_ofVec, Backend.weightedDot_ofVec, bind, Except.bind, pure, Except.pure,
    Exact.lit_half, Exact.finite_add, Exact.finite_mul, Exact.finite_sub, hmodel]

/-- The step inside a region that contains the end of the first leg. -/
theorem ends_subproblemStep_decreases [SquareRoots K] (A : Setting ω (Exact K))
    {s : TrustRegion (Exact K)} (session : Session ω) {x : Tensor (Exact K)}
    {d : Dogleg (Exact K)} (hsubproblem : s.subproblem = .dogleg d) (hradius : s.radius = .finite rho)
    (hx : x.backend = b) (hH : QuasiNewton.Definite H) (hg : g ≠ 0) (hrho : 0 ≤ rho)
    (hin : Dogleg.cauchy H g ⬝ᵥ Dogleg.cauchy H g ≤ rho * rho) :
    (subproblemStep A x (.ofVec b g) (.ofMat b H)).Ends ⟨s, session⟩
      (fun direction _ => ∃ v, direction = .ofVec b v ∧
        Dogleg.model H g v ≤ Dogleg.model H g (Dogleg.cauchy H g)) fun _ => False := by
  obtain ⟨v, tau, hpath, hle⟩ := Dogleg.path_decreases b hH hg hrho hin
  rw [← hradius, ← hx] at hpath
  have hnumber : Scalar.isNaN s.radius = false := by
    rw [hradius]
    exact Exact.isNaN_finite rho
  -- The dogleg method is given the radius of the region, and is asked for its one step.
  have hset : s.subproblem.setRadius s.radius = (.ok ⟨s.radius⟩ : Except (Failure (Exact K)) _) := by
    rw [hsubproblem]
    rfl
  refine ends_subproblemStep_of (fun e he => by cases hset.symm.trans he) fun d hd => ?_
  obtain rfl := Except.ok.inj (hset.symm.trans hd)
  rw [← hx]
  refine (Dogleg.ends_nested A session hnumber rfl hpath).mono ?_
  intro found w hfound
  exact ⟨v, hfound, hle⟩

/-- **At least the Cauchy decrease.**  Let the Hessian be symmetric and positive definite, the
    gradient not zero, and let the region contain the end of the first leg, the Cauchy point.  The
    dogleg method, with gradient and Hessian known or evaluated, returns a step of which the model is
    at most what it is of the Cauchy point, and that is negative.  So does the run inside an iteration
    of a trust-region method, and the decrease that the iteration predicts for it is positive:
    whenever the iteration returns, it has made a trial with such a prediction. -/
theorem predicts_decrease [SquareRoots K] (A : Setting ω (Exact K)) (session : Session ω)
    {p : Progress (Exact K)} (hp : p.param.backend = b) (hH : QuasiNewton.Definite H) (hg : g ≠ 0)
    (hrho : 0 ≤ rho) (hin : Dogleg.cauchy H g ⬝ᵥ Dogleg.cauchy H g ≤ rho * rho) :
    Dogleg.model H g (Dogleg.cauchy H g) = -(g ⬝ᵥ g) ^ 2 / (2 * g ⬝ᵥ H *ᵥ g) ∧
    Dogleg.model H g (Dogleg.cauchy H g) < 0 ∧
    ((∀ session, (Session.knownGradient A p).Ends session (fun v _ => v = .ofVec b g)
        fun _ => False) →
      (∀ session, (Session.knownHessian A p).Ends session (fun m _ => m = .ofMat b H)
        fun _ => False) →
      (Dogleg.solver.step A p).Ends ⟨⟨.finite rho⟩, session⟩
        (fun report _ => ∃ v tau, report = Dogleg.reached (.ofVec b v) tau ∧
          Dogleg.model H g v ≤ Dogleg.model H g (Dogleg.cauchy H g)) fun _ => False) ∧
    ∀ (c : K) (s : TrustRegion (Exact K)) (d : Dogleg (Exact K)), s.subproblem = .dogleg d →
      s.radius = .finite rho → p.cost = .finite c → p.gradient = some (.ofVec b g) →
      p.hessian = some (.ofMat b H) →
      ((subproblemStep A p.param (.ofVec b g) (.ofMat b H)).Ends ⟨s, session⟩
        (fun direction _ => ∃ v q, direction = .ofVec b v ∧
          Dogleg.model H g v ≤ Dogleg.model H g (Dogleg.cauchy H g) ∧
          predictedDecrease b p.cost (.ofVec b g) (.ofMat b H) direction = .ok (.finite q) ∧ 0 < q)
        fun _ => False) ∧
      (solver.step A p).Ends ⟨s, session⟩
        (fun report _ => ∃ t, Trial.Made A p ⟨s, session⟩ (.ofVec b g) (.ofMat b H) t ∧
          t.Reports A p (.ofVec b g) (.ofMat b H) s.acceptance report ∧
          ∃ q, t.predicted = .finite q ∧ 0 < q) fun _ => True := by
  have hnegative := Dogleg.model_cauchy_neg hH hg
  refine ⟨Dogleg.model_cauchy (hH.pos g hg).ne', hnegative,
    Dogleg.ends_step_decreases hp hH hg hrho hin, ?_⟩
  intro c s d hsubproblem hradius hcost hgradient hhessian
  have hdirection : (subproblemStep A p.param (.ofVec b g) (.ofMat b H)).Ends ⟨s, session⟩
      (fun direction _ => ∃ v q, direction = .ofVec b v ∧
        Dogleg.model H g v ≤ Dogleg.model H g (Dogleg.cauchy H g) ∧
        predictedDecrease b p.cost (.ofVec b g) (.ofMat b H) direction = .ok (.finite q) ∧ 0 < q)
      fun _ => False := by
    refine (ends_subproblemStep_decreases A session hsubproblem hradius hp hH hg hrho hin).mono ?_
    rintro direction w ⟨v, rfl, hle⟩
    refine ⟨v, _, rfl, hle, ?_, neg_pos.2 (hle.trans_lt hnegative)⟩
    rw [hcost]
    exact predictedDecrease_ofVec b c g v H
  refine ⟨hdirection, (ends_step_trial A p s session).mono ?_⟩
  rintro report w ⟨g', h', t, hmade, hreports, -⟩
  obtain rfl := Option.some.inj (hgradient.symm.trans hmade.gradient)
  obtain rfl := Option.some.inj (hhessian.symm.trans hmade.hessian)
  -- What the trial predicts, it predicts for the direction that the nested run has returned.
  obtain ⟨v, q, -, -, hpredicted, hpos⟩ :=
    hdirection.of_ok (b := t.direction) (Prod.ext hmade.direction rfl)
  refine ⟨t, hmade, hreports, q, ?_, hpos⟩
  have hmodel := hmade.predicted
  rw [hp] at hmodel
  exact Except.ok.inj (hmodel.symm.trans hpredicted)

/-! ### A bowl -/

section Bowl

/-- A bowl with half-axes of different lengths. -/
def bowl : Matrix (Fin 2) (Fin 2) ℝ := !![1, 1; 1, 1 + 1]

/-- Its slope. -/
def tilt : Fin 2 → ℝ := ![1, 0]

/-- The bowl is symmetric, and its form a sum of squares. -/
theorem definite_bowl : QuasiNewton.Definite bowl := by
  refine ⟨by ext i j; fin_cases i <;> fin_cases j <;> rfl, fun v hv => ?_⟩
  -- The form is a sum of two squares, which vanish together only at zero.
  have hform : v ⬝ᵥ bowl *ᵥ v = (v 0 + v 1) ^ 2 + v 1 ^ 2 := by
    simp [bowl, dotProduct, mulVec, Fin.sum_univ_two]
    ring
  rw [hform]
  by_contra hle
  have hsecond : v 1 = 0 := by nlinarith [sq_nonneg (v 0 + v 1), sq_nonneg (v 1)]
  have hfirst : v 0 = 0 := by
    rw [hsecond] at hle
    nlinarith [sq_nonneg (v 0)]
  refine hv (funext fun i => ?_)
  fin_cases i
  · exact hfirst
  · exact hsecond

/-- The progress of a run that knows cost, gradient and Hessian. -/
noncomputable def knownBowl : Progress (Exact ℝ) :=
  Run.seeded (.ofVec .array ![1, 1]) 1 (some (.finite 0)) (some (.ofVec .array tilt))
    (some (.ofMat .array bowl))

/-- The region ends at the Cauchy point. -/
theorem cauchy_bowl : Dogleg.cauchy bowl tilt ⬝ᵥ Dogleg.cauchy bowl tilt ≤ 1 * 1 := by
  simp [Dogleg.cauchy, bowl, tilt, dotProduct, mulVec, Fin.sum_univ_two]

/-- In the bowl the region ends at the Cauchy point, and both inequalities hold there. -/
theorem predicts_decrease_bowl :
    QuasiNewton.Definite bowl ∧ tilt ≠ 0 ∧
    Dogleg.cauchy bowl tilt ⬝ᵥ Dogleg.cauchy bowl tilt ≤ 1 * 1 ∧
    (Dogleg.solver.step ⟨sphereOperator, true⟩ knownBowl).Ends ⟨⟨.finite 1⟩, .start ()⟩
      (fun report _ => ∃ v tau, report = Dogleg.reached (.ofVec .array v) tau ∧
        Dogleg.model bowl tilt v ≤ Dogleg.model bowl tilt (Dogleg.cauchy bowl tilt))
      (fun _ => False) ∧
    (solver.step ⟨sphereOperator, true⟩ knownBowl).Ends
      ⟨⟨.dogleg .unset, .finite 1, .finite 1, .finite 0⟩, .start ()⟩
      (fun report _ => ∃ t : Trial (Exact ℝ),
        t.Reports (⟨sphereOperator, true⟩ : Setting Unit (Exact ℝ)) knownBowl (.ofVec .array tilt)
          (.ofMat .array bowl) (.finite 0) report ∧ ∃ q, t.predicted = .finite q ∧ 0 < q)
      fun _ => True := by
  have htilt : tilt ≠ 0 := fun hzero => by
    have hfirst := congrFun hzero 0
    simp [tilt] at hfirst
  obtain ⟨-, -, hstep, hregion⟩ := predicts_decrease ⟨sphereOperator, true⟩ (.start ())
    (p := knownBowl) rfl definite_bowl htilt zero_le_one cauchy_bowl
  refine ⟨definite_bowl, htilt, cauchy_bowl, hstep (fun _ => rfl) fun _ => rfl, ?_⟩
  -- The trust region makes the same step, and promises a decrease.
  obtain ⟨-, hpredicts⟩ := hregion 0 ⟨.dogleg .unset, .finite 1, .finite 1, .finite 0⟩ .unset rfl rfl
    rfl rfl rfl
  refine hpredicts.mono ?_
  rintro report w ⟨t, -, hreports, hpositive⟩
  exact ⟨t, hreports, hpositive⟩

end Bowl

end TrustRegion

end Minimization
