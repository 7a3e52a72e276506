import Mathlib.Data.Int.Log
import Mathlib.Data.Rat.Floor
import Minimization.Proofs.Contract.Observers
import Minimization.Proofs.Tensor.Vectors
import Minimization.Proofs.TrustRegion.Radius

namespace Minimization.TrustRegion

open Exact

/-!
# A trust-region run makes progress

Every iteration either moves to a point of strictly lower cost, or it stays where it is with a
quarter of the region.  Since a run ends when its region is too small, it cannot stay for long.

* `Moves`, `Stays` — the two kinds of iterations.
* `ends_step_progress` — what a step does to progress and settings; nothing is asked of the operator.
* `iterate_progress` — so does an iteration, and a run that goes on has not come to a tiny region.
* `run_progresses` — what follows for all states that a run reaches, and for its costs.
-/

variable {K ω η : Type} [Field K] [LinearOrder K] [Roots K]

/-- The run moves to the trial point, whose cost is finite and strictly lower. -/
structure Moves (p : Progress (Exact K)) (t : Trial (Exact K)) (p' : Progress (Exact K)) : Prop where
  param : p'.param = t.point
  cost : p'.cost = t.cost
  lower : Lower t.cost p.cost

/-- The run stays at its point, and a quarter of the region is left. -/
structure Stays (p p' : Progress (Exact K)) (s s' : TrustRegion (Exact K)) : Prop where
  param : p'.param = p.param
  cost : p'.cost = p.cost
  gradient : p'.gradient = p.gradient
  hessian : p'.hessian = p.hessian
  radius : s'.radius = s.radius * 0.25

/-- A run that goes on has a region that is not tiny. -/
def OfSize (rho : K) (p : Progress (Exact K)) : Prop :=
  ∀ tol, Scalar.sqrt machineEpsilon = (finite tol : Exact K) → p.reason = .notTerminated → tol ≤ rho

variable [IsStrictOrderedRing K] {M eta rho : K} {s : TrustRegion (Exact K)}

/-! ### One iteration -/

/-- **A step moves or stays**, whatever the operator answers. -/
theorem ends_step_progress (A : Setting ω (Exact K)) (p : Progress (Exact K))
    (session : Session ω) (hs : Region M eta rho s) :
    (solver.step A p).Ends ⟨s, session⟩
      (fun report w => ∃ g h t rho', Trial.Made A p ⟨s, session⟩ g h t ∧
        Region M eta rho' w.solver ∧
          (Moves p t (p.update report).1.increment ∨
            Stays p (p.update report).1.increment s w.solver ∧ rho' = rho / 4)) fun _ => True := by
  refine (ends_step_trial A p s session).mono ?_
  rintro report ⟨_, session'⟩ ⟨g, h, t, hmade, hreports, d, rfl⟩
  obtain ⟨r, hr⟩ := hmade.ratio_finite
  obtain ⟨rho', hregion, hquarter⟩ := hs.next r t.length d
  rw [← hr] at hregion
  refine ⟨g, h, t, rho', hmade, hregion, ?_⟩
  rw [hs.acceptance] at hreports
  cases hreports with
  | taken notes htaken hv hm =>
    exact .inl ⟨by simp, by simp, hmade.lower_of_taken hs.acceptance_nonneg htaken⟩
  | kept notes hkept =>
    -- The test that has turned the point down is passed by no ratio that keeps the radius.
    obtain ⟨r', hr', hlt⟩ := hmade.ratio_lt_of_kept hs.acceptance_lt hkept
    obtain rfl := finite.inj (hr.symm.trans hr')
    have hrho := hquarter hlt
    refine .inr ⟨⟨by simp, by simp, by simp [hmade.gradient], by simp [hmade.hessian], ?_⟩, hrho⟩
    rw [hregion.radius, hs.radius, hrho, lit_quarter, finite_mul, mul_one_div]

omit [IsStrictOrderedRing K] in
/-- A run that its stopping rule lets go on has a region of some size. -/
theorem le_of_terminate {p : Progress (Exact K)} {tol : K} (hs : Region M eta rho s)
    (htol : Scalar.sqrt machineEpsilon = (finite tol : Exact K))
    (h : terminate s p = .ok .notTerminated) : tol ≤ rho := by
  -- The target is looked at first, then the radius; neither has stopped the run.
  unfold terminate at h
  cases hgradient : (p.requireGradient : Except (Failure (Exact K)) _) with
  | error e => simp [hgradient, bind, Except.bind] at h
  | ok g =>
    cases hnorm : p.param.backend.norm g with
    | error e => simp [hgradient, hnorm, bind, Except.bind] at h
    | ok length =>
      simp only [hgradient, hnorm, bind, Except.bind, htol, hs.radius] at h
      split at h
      · cases h
      · split at h
        · cases h
        · next hnot => exact not_lt.1 (by rwa [lt_finite] at hnot)

omit [IsStrictOrderedRing K] in
/-- The stopping rule looks at the settings and leaves them as they are. -/
theorem ends_terminate (p : Progress (Exact K)) (session : Session ω) :
    (solver.terminate p).Ends ⟨s, session⟩
      (fun own w => terminate s p = .ok own ∧ w.solver = s) fun _ => True :=
  ends_terminate_iff.2 <| Action.ends_ofExcept (fun _ hown => ⟨hown, rfl⟩) fun _ _ => trivial

/-- **An iteration moves or stays**, and the run goes on only if its region has some size. -/
theorem iterate_progress {A : Setting ω (Exact K)} {O : Observer η (Exact K)}
    {c : RunConfig (Exact K)} {t t' : Run (TrustRegion (Exact K)) ω η (Exact K)}
    (hs : Region M eta rho t.solver) (h : Run.Iterates ⟨solver, O, A, c⟩ t t') :
    ∃ g h trial rho', Trial.Made A t.progress ⟨t.solver, t.session⟩ g h trial ∧
      Region M eta rho' t'.solver ∧ OfSize rho' t'.progress ∧
        (Moves t.progress trial t'.progress ∨
          Stays t.progress t'.progress t.solver t'.solver ∧ rho' = rho / 4) := by
  obtain ⟨report, w, own, session, v, hstep, hown, hprogress, hsolver⟩ :=
    Run.iterate_reports _ h.running h.succeeds
  obtain ⟨g, h, trial, rho', hmade, hregion, hkind⟩ :=
    (ends_step_progress A t.progress t.session hs).of_ok hstep
  obtain ⟨hrule, hsame⟩ := (ends_terminate _ session).of_ok hown
  rw [hprogress, hsolver, hsame]
  -- The stopping rule has been asked after the step, with the radius that the step has set.
  refine ⟨g, h, trial, rho', hmade, hregion, fun tol htol hgo => ?_, ?_⟩
  · obtain ⟨rfl, -⟩ := Run.of_ruling_eq_running hgo
    exact le_of_terminate hregion htol hrule
  · obtain hmoves | ⟨hstays, hrho⟩ := hkind
    · exact .inl ⟨hmoves.param, hmoves.cost, hmoves.lower⟩
    · exact .inr ⟨⟨hstays.param, hstays.cost, hstays.gradient, hstays.hessian, hstays.radius⟩, hrho⟩

/-! ### Runs -/

omit [IsStrictOrderedRing K] in
/-- The start of a run leaves the settings as they are. -/
theorem ends_init_region (A : Setting ω (Exact K)) (p : Progress (Exact K)) (session : Session ω)
    (hs : Region M eta rho s) :
    (solver.init A p).Ends ⟨s, session⟩ (fun _ w => ∃ rho, Region M eta rho w.solver)
      fun _ => True := by
  refine ends_init_iff.2 ((Action.ends_anyhow _ _).mono fun _ _ _ => ?_)
  refine (Action.ends_anyhow _ _).mono fun _ _ _ => ?_
  exact (Action.ends_anyhow _ _).mono fun _ _ _ => ⟨rho, hs⟩

/-- The radius stays in its bounds all along a run. -/
theorem region_contract (A : Setting ω (Exact K)) (O : Observer η (Exact K))
    (c : RunConfig (Exact K)) (M eta : K) :
    Run.Contract ⟨solver, O, A, c⟩ (fun _ s => ∃ rho, Region M eta rho s)
      (fun _ s => ∃ rho, Region M eta rho s) fun _ => True :=
  .anyhow (fun _ h => h)
    (fun {p _} session ⟨_, hs⟩ _ => (ends_step_progress A p session hs).mono
      fun _ _ ⟨_, _, _, rho', _, hregion, _⟩ => ⟨rho', hregion⟩)
    (fun {p _} session ⟨rho, hs⟩ => (ends_terminate p session).mono
      fun _ _ ⟨_, hsame⟩ => ⟨rho, hsame ▸ hs⟩)

section Consecutive

variable {A : Setting ω (Exact K)} {O : Observer η (Exact K)} {c : RunConfig (Exact K)}
  {u : ℕ → Run (TrustRegion (Exact K)) ω η (Exact K)} {n : ℕ}

/-- Costs never increase. -/
theorem cost_le_of_consecutive (hs : Region M eta rho (u 0).solver)
    (h : Run.Consecutive ⟨solver, O, A, c⟩ u n) :
    (∃ rho', Region M eta rho' (u n).solver) ∧
      ((u n).progress.cost = (u 0).progress.cost ∨
        Lower (u n).progress.cost (u 0).progress.cost) := by
  -- On the number of iterations; the bounds on the radius carry the step.
  induction n with
  | zero => exact ⟨⟨rho, hs⟩, .inl rfl⟩
  | succ n ih =>
    obtain ⟨⟨rho', hregion⟩, hcost⟩ := ih fun i hi => h i (by omega)
    obtain ⟨-, -, trial, rho'', -, hregion', -, hkind⟩ :=
      iterate_progress hregion (h n (by omega))
    refine ⟨⟨rho'', hregion'⟩, ?_⟩
    obtain hmoves | ⟨hstays, -⟩ := hkind
    · have hlower : Lower (u (n + 1)).progress.cost (u n).progress.cost :=
        hmoves.cost ▸ hmoves.lower
      obtain heq | hbelow := hcost
      · exact .inr (heq ▸ hlower)
      · exact .inr (hlower.trans hbelow)
    · rw [hstays.cost]
      exact hcost

/-- As long as the cost stays, every iteration leaves a quarter of the region; while the run goes
    on, it is not tiny. -/
theorem radius_of_unchanged (hs : Region M eta rho (u 0).solver)
    (h : Run.Consecutive ⟨solver, O, A, c⟩ u n)
    (hsame : ∀ i < n, (u (i + 1)).progress.cost = (u i).progress.cost) :
    Region M eta (rho / 4 ^ n) (u n).solver ∧
      (0 < n → OfSize (rho / 4 ^ n) (u n).progress) := by
  induction n with
  | zero => exact ⟨by simpa using hs, fun hn => absurd hn (lt_irrefl 0)⟩
  | succ n ih =>
    obtain ⟨hregion, -⟩ := ih (fun i hi => h i (by omega)) fun i hi => hsame i (by omega)
    obtain ⟨-, -, trial, rho', -, hregion', hgo, hkind⟩ :=
      iterate_progress hregion (h n (by omega))
    obtain hmoves | ⟨-, rfl⟩ := hkind
    · -- A run that moves changes its cost.
      exact absurd (hmoves.cost.symm.trans (hsame n (by omega))) hmoves.lower.ne
    · rw [div_div, ← pow_succ] at hregion' hgo
      exact ⟨hregion', fun _ => hgo⟩

variable [FloorSemiring K]

/-- A run does not stay at its point for long. -/
theorem length_le_of_unchanged {tol : K} (hs : Region M eta rho (u 0).solver)
    (htol : Scalar.sqrt machineEpsilon = (finite tol : Exact K)) (hpos : 0 < tol)
    (h : Run.Consecutive ⟨solver, O, A, c⟩ u n)
    (hsame : ∀ i < n, (u (i + 1)).progress.cost = (u i).progress.cost) :
    (n : ℤ) ≤ max 1 (Int.log 4 (M / tol) + 1) := by
  obtain hn | ⟨k, rfl⟩ : n ≤ 1 ∨ ∃ k, n = k + 2 :=
    if hn : n ≤ 1 then .inl hn else .inr ⟨n - 2, by omega⟩
  · exact le_max_of_le_left (by exact_mod_cast hn)
  · -- The last iteration starts from a region that the one before it has left.
    obtain ⟨hregion, hgo⟩ := radius_of_unchanged (n := k + 1) hs
      (fun i hi => h i (by omega)) fun i hi => hsame i (by omega)
    have hleft : tol ≤ rho / 4 ^ (k + 1) := hgo (by omega) tol htol (h (k + 1) (by omega)).running
    have hfour : (0 : K) < 4 ^ (k + 1) := by positivity
    have hquarters : (4 : K) ^ (k + 1) ≤ M / tol := by
      rw [le_div_iff₀ hpos]
      calc 4 ^ (k + 1) * tol ≤ 4 ^ (k + 1) * (rho / 4 ^ (k + 1)) :=
            mul_le_mul_of_nonneg_left hleft hfour.le
        _ = rho := mul_div_cancel₀ rho hfour.ne'
        _ ≤ M := hs.le
    have hlog : ((k + 1 : ℕ) : ℤ) ≤ Int.log 4 (M / tol) := by
      rw [← Int.zpow_le_iff_le_log (by norm_num) (div_pos (hs.pos.trans_le hs.le) hpos),
        zpow_natCast]
      exact_mod_cast hquarters
    refine le_max_of_le_right ?_
    push_cast at hlog ⊢
    omega

end Consecutive

/-- **Trust-region runs make progress**, whatever the operator answers and whatever is given as cost,
    gradient and Hessian at the start.  In all states that a run reaches the radius is positive and
    at most the largest one.  Every iteration moves to its trial point, whose cost is finite and
    strictly lower, or it stays and leaves a quarter of the radius; it stays where the cost of the
    trial point is not finite.  So costs never increase, and the number of iterations in a row that
    leave the point and its cost unchanged is bounded. -/
theorem run_progresses [FloorSemiring K] (A : Setting ω (Exact K)) (O : Observer η (Exact K))
    (c : RunConfig (Exact K)) (x : Tensor (Exact K)) (maxIters : Int) (cost? : Option (Exact K))
    (gradient? hessian? : Option (Tensor (Exact K))) (session : Session ω) (ws : List (Watch η))
    (d : Dogleg (Exact K)) (hs : make (.dogleg d) (finite rho) (finite M) (finite eta) = .ok s) :
    let P : Plan (TrustRegion (Exact K)) ω η (Exact K) := ⟨solver, O, A, c⟩
    let r : Run (TrustRegion (Exact K)) ω η (Exact K) :=
      ⟨Run.seeded x maxIters cost? gradient? hessian?, s, session, ws⟩
    (∀ t, Run.Reached P r t → ∃ radius, Region M eta radius t.solver) ∧
    (∀ t t', Run.Reached P r t → Run.Iterates P t t' → ∃ g h trial,
      Trial.Made A t.progress ⟨t.solver, t.session⟩ g h trial ∧
        (Moves t.progress trial t'.progress ∨ Stays t.progress t'.progress t.solver t'.solver) ∧
        (Scalar.isFinite trial.cost = false →
          Stays t.progress t'.progress t.solver t'.solver)) ∧
    (∀ u n, Run.Reached P r (u 0) → Run.Consecutive P u n →
      (u n).progress.cost = (u 0).progress.cost ∨
        Lower (u n).progress.cost (u 0).progress.cost) ∧
    ∀ u n tol, Run.Reached P r (u 0) → Run.Consecutive P u n →
      (∀ i < n, (u (i + 1)).progress.param = (u i).progress.param ∧
        (u (i + 1)).progress.cost = (u i).progress.cost) →
      Scalar.sqrt machineEpsilon = (finite tol : Exact K) → 0 < tol →
        (n : ℤ) ≤ max 1 (Int.log 4 (M / tol) + 1) := by
  intro P r
  -- Every reachable solver is a region, whose radius is positive and bounded.
  have hregion (t : Run (TrustRegion (Exact K)) ω η (Exact K)) (ht : Run.Reached P r t) :
      ∃ radius, Region M eta radius t.solver :=
    (region_contract A O c M eta).reached
      (fun session => ends_init_region A _ session (region_of_make hs)) ht
  refine ⟨hregion, fun t t' ht hit => ?_, fun u n hu hn => ?_,
    fun u n tol hu hn hsame htol hpos => ?_⟩
  -- One iteration: the point moves and the cost falls, or everything stays and the radius shrinks.
  · obtain ⟨radius, hradius⟩ := hregion t ht
    obtain ⟨g, h, trial, radius', hmade, -, -, hkind⟩ := iterate_progress hradius hit
    refine ⟨g, h, trial, hmade, hkind.imp_right And.left, fun hinfinite => ?_⟩
    obtain hmoves | ⟨hstays, -⟩ := hkind
    · obtain ⟨y, -, hy, -⟩ := hmoves.lower
      simp [hy] at hinfinite
    · exact hstays
  -- Several iterations: the cost falls or is what it was.
  · obtain ⟨radius, hradius⟩ := hregion _ hu
    exact (cost_le_of_consecutive hradius hn).2
  -- Iterations that stay divide the radius by four each time, until it is below the tolerance.
  · obtain ⟨radius, hradius⟩ := hregion _ hu
    exact length_le_of_unchanged hradius htol hpos hn fun i hi => (hsame i hi).2

/-! ### A ledge -/

section Ledge

/-- On a line, the cost at the origin and a slightly lower one to the left of it; it is infinite
    everywhere else. -/
def ledgeCost (x : Tensor (Exact ℚ)) : Exact ℚ :=
  if x.entries = [finite 0] then finite 0
  else if x.entries = [finite (-1 / 2 ^ 30)] then finite (-1 / 2 ^ 31)
  else .infinite false

/-- The derivatives promise a decrease further to the left all the time. -/
def ledgeOperator : Operator Unit (Exact ℚ) where
  name := "Problem"
  cost? := some fun x => pure (ledgeCost x)
  gradient? := some fun _ => pure (.ofVec .array ![1])
  hessian? := some fun _ => pure (.ofMat .array (Matrix.diagonal fun _ : Fin 1 => 2 ^ 30))

/-- A region that may shrink once before it is tiny. -/
def ledgeSettings : TrustRegion (Exact ℚ) :=
  ⟨.dogleg .unset, finite (1 / 2 ^ 24), finite (1 / 2 ^ 24), finite (1 / 8)⟩

/-- Ten iterations at most. -/
def ledgePlan : Plan (TrustRegion (Exact ℚ)) Unit Empty (Exact ℚ) :=
  ⟨solver, Run.noObserver, ⟨ledgeOperator, true⟩, ⟨10, -1.0, true⟩⟩

/-- From the origin on. -/
def ledgeStart : Run (TrustRegion (Exact ℚ)) Unit Empty (Exact ℚ) :=
  ⟨Run.seeded (.ofVec .array ![0]) 10 none none none, ledgeSettings, .start (), []⟩

/-- Three of them are made. -/
theorem ledge_goes : Run.Goes ledgePlan ledgeStart 3 where
  opens := by decide +kernel
  running := by decide +kernel
  undisturbed := by decide +kernel
  succeeds := by decide +kernel

/-- The state after so many iterations. -/
def ledgeState : ℕ → Run (TrustRegion (Exact ℚ)) Unit Empty (Exact ℚ) :=
  Run.stateAfter ledgePlan ledgeStart

/-- The first iteration moves, the other two stay, and then the run has stopped. -/
theorem run_progresses_ledge :
    make (.dogleg .unset) (finite (1 / 2 ^ 24)) (finite (1 / 2 ^ 24)) (finite (1 / 8)) =
      .ok ledgeSettings ∧
    (∃ radius, Region (1 / 2 ^ 24) (1 / 8) radius (ledgeState 3).solver) ∧
    (ledgeState 1).progress.cost ≠ (ledgeState 0).progress.cost ∧
    (∃ g h trial, Trial.Made ⟨ledgeOperator, true⟩ (ledgeState 0).progress
        ⟨(ledgeState 0).solver, (ledgeState 0).session⟩ g h trial ∧
      (Moves (ledgeState 0).progress trial (ledgeState 1).progress ∨
        Stays (ledgeState 0).progress (ledgeState 1).progress (ledgeState 0).solver
          (ledgeState 1).solver)) ∧
    ((ledgeState 3).progress.cost = (ledgeState 0).progress.cost ∨
      Lower (ledgeState 3).progress.cost (ledgeState 0).progress.cost) ∧
    (ledgeState 3).progress.reason = .targetTolerance ∧
    ((2 : ℕ) : ℤ) ≤ max 1 (Int.log 4 ((1 / 2 ^ 24 : ℚ) / (1 / 2 ^ 26)) + 1) := by
  have hmake : make (.dogleg .unset) (finite (1 / 2 ^ 24)) (finite (1 / 2 ^ 24)) (finite (1 / 8)) =
      .ok ledgeSettings :=
    make_eq_ok_iff.2 ⟨by norm_num, le_rfl, by norm_num, rfl⟩
  obtain ⟨hregion, hkind, hcosts, hlength⟩ := run_progresses ⟨ledgeOperator, true⟩ Run.noObserver
    ⟨10, -1.0, true⟩ (.ofVec .array ![0]) 10 none none none (.start ()) [] .unset hmake
  have hreached := ledge_goes.consecutive.reached ledge_goes.reached
  obtain ⟨g, h, trial, hmade, hfirst, -⟩ :=
    hkind _ _ (hreached 0 (by omega)) (ledge_goes.consecutive 0 (by omega))
  -- The last two iterations of the three leave point and cost.
  have hsame : ∀ i < 2,
      (ledgeState (1 + i + 1)).progress.param = (ledgeState (1 + i)).progress.param ∧
        (ledgeState (1 + i + 1)).progress.cost = (ledgeState (1 + i)).progress.cost := by
    decide +kernel
  exact ⟨hmake, hregion _ (hreached 3 le_rfl), by decide +kernel, ⟨g, h, trial, hmade, hfirst⟩,
    hcosts ledgeState 3 ledge_goes.reached ledge_goes.consecutive, by decide +kernel,
    hlength (fun i => ledgeState (1 + i)) 2 (1 / 2 ^ 26) (hreached 1 (by omega))
      (fun i hi => ledge_goes.consecutive (1 + i) (by omega)) hsame (by decide +kernel)
      (by norm_num)⟩

end Ledge

end Minimization.TrustRegion
