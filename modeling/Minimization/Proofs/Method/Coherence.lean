import Minimization.Method.SteepestDescent
import Minimization.Method.TrustRegion
import Minimization.Proofs.LineSearch.Descent
import Minimization.Proofs.Operator.Sphere
import Minimization.Proofs.QuasiNewton.Contract
import Minimization.Proofs.TrustRegion.Step

namespace Minimization

/-!
# What a run shows belongs together

Cost, gradient and Hessian that a run shows are those at the point it shows, although they come from
different evaluations, in different runs, and may have been given wrong at the start.

* `TrustRegion.Holds`, `TrustRegion.contract` — the contract of a trust-region run.
* `SteepestDescent.ends_step_searched` — a step of steepest descent carries out one search along the
  negative gradient, from the cost and the gradient that it has just evaluated, and reports what the
  search has found.
* `SteepestDescent.Holds`, `SteepestDescent.contract` — the contract of steepest descent, which
  looks at the cost of its point in the first iteration only.
* `Run.reached_coherent` — the three methods together.
-/

variable {K ω η α : Type}

/-! ### Trust regions -/

namespace TrustRegion

variable [Scalar α]

/-- Between two iterations. -/
structure Holds (f : Tensor α → α) (g h : Tensor α → Tensor α) (p : Progress α) : Prop where
  cost : p.cost = f p.param
  gradient : p.gradient = some (g p.param)
  hessian : p.hessian = some (h p.param)
  best : p.Best f

variable {A : Setting ω α} {f : Tensor α → α} {g h : Tensor α → Tensor α} {p : Progress α}
  {s : TrustRegion α} {session : Session ω}

/-- Reports of a point with all that is known there. -/
theorem Holds.update (hp : p.Best f) (x : Tensor α) (notes : Notes α) :
    Holds f g h (p.update ⟨some x, some (f x), some (g x), some (h x), notes⟩).1 where
  cost := by simp
  gradient := by simp
  hessian := by simp
  best := hp.update rfl rfl

/-- Neither counting an iteration nor stopping shows. -/
theorem Holds.increment (hp : Holds f g h p) : Holds f g h p.increment :=
  ⟨hp.cost, hp.gradient, hp.hessian, hp.best⟩

/-- The reason is no part of it. -/
theorem Holds.stopped (hp : Holds f g h p) (reason : Reason) :
    Holds f g h { p with reason := reason } :=
  ⟨hp.cost, hp.gradient, hp.hessian, hp.best⟩

/-- All is evaluated at the start, whatever is known there. -/
theorem ends_init (hA : A.operator.Deterministic f g h) (hp : p.Best f) :
    (solver.init A p).Ends ⟨s, session⟩ (fun report? _ => Holds f g h (Run.started p report?))
      fun _ => True := by
  -- Cost, gradient and Hessian are evaluated at the same point, one after the other.
  refine ends_init_iff.2 ((hA.ends_cost _).mono ?_)
  rintro c t rfl
  refine (hA.ends_gradient _).mono ?_
  rintro v t' rfl
  refine (hA.ends_hessian _).mono ?_
  rintro m t'' rfl
  exact .update hp _ _

/-- An iteration reports a new point with all that is known there, or the old one. -/
theorem ends_step (hA : A.operator.Deterministic f g h) (hp : Holds f g h p) :
    (solver.step A p).Ends ⟨s, session⟩
      (fun report _ => Holds f g h (p.update report).1.increment) fun _ => True := by
  refine (ends_step_trial A p s session).mono ?_
  rintro report w ⟨v, m, t, hmade, hreports, -⟩
  cases hreports with
  | @taken v' m' notes htaken hv hm =>
    -- Cost and derivatives are evaluated where the step leads.
    obtain hcost : t.cost = f t.point := hmade.cost.of_ends fun _ => hA.ends_cost _
    obtain rfl : v' = g t.point := hv.of_ends fun _ => hA.ends_gradient _
    obtain rfl : m' = h t.point := hm.of_ends fun _ => hA.ends_hessian _
    rw [hcost]
    exact (Holds.update hp.best _ _).increment
  | kept notes hkept =>
    -- The point stays, and what is known there is reported once more.
    obtain rfl : g p.param = v := Option.some.inj (hp.gradient.symm.trans hmade.gradient)
    obtain rfl : h p.param = m := Option.some.inj (hp.hessian.symm.trans hmade.hessian)
    rw [hp.cost]
    exact (Holds.update hp.best _ _).increment

/-- **The contract of a trust-region run.** -/
theorem contract (hA : A.operator.Deterministic f g h) (O : Observer η α) (c : RunConfig α) :
    Run.Contract ⟨solver, O, A, c⟩ (fun p _ => Holds f g h p) (fun p _ => Holds f g h p)
      fun _ => True :=
  .anyhow (fun _ hp => hp.stopped _) (fun _ hp _ => ends_step hA hp)
    fun _ hp => (Action.ends_anyhow _ _).mono fun _ _ _ => hp.stopped _

end TrustRegion

/-! ### Steepest descent -/

namespace SteepestDescent

variable [Field K] [LinearOrder K] [Roots K]

/-- Between two iterations; before the first one the cost may be anything. -/
structure Holds (b : Backend) (shape : List Nat) (f : Tensor (Exact K) → Exact K)
    (p : Progress (Exact K)) (s : LineSearch (Exact K)) : Prop where
  sound : s.Sound
  param : p.param.IsReal b shape
  cost : 0 < p.iter → p.cost = f p.param
  best : p.Best f

variable {A : Setting ω (Exact K)} {b : Backend} {shape : List Nat}
  {f : Tensor (Exact K) → Exact K} {g h : Tensor (Exact K) → Tensor (Exact K)}
  {p : Progress (Exact K)} {s : LineSearch (Exact K)} {session : Session ω}

/-- The reason does not show here, either. -/
theorem Holds.stopped (hp : Holds b shape f p s) (reason : Reason) :
    Holds b shape f { p with reason := reason } s :=
  ⟨hp.sound, hp.param, hp.cost, hp.best⟩

variable [IsStrictOrderedRing K]

/-- Finite numbers along the same axes give a line. -/
theorem exists_ray {b : Backend} {shape : List Nat} {x v : Tensor (Exact K)} (hx : x.IsReal b shape)
    (hv : v.IsReal b shape) : ∃ r : Ray K, r.backend = b ∧ r.shape = shape ∧ r.start = x ∧
      r.way = b.scale v (-1.0) := by
  obtain ⟨xs, hxs, rfl⟩ := hx
  obtain ⟨vs, hvs, rfl⟩ := hv
  refine ⟨⟨b, shape, xs, vs.map (· * -1), hxs, by rw [List.length_map, hvs]⟩, rfl, rfl, rfl, ?_⟩
  rw [Exact.lit_one, Exact.finite_neg, Backend.scale_real]
  rfl

/-- **A step carries out one search** and reports what it has found. -/
theorem ends_step_searched (hA : A.operator.Deterministic f g h) (hx : p.param.IsReal b shape)
    (hg : (g p.param).IsReal b shape) (hs : s.Sound) :
    (solver.step A p).Ends ⟨s, session⟩
      (fun report w => ∃ r found session', r.backend = b ∧ r.shape = shape ∧ r.start = p.param ∧
        r.way = b.scale (g p.param) (-1.0) ∧ LineSearch.Searched A r f g s session' found w ∧
          report = { param := some found.param, cost := some found.cost }) fun _ => True := by
  have hbackend : p.param.backend = b := by
    obtain ⟨xs, -, hxs⟩ := hx
    rw [hxs, Tensor.backend_real]
  obtain ⟨r, hb, hshape, hstart, hway⟩ := exists_ray hx hg
  have hterrain : Line.Terrain A r f g fun _ => True :=
    ⟨.of_deterministic hA.cost _, .of_deterministic hA.gradient _, fun _ _ _ => trivial⟩
  refine ends_step_iff.2 ((hA.ends_cost _).mono ?_)
  rintro c t rfl
  refine (hA.ends_gradient _).mono ?_
  rintro v t' rfl
  rw [hbackend, ← hway, ← hstart]
  -- The search is handed what has just been evaluated at its origin.
  refine (LineSearch.ends_run_searched hterrain hs (fun _ _ => .inr (.inr trivial))
    fun _ => .inr fun _ _ => trivial).mono ?_
  intro found w hfound
  exact ⟨r, found, t', hb, hshape, rfl, rfl, hfound, rfl⟩

/-- An iteration reports what its line search has found. -/
theorem ends_step (hA : A.operator.Deterministic f g h)
    (hg : ∀ x, x.IsReal b shape → (g x).IsReal b shape) (hp : Holds b shape f p s) :
    (solver.step A p).Ends ⟨s, session⟩
      (fun report w => Holds b shape f (p.update report).1.increment w.solver) fun _ => True := by
  refine (ends_step_searched hA hp.param (hg _ hp.param) hp.sound).mono ?_
  rintro report w ⟨r, found, session', rfl, rfl, -, -, hsearched, rfl⟩
  -- The search hands over its last trial point together with the cost evaluated there.
  have hfound := hsearched.found
  obtain ⟨⟨a, ha⟩, hcost⟩ := hfound.stage.coherent
  refine ⟨hfound.sound hp.sound, ?_, fun _ => ?_, hp.best.update rfl (by rw [hcost])⟩
  · simpa [ha] using r.isReal_point a
  · simp [hcost]

/-- **The contract of steepest descent.** -/
theorem contract (hA : A.operator.Deterministic f g h)
    (hg : ∀ x, x.IsReal b shape → (g x).IsReal b shape) (O : Observer η (Exact K))
    (c : RunConfig (Exact K)) :
    Run.Contract ⟨solver, O, A, c⟩ (Holds b shape f) (Holds b shape f) fun _ => True :=
  .anyhow (fun _ hp => hp.stopped _) (fun _ hp _ => ends_step hA hg hp) fun _ hp => hp.stopped _

end SteepestDescent

/-! ### The three methods -/

namespace Run

variable [Field K] [LinearOrder K] [Roots K] [IsStrictOrderedRing K]

/-- **What a run shows belongs together**, from any start and whatever was given as cost, gradient
    and Hessian there.  The operator may fail, but where it answers, it answers by `f`, `g` and `h`;
    the gradients that the line searches follow are finite numbers along the axes of the point. -/
theorem reached_coherent (A : Setting ω (Exact K)) {f : Tensor (Exact K) → Exact K}
    {g h : Tensor (Exact K) → Tensor (Exact K)} (hA : A.operator.Deterministic f g h)
    (O : Observer η (Exact K)) (c : RunConfig (Exact K)) (maxIters : Int) (cost? : Option (Exact K))
    (gradient? hessian? : Option (Tensor (Exact K))) (session : Session ω) (ws : List (Watch η)) :
    (∀ (b : Backend) (n : Nat) (x : Fin n → K) (H : Matrix (Fin n) (Fin n) K)
      (search : LineSearch (Exact K)), search.Sound →
      (∀ x : Fin n → K, ∃ v : Fin n → K, g (.ofVec b x) = .ofVec b v) →
      ∀ t, Reached ⟨QuasiNewton.solver, O, A, c⟩ ⟨seeded (.ofVec b x) maxIters cost? gradient?
          hessian?, ⟨.ofMat b H, search⟩, session, ws⟩ t →
        t.progress.cost = f t.progress.param ∧ t.progress.gradient = some (g t.progress.param) ∧
          t.progress.Best f) ∧
    (∀ (x : Tensor (Exact K)) (s : TrustRegion (Exact K)),
      ∀ t, Reached ⟨TrustRegion.solver, O, A, c⟩ ⟨seeded x maxIters cost? gradient? hessian?, s,
          session, ws⟩ t →
        t.progress.cost = f t.progress.param ∧ t.progress.gradient = some (g t.progress.param) ∧
          t.progress.hessian = some (h t.progress.param) ∧ t.progress.Best f) ∧
    (∀ (b : Backend) (shape : List Nat) (x : Tensor (Exact K)) (search : LineSearch (Exact K)),
      x.IsReal b shape → search.Sound → (∀ y, y.IsReal b shape → (g y).IsReal b shape) →
      ∀ t, Reached ⟨SteepestDescent.solver, O, A, c⟩ ⟨seeded x maxIters cost? gradient? hessian?,
          search, session, ws⟩ t →
        (0 < t.progress.iter → t.progress.cost = f t.progress.param) ∧ t.progress.Best f) := by
  refine ⟨fun b n x H search hsearch hg t ht => ?_, fun x s t ht => ?_,
    fun b shape x search hx hsearch hg t ht => ?_⟩
  -- The quasi-Newton method, over vectors whose gradients are vectors.
  · obtain ⟨hparam, -, -, hbest⟩ := seeded_fields (.ofVec b x) maxIters cost? gradient? hessian?
    choose G hG using hg
    have hground := QuasiNewton.Ground.of_deterministic hA hG
    have hinit : Contract.Inits ⟨QuasiNewton.solver, O, A, c⟩ ⟨seeded (.ofVec b x) maxIters cost?
        gradient? hessian?, ⟨.ofMat b H, search⟩, session, ws⟩
        (QuasiNewton.Holds b f g fun _ : Matrix (Fin n) (Fin n) K => True) fun _ => True :=
      fun _ => QuasiNewton.ends_init hground hparam (.of_infinite hbest) hsearch ⟨H, rfl, trivial⟩
    have hholds := (QuasiNewton.contract hground O.failsAnyhow c).reached hinit ht
    exact ⟨hholds.cost, hholds.gradient, hholds.best⟩
  -- The trust region, over any tensors.
  · obtain ⟨-, -, -, hbest⟩ := seeded_fields x maxIters cost? gradient? hessian?
    have hholds := (TrustRegion.contract hA O c).reached
      (fun _ => TrustRegion.ends_init hA (.of_infinite hbest)) ht
    exact ⟨hholds.cost, hholds.gradient, hholds.hessian, hholds.best⟩
  -- Steepest descent: the given cost need not be that of the point, hence the claim from the first
  -- iteration on.
  · obtain ⟨hparam, -, -, hbest⟩ := seeded_fields x maxIters cost? gradient? hessian?
    obtain ⟨hiter, -, -⟩ := seeded_unstarted x maxIters cost? gradient? hessian?
    have hstart : SteepestDescent.Holds b shape f (seeded x maxIters cost? gradient? hessian?)
        search :=
      ⟨hsearch, by rw [hparam]; exact hx, fun h => absurd h (by simp [hiter]), .of_infinite hbest⟩
    have hinit : Contract.Inits ⟨SteepestDescent.solver, O, A, c⟩ ⟨seeded x maxIters cost? gradient?
        hessian?, search, session, ws⟩ (SteepestDescent.Holds b shape f) fun _ => True :=
      fun _ => hstart
    have hholds := (SteepestDescent.contract hA hg O c).reached hinit ht
    exact ⟨hholds.cost, hholds.best⟩

/-- A run that returns after an iteration has reached a state after one. -/
theorem exists_reached {σ : Type} [Scalar α] {P : Plan σ ω η α} {r : Run σ ω η α}
    (hr : r.progress.reason = .notTerminated) (hok : ((execute P).exec r).1.isOk = true)
    (hiter : 0 < ((execute P).exec r).2.progress.iter) :
    ∃ t, Reached P r t ∧ 0 < t.progress.iter := by
  obtain ⟨-, t, ht, -, hsame | ⟨-, reason, hsame⟩⟩ | ⟨e, he, -⟩ :=
    execute_reached P hr (Action.exec_eq_of_isOk hok)
  · rw [hsame] at hiter
    exact ⟨t, ht, hiter⟩
  · rw [hsame] at hiter
    exact ⟨t, ht, hiter⟩
  · cases he

/-- The Hessian of the sphere function in two dimensions. -/
def sphereHessian : Tensor (Exact ℚ) := .ofMat .array (Matrix.diagonal fun _ : Fin 2 => 2)

/-- The sphere function with its Hessian. -/
def curvedSphere : Operator Unit (Exact ℚ) :=
  { sphereOperator with hessian? := some fun _ => pure sphereHessian }

/-- It answers with the function, its gradient and its Hessian. -/
theorem curvedSphere_deterministic :
    curvedSphere.Deterministic sphere sphereGradient fun _ => sphereHessian where
  cost := by
    rintro x host c host' ⟨⟩
    rfl
  gradient := by
    rintro x host v host' ⟨⟩
    rfl
  hessian := by
    rintro x host m host' ⟨⟩
    rfl

/-- Two iterations on the sphere function. -/
def spherePlan {σ : Type} (S : Solver σ Unit (Exact ℚ)) : Plan σ Unit Empty (Exact ℚ) :=
  ⟨S, noObserver, ⟨curvedSphere, true⟩, ⟨2, -1.0, true⟩⟩

/-- From the point `(3, 4)`, with a cost that is wrong. -/
def sphereStart {σ : Type} (s : σ) : Run σ Unit Empty (Exact ℚ) :=
  ⟨seeded (.ofVec .array ![3, 4]) 2 (some 7.0) none none, s, .start (), []⟩

/-- Backtracking that halves the step length. -/
def halvedSteps : LineSearch (Exact ℚ) :=
  .backtracking ⟨⟨none, 1.0, 10, 0, none, none⟩, 0.25, 0.5, 1.0⟩

/-- A start with a wrong cost, and an iteration of either method that has put it right. -/
theorem reached_coherent_sphere :
    curvedSphere.Deterministic sphere sphereGradient (fun _ => sphereHessian) ∧ halvedSteps.Sound ∧
    (∃ t, Reached (spherePlan QuasiNewton.solver) (sphereStart
        ⟨.ofMat .array (1 : Matrix (Fin 2) (Fin 2) ℚ), halvedSteps⟩) t ∧ 0 < t.progress.iter ∧
      t.progress.cost = sphere t.progress.param ∧
        t.progress.gradient = some (sphereGradient t.progress.param) ∧ t.progress.Best sphere) ∧
    (∃ t, Reached (spherePlan TrustRegion.solver) (sphereStart
        ⟨.dogleg .unset, 10.0, 100.0, 0.125⟩) t ∧ 0 < t.progress.iter ∧
      t.progress.cost = sphere t.progress.param ∧
        t.progress.gradient = some (sphereGradient t.progress.param) ∧
          t.progress.hessian = some sphereHessian ∧ t.progress.Best sphere) ∧
    ∃ t, Reached (spherePlan SteepestDescent.solver) (sphereStart halvedSteps) t ∧
      0 < t.progress.iter ∧ (0 < t.progress.iter → t.progress.cost = sphere t.progress.param) ∧
        t.progress.Best sphere := by
  have hsphere := curvedSphere_deterministic
  have hsound : halvedSteps.Sound :=
    ⟨⟨1, by decide, by decide +kernel⟩, 1 / 2, by decide +kernel, by decide +kernel⟩
  obtain ⟨hquasi, htrust, hsteepest⟩ := reached_coherent ⟨curvedSphere, true⟩ hsphere noObserver
    ⟨2, -1.0, true⟩ 2 (some 7.0) none none (.start ()) []
  refine ⟨hsphere, hsound, ?_, ?_, ?_⟩
  · obtain ⟨t, ht, hiter⟩ := exists_reached (P := spherePlan QuasiNewton.solver)
      (r := sphereStart ⟨.ofMat .array (1 : Matrix (Fin 2) (Fin 2) ℚ), halvedSteps⟩) rfl
      (by decide +kernel) (by decide +kernel)
    exact ⟨t, ht, hiter, hquasi .array 2 ![3, 4] 1 halvedSteps hsound
      (fun x => ⟨2 • x, sphereGradient_ofVec x⟩) t ht⟩
  · obtain ⟨t, ht, hiter⟩ := exists_reached (P := spherePlan TrustRegion.solver)
      (r := sphereStart ⟨.dogleg .unset, 10.0, 100.0, 0.125⟩) rfl
      (by decide +kernel) (by decide +kernel)
    exact ⟨t, ht, hiter, htrust _ _ t ht⟩
  · obtain ⟨t, ht, hiter⟩ := exists_reached (P := spherePlan SteepestDescent.solver)
      (r := sphereStart halvedSteps) rfl (by decide +kernel) (by decide +kernel)
    refine ⟨t, ht, hiter, hsteepest .array [2] _ halvedSteps ⟨[3, 4], rfl, rfl⟩ hsound ?_ t ht⟩
    rintro _ ⟨xs, hxs, rfl⟩
    exact ⟨xs.map (2 * ·), by simpa using hxs, sphereGradient_real [2] xs⟩

end Run

end Minimization
