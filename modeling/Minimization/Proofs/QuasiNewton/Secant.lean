import Minimization.Proofs.Coupling.Alone
import Minimization.Proofs.LineSearch.Wolfe
import Minimization.Proofs.QuasiNewton.Cone

namespace Minimization

open Minimization Matrix

/-!
# Accepted steps and the secant equation

A step length that meets the strong Wolfe conditions leads to a point where the gradient along the
direction has risen far enough for the update of the inverse Hessian.

* `LineSearch.Searched.accepted` — a search for the strong Wolfe conditions that has met them has
  ended at a step length where the slope is small.
* `QuasiNewton.corrected_mulVec` — the updated matrix maps the change of the gradient to the step.
* `QuasiNewton.Secant`, `QuasiNewton.secant_of_flat` — what such a step length means for the update.
* `QuasiNewton.step_of_found`, `QuasiNewton.ends_learn` — an iteration after its search, which writes
  to no logger.
* `QuasiNewton.accepted_updates` — all iterations of a run from a definite matrix.
-/

variable {K ω η : Type} [Field K] [LinearOrder K] [Roots K] {n : Nat}

/-- **Conditions that have been met** hold at the step length of the point that is shown: it is
    positive, and the slope there is small. -/
theorem LineSearch.Searched.accepted {A : Setting ω (Exact K)} {r : Ray K}
    {f : Tensor (Exact K) → Exact K} {g : Tensor (Exact K) → Tensor (Exact K)}
    {s : StrongWolfe (Exact K)} {session : Session ω} {found : Progress (Exact K)}
    {w : Workspace (LineSearch (Exact K)) ω}
    (h : Searched A r f g (.strongWolfe s) session found w) (hstill : ¬r.Still)
    (hreason : found.reason = .lineSearchCondition) :
    ∃ a there slope, 0 < a ∧ found.param = r.point a ∧
      r.backend.dot (g r.start) r.way = .ok slope ∧
        r.backend.dot (g (r.point a)) r.way = .ok there ∧
          Scalar.le (Scalar.abs there) (-s.curvature * slope) = true := by
  have hown := h.reason_eq hreason
  have hstage := h.found.stage
  -- The first two searches are none for the strong Wolfe conditions.
  cases hw : w.solver with
  | backtracking s' =>
    rw [hw] at hstage
    obtain ⟨⟨_, hs⟩, -⟩ := hstage
    cases hs
  | unsuited text =>
    rw [hw] at hstage
    exact hstage.elim
  | strongWolfe s' =>
    rw [hw] at hstage hown
    obtain ⟨_, hs, slope, a, hslope, hkeeps, -⟩ := hstage
    obtain rfl := LineSearch.strongWolfe.inj hs
    obtain ⟨k, -, -, -, hverdict⟩ := hkeeps.holds.bracket
    -- The condition is met along no way at all, which is excluded, or at an accepted point.
    rw [done_of_reason hown] at hverdict
    cases hverdict with
    | still hstill' => exact absurd hstill' hstill
    | accepted ha hthere hflat => exact ⟨a, _, slope, ha, hkeeps.param, hslope, hthere, hflat⟩

namespace QuasiNewton

/-! ### The secant equation -/

section
variable {H : Matrix (Fin n) (Fin n) K} {s y : Fin n → K}

omit [LinearOrder K] [Roots K] in
/-- **The secant equation.** -/
theorem corrected_mulVec (h : y ⬝ᵥ s ≠ 0) : corrected H s y *ᵥ y = s := by
  have hone : 1 / y ⬝ᵥ s * s ⬝ᵥ y = 1 := by
    rw [dotProduct_comm s y]
    exact one_div_mul_cancel h
  -- The transposed factor sends `y` to zero, so only the last summand is left.
  have hfactor : (1 - ((1 / y ⬝ᵥ s) • vecMulVec s y)ᵀ) *ᵥ y = 0 := by
    rw [factor_mulVec, hone, one_smul, sub_self]
  rw [corrected, add_mulVec, ← mulVec_mulVec, ← mulVec_mulVec, hfactor, mulVec_zero, mulVec_zero,
    zero_add, smul_mulVec, vecMulVec_mulVec, op_smul_eq_smul, smul_smul, hone, one_smul]

end

/-- A step of the length `a` from `x` to `x'` that updates the matrix `H` to `H'`: the curvature is
    bounded from below by the slope at `x`, and `H'` maps the change of the gradient to the step. -/
structure Secant (G : (Fin n → K) → Fin n → K) (c₂ a : K) (x x' : Fin n → K)
    (H H' : Matrix (Fin n) (Fin n) K) : Prop where
  length : 0 < a
  point : x' = x + a • -(H *ᵥ G x)
  positive : 0 < a * (1 - c₂) * -(G x ⬝ᵥ -(H *ᵥ G x))
  curvature : a * (1 - c₂) * -(G x ⬝ᵥ -(H *ᵥ G x)) ≤ (G x' - G x) ⬝ᵥ (x' - x)
  updated : H' = corrected H (x' - x) (G x' - G x)
  secant : H' *ᵥ (G x' - G x) = x' - x

omit [Roots K] in
/-- **A small slope is curvature**: between the two points the slope has risen by a fraction of what
    it was. -/
theorem secant_of_flat [IsStrictOrderedRing K] {G : (Fin n → K) → Fin n → K} {c₂ a : K}
    {x : Fin n → K} {H : Matrix (Fin n) (Fin n) K} (hc : c₂ < 1) (ha : 0 < a)
    (hdown : G x ⬝ᵥ -(H *ᵥ G x) < 0)
    (hflat : |G (x + a • -(H *ᵥ G x)) ⬝ᵥ -(H *ᵥ G x)| ≤ -c₂ * (G x ⬝ᵥ -(H *ᵥ G x))) :
    Secant G c₂ a x (x + a • -(H *ᵥ G x)) H
      (corrected H (x + a • -(H *ᵥ G x) - x) (G (x + a • -(H *ᵥ G x)) - G x)) := by
  have hpositive : 0 < a * (1 - c₂) * -(G x ⬝ᵥ -(H *ᵥ G x)) :=
    mul_pos (mul_pos ha (sub_pos.2 hc)) (neg_pos.2 hdown)
  -- The condition bounds the slope at the new point, so the gradients differ by at least this much along
  -- the step.
  have hcurvature : a * (1 - c₂) * -(G x ⬝ᵥ -(H *ᵥ G x)) ≤
      (G (x + a • -(H *ᵥ G x)) - G x) ⬝ᵥ (x + a • -(H *ᵥ G x) - x) := by
    have hthere := neg_le_of_abs_le hflat
    rw [add_sub_cancel_left, dotProduct_smul, sub_dotProduct, smul_eq_mul, mul_assoc]
    refine mul_le_mul_of_nonneg_left ?_ ha.le
    linarith
  exact ⟨ha, rfl, hpositive, hcurvature, rfl,
    corrected_mulVec (hpositive.trans_le hcurvature).ne'⟩

/-! ### An iteration after its search -/

section
variable {α : Type} [Scalar α]

/-- **An iteration is its search and what it learns from that.** -/
theorem step_of_found {A : Setting ω α} {p : Progress α} {s : QuasiNewton α} {session : Session ω}
    {gradient image : Tensor α} {found : Progress α} {v : Workspace (LineSearch α) ω}
    (hgradient : p.requireGradient = .ok gradient)
    (himage : Backend.apply s.inverseHessian gradient = .ok image)
    (hsearch : (LineSearch.run A p.param (some (p.param.backend.scale image (-1.0))) (some p.cost)
      (some gradient)).exec ⟨s.search, session⟩ = (.ok found, v)) :
    (solver.step A p).exec ⟨s, session⟩ =
      (learn A p.param gradient s.inverseHessian found).exec ⟨{ s with search := v.solver },
        v.session⟩ := by
  -- The search is run inside the solver, and what it returns is put back there.
  have hwithin : (Workspace.within (·.search) (fun search s => { s with search := search })
      (LineSearch.run A p.param (some (p.param.backend.scale image (-1.0))) (some p.cost)
        (some gradient))).exec ⟨s, session⟩ =
          (.ok found, ⟨{ s with search := v.solver }, v.session⟩) := by
    unfold Workspace.within
    rw [Action.exec_focus, hsearch]
  show (step A p).exec _ = _
  rw [step_parts, Action.exec_bind, exec_aim hgradient himage]
  dsimp only
  rw [Action.exec_bind, hwithin]

end

variable [IsStrictOrderedRing K] {A : Setting ω (Exact K)} {b : Backend}
  {g : Tensor (Exact K) → Tensor (Exact K)} {G : (Fin n → K) → Fin n → K}
  {E : Failure (Exact K) → Prop}

/-- With positive curvature an iteration updates the matrix and writes to no logger. -/
theorem ends_learn (hA : Answers A.operator.gradient (Tensor.IsReal b [n]) g E)
    (hG : ∀ x, g (.ofVec b x) = .ofVec b (G x)) {x x' : Fin n → K}
    {H : Matrix (Fin n) (Fin n) K} (hpos : 0 < (G x' - G x) ⬝ᵥ (x' - x))
    {found : Progress (Exact K)} (hfound : found.param = .ofVec b x')
    (w : Workspace (QuasiNewton (Exact K)) ω) :
    (learn A (.ofVec b x) (.ofVec b (G x)) (.ofMat b H) found).Ends w
      (fun report w' => report.param = some (.ofVec b x') ∧
        w'.solver = ⟨.ofMat b (corrected H (x' - x) (G x' - G x)), w.solver.search⟩ ∧
          w'.session.logbook = w.session.logbook) E := by
  rw [ends_learn_iff, hfound]
  refine (Session.ends_evaluate ..).2 ((hA _ w.session.host (isReal_ofVec x')).mono ?_)
  rintro v host rfl
  -- The curvature is positive, so the update corrects the matrix.
  rw [hG, revision_ofVec, if_pos hpos, Action.ends_ofExcept_ok]
  exact ⟨rfl, rfl, rfl⟩

/-! ### All iterations of a run -/

variable {f : Tensor (Exact K) → Exact K}

/-- The ground of a run from a definite matrix, whatever fails. -/
theorem ground_definite [LawfulRoots K]
    (hf : Answers A.operator.cost (Tensor.IsReal b [n]) f fun _ => True)
    (hg : Answers A.operator.gradient (Tensor.IsReal b [n]) g fun _ => True)
    (hG : ∀ x, g (.ofVec b x) = .ofVec b (G x)) :
    Ground A b f g G Definite fun _ => True where
  cost := hf
  gradient := hg
  vector := hG
  refined _ s y hH := hH.refined s y
  descent _ _ _ := .inr (.inr trivial)
  findings := ⟨fun _ _ => trivial, fun _ => trivial⟩

/-- What a run keeps: a definite matrix, and the settings of its search. -/
structure Settled (b : Backend) (f : Tensor (Exact K) → Exact K)
    (g : Tensor (Exact K) → Tensor (Exact K)) (n : Nat) (search : LineSearch (Exact K))
    (p : Progress (Exact K)) (s : QuasiNewton (Exact K)) : Prop where
  holds : Holds b f g (Definite (n := n)) p s
  settings : s.search.blank = search.blank

/-- Every state that a run reaches is settled. -/
theorem reached_settled (hA : Ground A b f g G Definite fun _ => True) (O : Observer η (Exact K))
    (c : RunConfig (Exact K)) (x : Fin n → K) {H : Matrix (Fin n) (Fin n) K} (hH : Definite H)
    {search : LineSearch (Exact K)} (hsearch : search.Sound) (maxIters : Int)
    (cost? : Option (Exact K)) (gradient? hessian? : Option (Tensor (Exact K)))
    (session : Session ω) (ws : List (Watch η)) {t : Run (QuasiNewton (Exact K)) ω η (Exact K)}
    (ht : Run.Reached ⟨solver, O, A, c⟩ ⟨Run.seeded (.ofVec b x) maxIters cost? gradient? hessian?,
      ⟨.ofMat b H, search⟩, session, ws⟩ t) :
    Settled b f g n search t.progress t.solver := by
  obtain ⟨hparam, -, -, hbest⟩ := Run.seeded_fields (.ofVec b x) maxIters cost? gradient? hessian?
  have hcontract : Run.Contract ⟨solver, O, A, c⟩ (Settled b f g n search)
      (Settled b f g n search) fun _ => True := by
    -- Every step ends with the settings that the search began with, in whatever state.
    refine .anyhow (fun _ h => ⟨h.holds.stopped _, h.settings⟩) (fun {p s} t h _ => ?_) fun _ h => ?_
    · refine (ends_step hA h.holds).executed.mono ?_
      rintro report w ⟨hexec, hholds⟩
      have hblank := blank_step A p ⟨s, t⟩
      rw [hexec] at hblank
      exact ⟨hholds, hblank.trans h.settings⟩
    · exact (ends_terminate hA h.holds).mono fun _ _ hw => hw ▸ ⟨h.holds.stopped _, h.settings⟩
  have hinit : Run.Contract.Inits ⟨solver, O, A, c⟩ ⟨Run.seeded (.ofVec b x) maxIters cost?
      gradient? hessian?, ⟨.ofMat b H, search⟩, session, ws⟩ (Settled b f g n search)
      fun _ => True := by
    intro session'
    refine ((ends_init hA hparam (.of_infinite hbest) hsearch ⟨H, rfl, hH⟩).also
      (ends_init_frame A _ _ _)).mono ?_
    rintro report? w ⟨hholds, hsame⟩
    exact ⟨hholds, by rw [hsame]⟩
  exact hcontract.reached hinit ht

omit [Field K] [LinearOrder K] [Roots K] [IsStrictOrderedRing K] in
/-- A search with the settings of a search for the strong Wolfe conditions is one. -/
theorem exists_of_settings {search : LineSearch (Exact K)} {s : StrongWolfe (Exact K)}
    (h : search.blank = (LineSearch.strongWolfe s).blank) :
    ∃ s', search = .strongWolfe s' ∧ s'.curvature = s.curvature := by
  cases search with
  | strongWolfe s' =>
    have hcurvature : s'.blank.curvature = s.blank.curvature :=
      congrArg StrongWolfe.curvature (LineSearch.strongWolfe.inj h)
    exact ⟨s', rfl, hcurvature⟩
  | backtracking s' => cases h
  | unsuited text => cases h

/-- **Accepted steps update the matrix.**  In a run from a definite matrix, with any checked constants
    of the search, of which only `c₂ < 1` matters, any number of trials, any first step length, and from
    whatever was given as cost, gradient and Hessian: whenever the search of an iteration at a gradient
    that is not zero meets the strong Wolfe conditions, the iteration succeeds, the curvature of its
    step is bounded from below, it updates the matrix, which maps the change of the gradient to the
    step from now on, and it does not warn of a skipped update.  The operator answers by `f` and `g`,
    which need not be related; only its costs may fail. -/
theorem accepted_updates [LawfulRoots K] (A : Setting ω (Exact K)) (O : Observer η (Exact K))
    (c : RunConfig (Exact K)) (b : Backend) (f : Tensor (Exact K) → Exact K)
    (g : Tensor (Exact K) → Tensor (Exact K)) (G : (Fin n → K) → Fin n → K)
    (hf : Answers A.operator.cost (Tensor.IsReal b [n]) f fun _ => True)
    (hg : Answers A.operator.gradient (Tensor.IsReal b [n]) g fun _ => False)
    (hG : ∀ x, g (.ofVec b x) = .ofVec b (G x)) {s : StrongWolfe (Exact K)} {c₂ : K}
    (hs : s.Sound) (hcurvature : s.curvature = .finite c₂) (hc₂ : c₂ < 1)
    (x₀ : Fin n → K) {H₀ : Matrix (Fin n) (Fin n) K} (hH₀ : Definite H₀) (maxIters : Int)
    (cost? : Option (Exact K)) (gradient? hessian? : Option (Tensor (Exact K)))
    (session : Session ω) (ws : List (Watch η)) {t : Run (QuasiNewton (Exact K)) ω η (Exact K)}
    (ht : Run.Reached ⟨solver, O, A, c⟩ ⟨Run.seeded (.ofVec b x₀) maxIters cost? gradient? hessian?,
      ⟨.ofMat b H₀, .strongWolfe s⟩, session, ws⟩ t) :
    ∃ x H, InCone b G t.progress t.solver x H ∧ ∀ found v, G x ≠ 0 →
      (LineSearch.run A t.progress.param (some (.ofVec b (-(H *ᵥ G x)))) (some t.progress.cost)
        t.progress.gradient).exec ⟨t.solver.search, t.session⟩ = (.ok found, v) →
      found.reason = .lineSearchCondition →
      ∃ a x' H' report w, Secant G c₂ a x x' H H' ∧ found.param = .ofVec b x' ∧
        (solver.step A t.progress).exec ⟨t.solver, t.session⟩ = (.ok report, w) ∧
          report.param = some (.ofVec b x') ∧ w.solver = ⟨.ofMat b H', v.solver⟩ ∧
            w.session.logbook = v.session.logbook ∧
        ∀ t', Run.Iterates ⟨solver, O, A, c⟩ t t' →
          t'.progress.param = .ofVec b x' ∧ t'.solver = w.solver := by
  have hground : Ground A b f g G Definite fun _ => True :=
    ground_definite hf (fun x host hx => (hg x host hx).expecting fun _ h => h.elim) hG
  have hsound : (LineSearch.strongWolfe s).Sound := hs
  obtain ⟨hholds, hsettings⟩ := reached_settled hground O c x₀ hH₀ hsound maxIters cost? gradient?
    hessian? session ws ht
  obtain ⟨x, H, hcone⟩ := hholds.inCone hG
  refine ⟨x, H, hcone, fun found v hx hexec hreason => ?_⟩
  have hgradient : t.progress.requireGradient =
      (.ok (.ofVec b (G x)) : Except (Failure (Exact K)) _) := by
    simp [ProgressOn.requireGradient, hcone.gradient]
  have himage : Backend.apply t.solver.inverseHessian (.ofVec b (G x)) =
      (.ok (.ofVec b (H *ᵥ G x)) : Except (Failure (Exact K)) _) := by
    rw [hcone.hessian, Backend.apply_ofVec]
  rw [hcone.gradient] at hexec
  -- The direction is not zero, so the search has found a step length where the slope is small.
  have hdown := hcone.descent hx
  have hstill : ¬(ray b x H (G x)).Still := by
    intro hstill
    rw [ray, still_ofVec] at hstill
    rw [hstill, dotProduct_zero] at hdown
    exact absurd hdown (lt_irrefl 0)
  obtain ⟨s', hsearch, hsame⟩ := exists_of_settings hsettings
  have hsearched := (hground.ends_search hholds hcone.param hcone.definite t.session).of_ok
    (hcone.param ▸ hexec)
  rw [hsearch] at hsearched
  obtain ⟨a, there, slope, ha, hfound, hslope, hthere, hflat⟩ := hsearched.accepted hstill hreason
  have hstart : (ray b x H (G x)).backend.dot (g (ray b x H (G x)).start) (ray b x H (G x)).way =
      .ok (.finite (G x ⬝ᵥ -(H *ᵥ G x))) :=
    (congrArg (b.dot · _) (hG x)).trans (Backend.dot_ofVec b (G x) (-(H *ᵥ G x)))
  rw [ray, Ray.point_ofVec] at hfound hthere
  rw [hG] at hthere
  obtain rfl := Except.ok.inj (hslope.symm.trans hstart)
  obtain rfl := Except.ok.inj (hthere.symm.trans (Backend.dot_ofVec b _ (-(H *ᵥ G x))))
  rw [hsame, hcurvature] at hflat
  have hsecant : Secant G c₂ a x _ H _ := secant_of_flat hc₂ ha hdown (by simpa using hflat)
  -- The iteration learns from what the search has found.
  have hrun : (LineSearch.run A t.progress.param
      (some (t.progress.param.backend.scale (.ofVec b (H *ᵥ G x)) (-1.0))) (some t.progress.cost)
        (some (.ofVec b (G x)))).exec ⟨t.solver.search, t.session⟩ = (.ok found, v) := by
    rw [hcone.param, Tensor.backend_ofVec, way_ray b x]
    exact hcone.param ▸ hexec
  have hstep := step_of_found hgradient himage hrun
  have hlearn := ends_learn hg hG (hsecant.positive.trans_le hsecant.curvature) hfound
    ⟨⟨.ofMat b H, v.solver⟩, v.session⟩ (H := H)
  rw [hcone.param, hcone.hessian] at hstep
  obtain ⟨report, w, hreport, hparam, hsolver, hlogbook⟩ := hlearn.exists_ok
  have hexecuted : (solver.step A t.progress).exec ⟨t.solver, t.session⟩ = (.ok report, w) :=
    hstep.trans hreport
  refine ⟨a, _, _, report, w, hsecant, hfound, hexecuted, hparam, hsolver, hlogbook, fun t' hit => ?_⟩
  -- The stopping rule of the method leaves its memory as it is.
  obtain ⟨report', w', own, session', u, hstep', hown, hprogress, hmemory⟩ :=
    Run.iterate_reports _ hit.running hit.succeeds
  obtain ⟨hreports, rfl⟩ := Prod.mk.inj (hstep'.symm.trans hexecuted)
  obtain rfl := Except.ok.inj hreports
  have hframe : u = ⟨w'.solver, session'⟩ := (congrArg Prod.snd hown).symm
  exact ⟨by rw [hprogress]; simp [hparam], by rw [hmemory, hframe]⟩

/-- From the point `(1, 2)` on the sphere function, with the identity matrix and a search for the
    strong Wolfe conditions. -/
def wolfeStart : Run (QuasiNewton (Exact ℚ)) Unit Empty (Exact ℚ) :=
  ⟨Run.seeded (.ofVec .array ![1, 2]) 3 none none none,
    ⟨.ofMat .array (1 : Matrix (Fin 2) (Fin 2) ℚ), .strongWolfe StrongWolfe.sphereSearch⟩, .start (), []⟩

/-- The run before its first iteration. -/
def wolfeState : Run (QuasiNewton (Exact ℚ)) Unit Empty (Exact ℚ) :=
  Run.stateAfter spherePlan wolfeStart 0

/-- The search of the first iteration halves the step length once and meets its conditions. -/
theorem accepted_updates_sphere :
    StrongWolfe.make 0.1 0.9 20 = .ok StrongWolfe.sphereSearch ∧
    Definite (1 : Matrix (Fin 2) (Fin 2) ℚ) ∧ Run.Reached spherePlan wolfeStart wolfeState ∧
    ∃ x H found v a x' H' report w, InCone .array (2 • ·) wolfeState.progress wolfeState.solver x H ∧
      (LineSearch.run ⟨sphereOperator, true⟩ wolfeState.progress.param
        (some (.ofVec .array (-(H *ᵥ (2 • x))))) (some wolfeState.progress.cost)
        wolfeState.progress.gradient).exec ⟨wolfeState.solver.search, wolfeState.session⟩ =
          (.ok found, v) ∧ found.reason = .lineSearchCondition ∧
      Secant (2 • ·) (9 / 10) a x x' H (H' : Matrix (Fin 2) (Fin 2) ℚ) ∧
      (solver.step ⟨sphereOperator, true⟩ wolfeState.progress).exec
        ⟨wolfeState.solver, wolfeState.session⟩ = (.ok report, w) ∧
      w.solver = ⟨.ofMat .array H', v.solver⟩ ∧ w.session.logbook = v.session.logbook := by
  have hmake : StrongWolfe.make (0.1 : Exact ℚ) 0.9 20 = .ok StrongWolfe.sphereSearch :=
    StrongWolfe.make_eq_ok_iff.2 ⟨by decide +kernel, by decide, rfl⟩
  have hcurvature : StrongWolfe.sphereSearch.curvature = .finite (9 / 10) := by decide +kernel
  have hreached : Run.Reached spherePlan wolfeStart wolfeState :=
    .opened (Action.exec_eq_of_isOk (by decide +kernel))
  obtain ⟨x, H, hcone, hupdates⟩ := accepted_updates (n := 2) ⟨sphereOperator, true⟩
    Run.noObserver ⟨3, -1.0, true⟩ .array sphere sphereGradient (2 • ·) (sphereOperator_cost _ _)
    (sphereOperator_gradient _ _) sphereGradient_ofVec (StrongWolfe.sound_of_make hmake).1
    hcurvature (by norm_num) ![1, 2] .one 3 none none none (.start ()) [] hreached
  -- Gradient and direction can be computed.
  have hgradient : Tensor.ofVec .array (2 • x) = .vector .array [2.0, 4.0] :=
    Option.some.inj (hcone.gradient.symm.trans (by decide +kernel))
  have hdirection := hcone.direction
  rw [hgradient] at hdirection
  have hway : Tensor.ofVec .array (-(H *ᵥ (2 • x))) = .vector .array [-2.0, -4.0] :=
    Except.ok.inj (hdirection.symm.trans (by decide +kernel))
  have hne : 2 • x ≠ 0 := by
    intro hzero
    rw [hzero] at hgradient
    exact absurd hgradient (by decide +kernel)
  have hmet : ((LineSearch.run ⟨sphereOperator, true⟩ wolfeState.progress.param
      (some (.ofVec .array (-(H *ᵥ (2 • x))))) (some wolfeState.progress.cost)
      wolfeState.progress.gradient).exec ⟨wolfeState.solver.search, wolfeState.session⟩).1.toOption.map
        (·.reason) = some .lineSearchCondition := by
    rw [hway]
    decide +kernel
  rcases hexec : (LineSearch.run ⟨sphereOperator, true⟩ wolfeState.progress.param
      (some (.ofVec .array (-(H *ᵥ (2 • x))))) (some wolfeState.progress.cost)
      wolfeState.progress.gradient).exec ⟨wolfeState.solver.search, wolfeState.session⟩ with
    ⟨_ | found, v⟩
  · rw [hexec] at hmet
    cases hmet
  · rw [hexec] at hmet
    obtain ⟨a, x', H', report, w, hsecant, -, hstep, -, hsolver, hlogbook, -⟩ :=
      hupdates found v hne hexec (Option.some.inj hmet)
    exact ⟨hmake, .one, hreached, x, H, found, v, a, x', H', report, w, hcone, hexec,
      Option.some.inj hmet, hsecant, hstep, hsolver, hlogbook⟩

end QuasiNewton

end Minimization
