import Minimization.Proofs.LineSearch.Wolfe
import Minimization.Proofs.Method.Coherence

namespace Minimization

/-!
# Methods that search along a line descend

* `FiniteValues` — costs and gradients are finite at all points of finite numbers.
* `Descends` — an iteration carries out one search, and what it shows costs no more than the point
  it started from, if the search ends as it should.
* `SteepestDescent.ends_step_descends`, `QuasiNewton.ends_step_descends` — a step of either method.
* `SteepestDescent.reached_aims`, `QuasiNewton.reached_aims` — the settings of the search last.
* `Run.reached_descends` — all iterations of a run, with either search.
-/

variable {K ω η : Type} [Field K] [LinearOrder K] [Roots K]

/-- At points of finite numbers along the given axes the costs are finite, and the gradients are
    finite numbers along the same axes. -/
structure FiniteValues (b : Backend) (shape : List Nat) (f : Tensor (Exact K) → Exact K)
    (g : Tensor (Exact K) → Tensor (Exact K)) : Prop where
  cost : ∀ x, x.IsReal b shape → ∃ c, f x = .finite c
  gradient : ∀ x, x.IsReal b shape → (g x).IsReal b shape

/-- An iteration from `p` to `p'` carries out `search` along `direction`, which ends with `found`,
    and shows what it has found.  The cost does not increase in a search for the strong Wolfe
    conditions, however it ends, and in one that meets its conditions; if it meets them along a
    direction whose length is not zero, the cost is strictly lower. -/
structure Descends (A : Setting ω (Exact K)) (f : Tensor (Exact K) → Exact K)
    (g : Tensor (Exact K) → Tensor (Exact K)) (search : LineSearch (Exact K))
    (direction : Tensor (Exact K)) (p p' : Progress (Exact K)) (found : Progress (Exact K)) :
    Prop where
  executed : ∃ session w, (LineSearch.run A p.param (some direction) (some (f p.param))
    (some (g p.param))).exec ⟨search, session⟩ = (.ok found, w)
  param : p'.param = found.param
  cost : p'.cost = f p'.param
  le : search.isStrong = true ∨ found.reason = .lineSearchCondition →
    Scalar.le p'.cost (f p.param) = true
  lt : found.reason = .lineSearchCondition → ∀ length, p.param.backend.norm direction = .ok length →
    Scalar.eq length 0.0 = false → Scalar.lt p'.cost (f p.param) = true

variable {A : Setting ω (Exact K)} {b : Backend} {shape : List Nat}
  {f : Tensor (Exact K) → Exact K} {g h : Tensor (Exact K) → Tensor (Exact K)} {fraction : K}
  {strong : Bool} {p p' : Progress (Exact K)}

omit [LinearOrder K] [Roots K] in
/-- Costs along a ray are finite. -/
theorem FiniteValues.finite (hvalues : FiniteValues b shape f g) {r : Ray K} (hb : r.backend = b)
    (hshape : r.shape = shape) : r.Finite f :=
  fun a => hvalues.cost _ (hb ▸ hshape ▸ r.isReal_point a)

/-- Stopping does not show. -/
theorem Descends.stopped {search : LineSearch (Exact K)} {direction : Tensor (Exact K)}
    {found : Progress (Exact K)} (h : Descends A f g search direction p p' found)
    (reason : Reason) :
    Descends A f g search direction p { p' with reason := reason } found :=
  ⟨h.executed, h.param, h.cost, h.le, h.lt⟩

variable [IsStrictOrderedRing K] [LawfulRoots K]

/-- An iteration that reports what its search has found descends. -/
theorem LineSearch.Searched.descends {r : Ray K} {search : LineSearch (Exact K)}
    {session : Session ω} {found : Progress (Exact K)} {w : Workspace (LineSearch (Exact K)) ω}
    (h : Searched A r f g search session found w) (hf : r.Finite f)
    (hdecrease : search.decrease = .finite fraction) (hpos : 0 < fraction)
    (hstart : r.start = p.param) (hparam : p'.param = found.param) (hcost : p'.cost = found.cost) :
    Descends A f g search r.way p p' found := by
  -- The cost that is shown is the one evaluated at the point the search ends in.
  have hshown : p'.cost = f found.param := hcost.trans h.found.stage.coherent.2
  refine ⟨⟨session, w, hstart ▸ h.executed⟩, hparam, by rw [hshown, hparam], fun hend => ?_,
    fun hreason length hlength hne => ?_⟩
  · rw [hshown, ← hstart]
    exact h.cost_le hf hdecrease hpos hend
  · rw [← hstart] at hlength
    obtain rfl := Except.ok.inj (hlength.symm.trans r.norm_way)
    rw [hshown, ← hstart]
    exact h.cost_lt hf hdecrease hpos (Bool.eq_false_iff.1 hne) hreason

/-! ### Steepest descent -/

namespace SteepestDescent

variable {s : LineSearch (Exact K)} {session : Session ω}

/-- The direction of a step: the negative gradient. -/
def direction (g : Tensor (Exact K) → Tensor (Exact K)) (x : Tensor (Exact K)) : Tensor (Exact K) :=
  x.backend.scale (g x) (-1.0)

/-- Between two iterations the search has its checked settings. -/
structure Aims (b : Backend) (shape : List Nat) (f : Tensor (Exact K) → Exact K) (fraction : K)
    (strong : Bool) (p : Progress (Exact K)) (s : LineSearch (Exact K)) : Prop where
  holds : Holds b shape f p s
  decrease : s.decrease = .finite fraction
  isStrong : s.isStrong = strong

omit [IsStrictOrderedRing K] [LawfulRoots K] in
/-- The reason to stop is no part of it. -/
theorem Aims.stopped (hp : Aims b shape f fraction strong p s) (reason : Reason) :
    Aims b shape f fraction strong { p with reason := reason } s :=
  ⟨hp.holds.stopped reason, hp.decrease, hp.isStrong⟩

/-- **A step descends.** -/
theorem ends_step_descends (hA : A.operator.Deterministic f g h)
    (hvalues : FiniteValues b shape f g) (hpos : 0 < fraction) (hp : Aims b shape f fraction strong p s) :
    (solver.step A p).Ends ⟨s, session⟩
      (fun report w => Aims b shape f fraction strong (p.update report).1.increment w.solver ∧
        ∃ found, Descends A f g s (direction g p.param) p (p.update report).1.increment found)
      fun _ => True := by
  refine ((ends_step hA hvalues.gradient hp.holds).also (ends_step_searched hA hp.holds.param
    (hvalues.gradient _ hp.holds.param) hp.holds.sound)).mono ?_
  rintro report w ⟨hholds, r, found, session', hb, hshape, hstart, hway, hsearched, rfl⟩
  -- The direction of the step is the way of the ray, in the backend of the point.
  have hbackend : p.param.backend = b := by rw [← hstart, ← hb]; rfl
  rw [direction, hbackend, ← hway]
  exact ⟨⟨hholds, hsearched.decrease.trans hp.decrease, hsearched.isStrong.trans hp.isStrong⟩,
    found, hsearched.descends (hvalues.finite hb hshape) hp.decrease hpos hstart (by simp)
      (by simp)⟩

/-- The settings last all along a run. -/
theorem aims_contract (hA : A.operator.Deterministic f g h) (hvalues : FiniteValues b shape f g)
    (hpos : 0 < fraction) (O : Observer η (Exact K)) (c : RunConfig (Exact K)) :
    Run.Contract ⟨solver, O, A, c⟩ (Aims b shape f fraction strong) (Aims b shape f fraction strong)
      fun _ => True :=
  .anyhow (fun _ hp => hp.stopped _)
    (fun _ hp _ => (ends_step_descends hA hvalues hpos hp).mono fun _ _ hstep => hstep.1)
    fun _ hp => hp.stopped _

/-- In every state that a run reaches the search has the settings that it was given. -/
theorem reached_aims (hA : A.operator.Deterministic f g h) (hvalues : FiniteValues b shape f g)
    (hpos : 0 < fraction) (O : Observer η (Exact K)) (c : RunConfig (Exact K))
    (hs : s.Sound) (hdecrease : s.decrease = .finite fraction) {x : Tensor (Exact K)}
    (hx : x.IsReal b shape) {maxIters : Int} {cost? : Option (Exact K)}
    {gradient? hessian? : Option (Tensor (Exact K))} {ws : List (Watch η)}
    {t : Run (LineSearch (Exact K)) ω η (Exact K)}
    (ht : Run.Reached ⟨solver, O, A, c⟩
      ⟨Run.seeded x maxIters cost? gradient? hessian?, s, session, ws⟩ t) :
    Aims b shape f fraction s.isStrong t.progress t.solver := by
  obtain ⟨hparam, -, -, hbest⟩ := Run.seeded_fields x maxIters cost? gradient? hessian?
  obtain ⟨hiter, -, -⟩ := Run.seeded_unstarted x maxIters cost? gradient? hessian?
  have hstart : Aims b shape f fraction s.isStrong
      (Run.seeded x maxIters cost? gradient? hessian?) s :=
    ⟨⟨hs, by rw [hparam]; exact hx, fun h => absurd h (by simp [hiter]), .of_infinite hbest⟩,
      hdecrease, rfl⟩
  -- Nothing is evaluated before the first iteration.
  have hinit : Run.Contract.Inits ⟨solver, O, A, c⟩
      ⟨Run.seeded x maxIters cost? gradient? hessian?, s, session, ws⟩
      (Aims b shape f fraction s.isStrong) fun _ => True := fun _ => hstart
  exact (aims_contract hA hvalues hpos O c).reached hinit ht

/-- An iteration of a run descends. -/
theorem iterate_descends (hA : A.operator.Deterministic f g h) (hvalues : FiniteValues b shape f g)
    (hpos : 0 < fraction) {O : Observer η (Exact K)} {c : RunConfig (Exact K)}
    {t t' : Run (LineSearch (Exact K)) ω η (Exact K)}
    (ht : Aims b shape f fraction strong t.progress t.solver)
    (hit : Run.Iterates ⟨solver, O, A, c⟩ t t') :
    ∃ found, Descends A f g t.solver (direction g t.progress.param) t.progress t'.progress
      found := by
  obtain ⟨report, w, own, session, v, hstep, -, hprogress, -⟩ :=
    Run.iterate_reports _ hit.running hit.succeeds
  obtain ⟨-, found, hdescends⟩ := (ends_step_descends hA hvalues hpos ht).of_ok hstep
  rw [hprogress]
  exact ⟨found, hdescends.stopped _⟩

end SteepestDescent

/-! ### The quasi-Newton method -/

namespace QuasiNewton

variable {n : Nat} {G : (Fin n → K) → Fin n → K} {s : QuasiNewton (Exact K)} {session : Session ω}

/-- The direction of a step: the inverse Hessian applied to the gradient, backwards. -/
def direction (g : Tensor (Exact K) → Tensor (Exact K)) (H x : Tensor (Exact K)) :
    Except (Failure (Exact K)) (Tensor (Exact K)) :=
  (Backend.apply H (g x)).map (x.backend.scale · (-1.0))

/-- Between two iterations the search has its checked settings. -/
structure Aims (b : Backend) (f : Tensor (Exact K) → Exact K)
    (g : Tensor (Exact K) → Tensor (Exact K)) (n : Nat) (fraction : K) (strong : Bool)
    (p : Progress (Exact K)) (s : QuasiNewton (Exact K)) : Prop where
  holds : Holds b f g (fun _ : Matrix (Fin n) (Fin n) K => True) p s
  decrease : s.search.decrease = .finite fraction
  isStrong : s.search.isStrong = strong

omit [IsStrictOrderedRing K] [LawfulRoots K] in
/-- The reason to stop is no part of that, either. -/
theorem Aims.stopped (hp : Aims b f g n fraction strong p s) (reason : Reason) :
    Aims b f g n fraction strong { p with reason := reason } s :=
  ⟨hp.holds.stopped reason, hp.decrease, hp.isStrong⟩

omit [IsStrictOrderedRing K] [LawfulRoots K] in
/-- A run begins with the settings that it is given. -/
theorem ends_init_aims (hA : Ground A b f g G (fun _ => True) fun _ => True) {x : Fin n → K}
    (hp : p.param = .ofVec b x) (hbest : p.Best f) (hs : s.search.Sound)
    (hdecrease : s.search.decrease = .finite fraction) (hstrong : s.search.isStrong = strong)
    {H : Matrix (Fin n) (Fin n) K}
    (hH : s.inverseHessian = .ofMat b H) :
    (solver.init A p).Ends ⟨s, session⟩
      (fun report? w => Aims b f g n fraction strong (Run.started p report?) w.solver)
      fun _ => True := by
  refine ((ends_init hA hp hbest hs ⟨H, hH, trivial⟩).also (ends_init_frame A p s session)).mono ?_
  rintro report? w ⟨hholds, hsame⟩
  exact ⟨hholds, hsame ▸ hdecrease, hsame ▸ hstrong⟩

/-- **A step descends.** -/
theorem ends_step_descends (hA : Ground A b f g G (fun _ => True) fun _ => True)
    (hvalues : FiniteValues b [n] f g) (hpos : 0 < fraction)
    (hp : Aims b f g n fraction strong p s) :
    (solver.step A p).Ends ⟨s, session⟩
      (fun report w => Aims b f g n fraction strong (p.update report).1.increment w.solver ∧
        ∃ way found, direction g s.inverseHessian p.param = .ok way ∧
          Descends A f g s.search way p (p.update report).1.increment found) fun _ => True := by
  refine (ends_step_searched hA hp.holds).mono ?_
  -- The ray of the search is the Newton-like direction; the update of the inverse Hessian changes
  -- neither the point nor the cost.
  rintro report w ⟨hholds, x, H, found, v, hx, hH, hsearched, hparam, hcost, hsearch⟩
  have hdescends : Descends A f g s.search (ray b x H (G x)).way p (p.update report).1.increment
      found :=
    hsearched.descends (hvalues.finite rfl rfl) hp.decrease hpos hx.symm (by simp [hparam])
      (by simp [hcost])
  refine ⟨⟨hholds, ?_, ?_⟩, (ray b x H (G x)).way, found, ?_, hdescends⟩
  · rw [hsearch, hsearched.decrease, hp.decrease]
  · rw [hsearch, hsearched.isStrong, hp.isStrong]
  · rw [direction, hH, hx, hA.vector, Backend.apply_ofVec, Tensor.backend_ofVec, Except.map,
      way_ray b x]

/-- The settings last all along a run. -/
theorem aims_contract (hA : Ground A b f g G (fun _ => True) fun _ => True)
    (hvalues : FiniteValues b [n] f g) (hpos : 0 < fraction) (O : Observer η (Exact K))
    (c : RunConfig (Exact K)) :
    Run.Contract ⟨solver, O, A, c⟩ (Aims b f g n fraction strong) (Aims b f g n fraction strong)
      fun _ => True :=
  .anyhow (fun _ hp => hp.stopped _)
    (fun _ hp _ => (ends_step_descends hA hvalues hpos hp).mono fun _ _ hstep => hstep.1)
    fun _ hp => (ends_terminate hA hp.holds).mono fun _ _ hw => hw ▸ hp.stopped _

/-- In every state that a run reaches the search has the settings that it was given. -/
theorem reached_aims (hA : Ground A b f g G (fun _ => True) fun _ => True)
    (hvalues : FiniteValues b [n] f g) (hpos : 0 < fraction) (O : Observer η (Exact K))
    (c : RunConfig (Exact K)) (hs : s.search.Sound)
    (hdecrease : s.search.decrease = .finite fraction) {H : Matrix (Fin n) (Fin n) K}
    (hH : s.inverseHessian = .ofMat b H) {x : Fin n → K} {maxIters : Int}
    {cost? : Option (Exact K)} {gradient? hessian? : Option (Tensor (Exact K))}
    {ws : List (Watch η)} {t : Run (QuasiNewton (Exact K)) ω η (Exact K)}
    (ht : Run.Reached ⟨solver, O, A, c⟩
      ⟨Run.seeded (.ofVec b x) maxIters cost? gradient? hessian?, s, session, ws⟩ t) :
    Aims b f g n fraction s.search.isStrong t.progress t.solver := by
  -- The invariant holds after the initialisation and is kept by every step.
  obtain ⟨hparam, -, -, hbest⟩ := Run.seeded_fields (.ofVec b x) maxIters cost? gradient? hessian?
  have hinit : Run.Contract.Inits ⟨solver, O, A, c⟩
      ⟨Run.seeded (.ofVec b x) maxIters cost? gradient? hessian?, s, session, ws⟩
      (Aims b f g n fraction s.search.isStrong) fun _ => True :=
    fun _ => ends_init_aims hA hparam (.of_infinite hbest) hs hdecrease rfl hH
  exact (aims_contract hA hvalues hpos O c).reached hinit ht

/-- An iteration of a run descends. -/
theorem iterate_descends (hA : Ground A b f g G (fun _ => True) fun _ => True)
    (hvalues : FiniteValues b [n] f g) (hpos : 0 < fraction) {O : Observer η (Exact K)}
    {c : RunConfig (Exact K)} {t t' : Run (QuasiNewton (Exact K)) ω η (Exact K)}
    (ht : Aims b f g n fraction strong t.progress t.solver)
    (hit : Run.Iterates ⟨solver, O, A, c⟩ t t') :
    ∃ way found, direction g t.solver.inverseHessian t.progress.param = .ok way ∧
      Descends A f g t.solver.search way t.progress t'.progress found := by
  obtain ⟨report, w, own, session, v, hstep, -, hprogress, -⟩ :=
    Run.iterate_reports _ hit.running hit.succeeds
  obtain ⟨-, way, found, hway, hdescends⟩ := (ends_step_descends hA hvalues hpos ht).of_ok hstep
  rw [hprogress]
  exact ⟨way, found, hway, hdescends.stopped _⟩

end QuasiNewton

/-! ### Runs -/

namespace Run

/-- **Line-search methods descend.**  In every iteration of a run of steepest descent or of the
    quasi-Newton method, from any start, with any inverse Hessian, whatever was given as cost,
    gradient and Hessian, and with either search, what is shown costs no more than the point that
    the iteration started from, if the search is one for the strong Wolfe conditions or has met its
    conditions; it costs less if the conditions were met along a direction of some length.  The
    operator may fail, but where it answers, it answers by `f` and `g`. -/
theorem reached_descends (A : Setting ω (Exact K)) (hA : A.operator.Deterministic f g h)
    (O : Observer η (Exact K)) (c : RunConfig (Exact K)) {search : LineSearch (Exact K)}
    (hsearch : search.Sound) (hdecrease : search.decrease = .finite fraction) (hpos : 0 < fraction)
    (maxIters : Int) (cost? : Option (Exact K)) (gradient? hessian? : Option (Tensor (Exact K)))
    (session : Session ω) (ws : List (Watch η)) :
    (∀ (b : Backend) (shape : List Nat) (x : Tensor (Exact K)), x.IsReal b shape →
      FiniteValues b shape f g →
      ∀ t t', Reached ⟨SteepestDescent.solver, O, A, c⟩ ⟨seeded x maxIters cost? gradient? hessian?,
          search, session, ws⟩ t → Iterates ⟨SteepestDescent.solver, O, A, c⟩ t t' →
        t.solver.isStrong = search.isStrong ∧ ∃ found, Descends A f g t.solver
          (SteepestDescent.direction g t.progress.param) t.progress t'.progress found) ∧
    ∀ (b : Backend) (n : Nat) (x : Fin n → K) (H : Matrix (Fin n) (Fin n) K),
      FiniteValues b [n] f g →
      ∀ t t', Reached ⟨QuasiNewton.solver, O, A, c⟩ ⟨seeded (.ofVec b x) maxIters cost? gradient?
          hessian?, ⟨.ofMat b H, search⟩, session, ws⟩ t →
        Iterates ⟨QuasiNewton.solver, O, A, c⟩ t t' →
        t.solver.search.isStrong = search.isStrong ∧ ∃ way found,
          QuasiNewton.direction g t.solver.inverseHessian t.progress.param = .ok way ∧
            Descends A f g t.solver.search way t.progress t'.progress found := by
  refine ⟨fun b shape x hx hvalues t t' ht hit => ?_, fun b n x H hvalues t t' ht hit => ?_⟩
  · have haims := SteepestDescent.reached_aims hA hvalues hpos O c hsearch hdecrease hx ht
    exact ⟨haims.isStrong, SteepestDescent.iterate_descends hA hvalues hpos haims hit⟩
  · -- Gradients at vectors are vectors, which gives the method its ground.
    have hvector (x : Fin n → K) : ∃ v : Fin n → K, g (.ofVec b x) = .ofVec b v :=
      QuasiNewton.exists_ofVec (hvalues.gradient _ (QuasiNewton.isReal_ofVec x))
    choose G hG using hvector
    have hground := QuasiNewton.Ground.of_deterministic hA hG
    have haims := QuasiNewton.reached_aims hground hvalues hpos O c hsearch hdecrease rfl ht
    exact ⟨haims.isStrong, QuasiNewton.iterate_descends hground hvalues hpos haims hit⟩

/-- The sphere function is finite, and so is its gradient. -/
theorem finiteValues_sphere (shape : List Nat) :
    FiniteValues .array shape sphere (sphereGradient : Tensor (Exact ℚ) → Tensor (Exact ℚ)) where
  cost := by
    rintro _ ⟨xs, -, rfl⟩
    exact ⟨_, sphere_real _ _ xs⟩
  gradient := by
    rintro _ ⟨xs, hxs, rfl⟩
    exact ⟨xs.map (2 * ·), by simpa using hxs, sphereGradient_real shape xs⟩

/-- Steepest descent with backtracking, after so many iterations. -/
def halvedState : ℕ → Run (LineSearch (Exact ℚ)) Unit Empty (Exact ℚ) :=
  stateAfter (spherePlan SteepestDescent.solver) (sphereStart halvedSteps)

/-- Steepest descent makes an iteration. -/
theorem halved_goes : Goes (spherePlan SteepestDescent.solver) (sphereStart halvedSteps) 1 where
  opens := by decide +kernel
  running := by decide +kernel
  undisturbed := by decide +kernel
  succeeds := by decide +kernel

/-- The quasi-Newton method with a search for the strong Wolfe conditions. -/
def wolfeSettings : QuasiNewton (Exact ℚ) :=
  ⟨.ofMat .array (1 : Matrix (Fin 2) (Fin 2) ℚ), .strongWolfe StrongWolfe.sphereSearch⟩

/-- The quasi-Newton method after so many iterations. -/
def wolfeState : ℕ → Run (QuasiNewton (Exact ℚ)) Unit Empty (Exact ℚ) :=
  stateAfter (spherePlan QuasiNewton.solver) (sphereStart wolfeSettings)

/-- The quasi-Newton method makes one as well. -/
theorem wolfe_goes : Goes (spherePlan QuasiNewton.solver) (sphereStart wolfeSettings) 1 where
  opens := by decide +kernel
  running := by decide +kernel
  undisturbed := by decide +kernel
  succeeds := by decide +kernel

/-- The first iteration of either method leads to the minimum. -/
theorem reached_descends_sphere :
    (Backtracking.make 0.25 0.5 10).map .backtracking = .ok halvedSteps ∧
    StrongWolfe.make 0.1 0.9 20 = .ok StrongWolfe.sphereSearch ∧
    (∃ found, Descends ⟨curvedSphere, true⟩ sphere sphereGradient (halvedState 0).solver
      (SteepestDescent.direction sphereGradient (halvedState 0).progress.param)
      (halvedState 0).progress (halvedState 1).progress found) ∧
    Scalar.lt (halvedState 1).progress.cost (sphere (halvedState 0).progress.param) = true ∧
    (∃ way found, Descends ⟨curvedSphere, true⟩ sphere sphereGradient (wolfeState 0).solver.search
      way (wolfeState 0).progress (wolfeState 1).progress found) ∧
    Scalar.le (wolfeState 1).progress.cost (sphere (wolfeState 0).progress.param) = true := by
  have hsphere := curvedSphere_deterministic
  have hhalved : Backtracking.make (0.25 : Exact ℚ) 0.5 10 =
      .ok ⟨⟨none, 1.0, 10, 0, none, none⟩, 0.25, 0.5, 1.0⟩ :=
    Backtracking.make_eq_ok_iff.2 ⟨by decide +kernel, by decide +kernel, by decide, rfl⟩
  have hwolfe : StrongWolfe.make (0.1 : Exact ℚ) 0.9 20 = .ok StrongWolfe.sphereSearch :=
    StrongWolfe.make_eq_ok_iff.2 ⟨by decide +kernel, by decide, rfl⟩
  -- Both searches come from their constructors, which is what the decrease they ask for rests on.
  obtain ⟨hsound, c, hpos, hdecrease⟩ := Backtracking.sound_of_make hhalved
  obtain ⟨hsound', c', hpos', hdecrease'⟩ := StrongWolfe.sound_of_make hwolfe
  have hchecked : halvedSteps.Sound := hsound
  have hchecked' : (LineSearch.strongWolfe StrongWolfe.sphereSearch).Sound := hsound'
  obtain ⟨hsteepest, -⟩ := reached_descends ⟨curvedSphere, true⟩ hsphere noObserver
    ⟨2, -1.0, true⟩ hchecked hdecrease hpos 2 (some 7.0) none none (.start ()) []
  obtain ⟨-, hquasi⟩ := reached_descends ⟨curvedSphere, true⟩ hsphere noObserver ⟨2, -1.0, true⟩
    hchecked' hdecrease' hpos' 2 (some 7.0) none none (.start ()) []
  obtain ⟨-, found, hdescends⟩ := hsteepest .array [2] (.ofVec .array ![3, 4]) ⟨[3, 4], rfl, rfl⟩
    (finiteValues_sphere [2]) _ _ halved_goes.reached (halved_goes.consecutive 0 one_pos)
  obtain ⟨hstrong, way, found', -, hdescends'⟩ := hquasi .array 2 ![3, 4] 1
    (finiteValues_sphere [2]) _ _ wolfe_goes.reached (wolfe_goes.consecutive 0 one_pos)
  exact ⟨by rw [hhalved]; rfl, hwolfe, ⟨found, hdescends⟩, by decide +kernel,
    ⟨way, found', hdescends'⟩, hdescends'.le (.inl hstrong)⟩

end Run

end Minimization
