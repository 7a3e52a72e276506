import Minimization.Proofs.Backend.Runs
import Minimization.Proofs.Backend.Searches

namespace Minimization

/-!
# The methods on two backends

* `ProgressOn.kindred_requireGradient`, `ProgressOn.kindred_requireHessian` — what must have been computed.
* `Dogleg.kindred_path` — the step inside a region.
* `LineSearch.parallel_run` — a search inside a step; `QuasiNewton.parallel_aim` and
  `QuasiNewton.parallel_learn` — what comes before it and after it.
* `TrustRegion.parallel_explore`, `TrustRegion.parallel_conclude` — a trial and a decision.
* `SteepestDescent.carries`, `QuasiNewton.carries`, `TrustRegion.carries` and the other methods —
  `Method.carries` puts them together.
-/

variable {ω ω' α β γ : Type} {b b' : Backend} {n : ℕ} {M : ω → ω' → Prop} {A : Setting ω α}
  {A' : Setting ω' α} {p : Progress α}

/-! ### What must have been computed -/

namespace ProgressOn

/-- The gradient that a step needs is there on both sides or missing on both. -/
theorem kindred_requireGradient (hp : p.Shaped b n) :
    Kindred (Vectors b b' n) p.requireGradient (p.onBackend b').requireGradient := by
  unfold requireGradient
  rw [gradient_onBackend]
  cases hgradient : p.gradient with
  | none => exact .error rfl
  | some g => exact .ok ⟨hp.gradient g hgradient, rfl⟩

/-- So is the Hessian. -/
theorem kindred_requireHessian (hp : p.Shaped b n) :
    Kindred (Matrices b b' n) p.requireHessian (p.onBackend b').requireHessian := by
  unfold requireHessian
  rw [hessian_onBackend]
  cases hhessian : p.hessian with
  | none => exact .error rfl
  | some h => exact .ok ⟨hp.hessian h hhessian, rfl⟩

end ProgressOn

variable [Scalar α]

/-! ### Steps of a fixed shape -/

/-- Landweber iteration scales and subtracts. -/
theorem Landweber.carries (hA : A.operator.Carries b b' n M A'.operator) :
    Landweber.solver.Carries b b' n M (· = ·) (· = ·) A A' Landweber.solver where
  ready h := h
  init := by
    rintro p w v hp hwv
    exact .pure ⟨⟨nofun, rfl⟩, hwv⟩
  step := by
    rintro p ⟨k, s⟩ ⟨_, t⟩ hp ⟨rfl, hst⟩
    show Parallel _ _ ((step A p).exec _) ((step A' _).exec _)
    unfold step
    rw [ProgressOn.param_onBackend, hp.param.backend, Tensor.backend_onBackend]
    refine .reading ?_
    refine .onSession_bind (hst.gradient hA hp.param) ?_
    rintro g _ s t ⟨hg, rfl⟩ hst
    refine .ofExcept_bind (Backend.kindred_scaledSub hp.param k.omega hg) hst ?_
    rintro x _ ⟨hx, rfl⟩
    -- The cost of the new point is evaluated only if the settings ask for it.
    split
    · refine .onSession_bind (hst.cost hA hx) ?_
      rintro cost _ s t rfl hst
      exact .pure ⟨⟨.trial hx, rfl⟩, rfl, hst⟩
    · exact .pure ⟨⟨.trial hx, rfl⟩, rfl, hst⟩
  terminate := by
    rintro p w v hp hwv
    exact .pure ⟨rfl, hwv⟩

/-- Newton's method inverts and applies a matrix as well. -/
theorem Newton.carries (hA : A.operator.Carries b b' n M A'.operator) :
    Newton.solver.Carries b b' n M (· = ·) (· = ·) A A' Newton.solver where
  ready h := h
  init := by
    rintro p w v hp hwv
    exact .pure ⟨⟨nofun, rfl⟩, hwv⟩
  step := by
    rintro p ⟨k, s⟩ ⟨_, t⟩ hp ⟨rfl, hst⟩
    show Parallel _ _ ((step A p).exec _) ((step A' _).exec _)
    rw [step_eq, step_eq, ProgressOn.param_onBackend]
    refine .reading ?_
    refine .onSession_bind (hst.gradient hA hp.param) ?_
    rintro g _ s t ⟨hg, rfl⟩ hst
    refine .onSession_bind (hst.hessian hA hp.param) ?_
    rintro h _ s t ⟨hh, rfl⟩ hst
    refine .ofExcept_bind (kindred_target k hp.param hg hh) hst ?_
    rintro x _ ⟨hx, rfl⟩
    exact .pure ⟨⟨.trial hx, rfl⟩, rfl, hst⟩
  terminate := by
    rintro p w v hp hwv
    exact .pure ⟨rfl, hwv⟩

/-! ### The step inside a region -/

/-- **The end of the dogleg path.** -/
theorem Dogleg.kindred_path (k : Dogleg α) {g h : Tensor α} (hg : g.Shaped b [n]) (hh : h.Square b n) :
    Kindred (Reports b b' n) (path b k g h) (path b' k (g.onBackend b') (h.onBackend b')) := by
  unfold path
  refine .bind (Backend.kindred_inv hh) ?_
  rintro inverse _ ⟨hinverse, rfl⟩
  -- First the Newton step, which is taken if it is in the region.
  refine .bind (Backend.kindred_apply hinverse hg) ?_
  rintro image _ ⟨himage, rfl⟩
  have hnewton := Backend.shaped_scale himage (-1.0)
  rw [Backend.scale_onBackend himage.backend]
  refine .bind (Backend.kindred_norm hnewton.backend) ?_
  rintro length _ rfl
  dsimp only
  split
  · exact .pure ⟨.trial hnewton, rfl⟩
  -- Otherwise the path turns at the Cauchy point, and the inner products say on which leg it leaves.
  · refine .bind (Backend.kindred_dot hg hg) ?_
    rintro square _ rfl
    refine .bind (Backend.kindred_weightedDot hg hh hg) ?_
    rintro bend _ rfl
    have hcauchy := Backend.shaped_scale hg (-square / bend)
    rw [Backend.scale_onBackend hg.backend]
    refine .bind (Backend.kindred_dot hcauchy hcauchy) ?_
    rintro utu _ rfl
    refine .bind (Backend.kindred_dot hnewton hnewton) ?_
    rintro btb _ rfl
    refine .bind (Backend.kindred_dot hcauchy hnewton) ?_
    rintro utb _ rfl
    refine .bind (.same k.squaredRadius) ?_
    rintro delta _ rfl
    split
    · rw [Backend.scale_onBackend hcauchy.backend]
      exact .pure ⟨.trial (Backend.shaped_scale hcauchy _), rfl⟩
    -- On the second leg there may be no crossing, which is the same failure on both sides.
    · split
      · refine .bind (Backend.kindred_sub hnewton hcauchy) ?_
        rintro leg _ ⟨hleg, rfl⟩
        refine .bind (Backend.kindred_scaledAdd hcauchy _ hleg) ?_
        rintro step _ ⟨hstep, rfl⟩
        exact .pure ⟨.trial hstep, rfl⟩
      · exact .throw _

/-- The dogleg method starts from what is known or evaluated, and follows its path. -/
theorem Dogleg.carries (hA : A.operator.Carries b b' n M A'.operator) :
    Dogleg.solver.Carries b b' n M (· = ·) (· = ·) A A' Dogleg.solver where
  ready h := h
  init := by
    rintro p w v hp hwv
    exact .pure ⟨⟨nofun, rfl⟩, hwv⟩
  step := by
    rintro p ⟨k, s⟩ ⟨_, t⟩ hp ⟨rfl, hst⟩
    show Parallel _ _ ((step A p).exec _) ((step A' _).exec _)
    rw [Dogleg.step_eq, Dogleg.step_eq, ProgressOn.param_onBackend, hp.param.backend,
      Tensor.backend_onBackend]
    refine .reading ?_
    dsimp only
    split
    -- Without a radius nothing is evaluated.
    · exact .throw _ hst
    · refine .onSession_bind (hst.knownGradient hA hp) ?_
      rintro g _ s t ⟨hg, rfl⟩ hst
      refine .onSession_bind (hst.knownHessian hA hp) ?_
      rintro h _ s t ⟨hh, rfl⟩ hst
      exact .ofExcept (kindred_path k hg hh) (fun _ _ hr => ⟨hr, rfl, hst⟩) hst
  terminate := by
    rintro p w v hp hwv
    exact .pure ⟨rfl, hwv⟩

/-! ### Methods with a line search -/

omit [Scalar α] in
/-- A search is given its direction. -/
theorem LineSearch.parallel_aim {k : LineSearch α} {d : Tensor α} {s : Session ω} {t : Session ω'}
    (hd : d.Shaped b [n]) (hst : Paired M s t) :
    Parallel (fun _ _ w v => Workspace.Paired M (Carried (Shaped b n) (onBackend b')) w v)
      (Workspace.onSessions (Paired M)) ((aim (some d)).exec ⟨k, s⟩)
      ((aim (some (d.onBackend b'))).exec ⟨k.onBackend b', t⟩) := by
  refine .reading ?_
  refine .ofExcept_bind (kindred_setDirection k hd) hst ?_
  rintro search _ ⟨hsearch, rfl⟩
  exact .ok ⟨⟨hsearch, rfl⟩, hst⟩

/-- **A search inside a step**, which sets its direction itself. -/
theorem LineSearch.parallel_run (hA : A.operator.Carries b b' n M A'.operator)
    (hdebug : A'.debug = A.debug) {x d : Tensor α} (hx : x.Shaped b [n]) (hd : d.Shaped b [n])
    (cost? : Option α) (gradient? : Option (Tensor α)) (hg : ∀ g, gradient? = some g → g.Shaped b [n])
    {w : Workspace (LineSearch α) ω} {v : Workspace (LineSearch α) ω'}
    (hwv : Workspace.Paired M (fun k k' => k' = k.onBackend b') w v) :
    Parallel (fun p p' w v => Carried (ProgressOn.Shaped b n) (ProgressOn.onBackend b') p p' ∧
        Workspace.Paired M (fun k k' => k' = k.onBackend b') w v)
      (Workspace.onSessions (Paired M)) ((run A x (some d) cost? gradient?).exec w)
      ((run A' (x.onBackend b') (some (d.onBackend b')) cost?
        (gradient?.map (·.onBackend b'))).exec v) := by
  obtain ⟨k, s⟩ := w
  obtain ⟨_, t⟩ := v
  obtain ⟨rfl, hst⟩ := hwv
  rw [run_eq, run_eq]
  refine .bind (parallel_aim hd hst) fun _ _ w v hwv => ?_
  -- The memory of the search is aimed for the length of its run only.
  have hrun : Parallel (Q := fun p p' w v =>
        Carried (ProgressOn.Shaped b n) (ProgressOn.onBackend b') p p' ∧
          Workspace.Paired M (Carried (Aimed b n) (onBackend b')) w v)
      (Workspace.onSessions (Paired M))
      ((Run.nested solver A fun c => Run.seeded x c.maxIters cost? gradient? none).exec w)
      ((Run.nested solver A' fun c =>
        Run.seeded (x.onBackend b') c.maxIters cost? (gradient?.map (·.onBackend b')) none).exec v) :=
    Run.parallel_nested (carries hA) hdebug
      (fun c => Run.seeded_carried hx c.maxIters cost? gradient? none hg nofun) hwv
  refine hrun.mono ?_
  rintro p p' w v ⟨hp, hwv⟩
  exact ⟨hp, hwv.mono fun h => h.2⟩

omit [Scalar α] in
/-- Cost and gradient where a step begins. -/
theorem SteepestDescent.parallel_measure (hA : A.operator.Carries b b' n M A'.operator) {x : Tensor α}
    (hx : x.Shaped b [n]) {V : LineSearch α → LineSearch α → Prop} {w : Workspace (LineSearch α) ω}
    {v : Workspace (LineSearch α) ω'} (hwv : Workspace.Paired M V w v) :
    Parallel (fun r r' w v => Carried (fun m : α × Tensor α => m.2.Shaped b [n])
        (fun m => (m.1, m.2.onBackend b')) r r' ∧ Workspace.Paired M V w v)
      (Workspace.onSessions (Paired M)) ((measure A x).exec w) ((measure A' (x.onBackend b')).exec v) := by
  obtain ⟨hV, hst⟩ := hwv
  refine .onSession_bind (hst.cost hA hx) ?_
  rintro cost _ s t rfl hst
  refine .onSession_bind (hst.gradient hA hx) ?_
  rintro g _ s t ⟨hg, rfl⟩ hst
  exact .pure ⟨⟨hg, rfl⟩, hV, hst⟩

/-- Steepest descent hands what it has measured to its search. -/
theorem SteepestDescent.carries (hA : A.operator.Carries b b' n M A'.operator)
    (hdebug : A'.debug = A.debug) :
    SteepestDescent.solver.Carries b b' n M (fun k k' => k' = k.onBackend b')
      (fun k k' => k' = k.onBackend b') A A' SteepestDescent.solver where
  ready h := h
  init := by
    rintro p w v hp hwv
    exact .pure ⟨⟨nofun, rfl⟩, hwv⟩
  step := by
    rintro p w v hp hwv
    show Parallel _ _ ((step A p).exec _) ((step A' _).exec _)
    rw [step_parts, step_parts, ProgressOn.param_onBackend, hp.param.backend, Tensor.backend_onBackend]
    -- All that a step does before its search is to measure.
    refine .bind (parallel_measure hA hp.param hwv) ?_
    rintro ⟨cost, g⟩ _ w v ⟨⟨hg, rfl⟩, hwv⟩
    dsimp only
    rw [Backend.scale_onBackend hg.backend]
    refine .bind (LineSearch.parallel_run hA hdebug hp.param (Backend.shaped_scale hg (-1.0)) (some cost)
      (some g) (holds_of_some hg) hwv) ?_
    rintro found _ w v ⟨⟨hfound, rfl⟩, hwv⟩
    exact .pure ⟨⟨.trial hfound.param, rfl⟩, hwv⟩
  terminate := by
    rintro p w v hp hwv
    exact .pure ⟨rfl, hwv⟩

namespace QuasiNewton

/-- The stopping rule compares a length and two costs. -/
theorem kindred_terminate (hp : p.Shaped b n) :
    Kindred (· = ·) (terminate p) (terminate (p.onBackend b')) := by
  unfold terminate
  rw [ProgressOn.param_onBackend, hp.param.backend, Tensor.backend_onBackend]
  refine .bind (ProgressOn.kindred_requireGradient hp) ?_
  rintro g _ ⟨hg, rfl⟩
  refine .bind (Backend.kindred_norm hg.backend) ?_
  rintro length _ rfl
  rw [ProgressOn.prevCost_onBackend, ProgressOn.cost_onBackend]
  split
  · exact .pure rfl
  · split <;> exact .pure rfl

/-- The update that is skipped is skipped on both sides. -/
theorem parallel_refine {h : Tensor α} (hh : h.Square b n) {update : α × Option (Tensor α)}
    (hupdate : ∀ m, update.2 = some m → m.Square b n) {s : Session ω} {t : Session ω'}
    (hst : Paired M s t) :
    Parallel (fun m m' s t => Matrices b b' n m m' ∧ Paired M s t) (Paired M)
      ((refine h update).exec s)
      ((refine (h.onBackend b') (update.1, update.2.map (·.onBackend b'))).exec t) := by
  obtain ⟨curvature, _ | m⟩ := update
  · exact .ok ⟨⟨hh, rfl⟩, hst.host, hst.counts⟩
  · exact .ok ⟨⟨hupdate m rfl, rfl⟩, hst⟩

/-- Two methods whose matrices have the shape that they need. -/
abbrev Learning (b b' : Backend) (n : ℕ) (M : ω → ω' → Prop) :
    Workspace (QuasiNewton α) ω → Workspace (QuasiNewton α) ω' → Prop :=
  Workspace.Paired M (Carried (fun k => k.inverseHessian.Square b n) (onBackend b'))

variable {k : QuasiNewton α} {s : Session ω} {t : Session ω'}

/-- The direction of the next search. -/
theorem parallel_aim (hp : p.Shaped b n) (hk : k.inverseHessian.Square b n) (hst : Paired M s t) :
    Parallel (fun r r' w v => Carried (fun r : Tensor α × Tensor α × Tensor α =>
          r.1.Shaped b [n] ∧ r.2.1.Square b n ∧ r.2.2.Shaped b [n])
        (fun r => (r.1.onBackend b', r.2.1.onBackend b', r.2.2.onBackend b')) r r' ∧
          Learning b b' n M w v)
      (Workspace.onSessions (Paired M)) ((aim p).exec ⟨k, s⟩)
      ((aim (p.onBackend b')).exec ⟨k.onBackend b', t⟩) := by
  unfold aim
  rw [ProgressOn.param_onBackend, hp.param.backend, Tensor.backend_onBackend]
  refine .ofExcept_bind (ProgressOn.kindred_requireGradient hp) hst ?_
  rintro g _ ⟨hg, rfl⟩
  refine .reading ?_
  refine .ofExcept_bind (Backend.kindred_apply hk hg) hst ?_
  rintro image _ ⟨himage, rfl⟩
  rw [Backend.scale_onBackend himage.backend]
  exact .pure ⟨⟨⟨hg, hk, Backend.shaped_scale himage (-1.0)⟩, rfl⟩, ⟨hk, rfl⟩, hst⟩

/-- What is learnt from a search. -/
theorem parallel_learn (hA : A.operator.Carries b b' n M A'.operator) {x g h : Tensor α}
    {found : Progress α} (hx : x.Shaped b [n]) (hg : g.Shaped b [n]) (hh : h.Square b n)
    (hfound : found.Shaped b n) (hst : Paired M s t) :
    Parallel (fun r r' w v => Reports b b' n r r' ∧ Learning b b' n M w v)
      (Workspace.onSessions (Paired M)) ((learn A x g h found).exec ⟨k, s⟩)
      ((learn A' (x.onBackend b') (g.onBackend b') (h.onBackend b') (found.onBackend b')).exec
        ⟨k.onBackend b', t⟩) := by
  rw [learn_parts, learn_parts, ProgressOn.param_onBackend]
  refine .onSession_bind (hst.gradient hA hfound.param) ?_
  rintro gradient _ s t ⟨hgradient, rfl⟩ hst
  refine .ofExcept_bind (kindred_revision hh hx hg hfound.param hgradient) hst ?_
  rintro update _ ⟨hupdate, rfl⟩
  refine .onSession_bind (parallel_refine hh hupdate hst) ?_
  rintro refined _ s t ⟨hrefined, rfl⟩ hst
  refine .modifying (.pure ⟨⟨⟨?_, ?_, nofun⟩, rfl⟩, ⟨hrefined, rfl⟩, hst⟩)
  · exact holds_of_some hfound.param
  · exact holds_of_some hgradient

/-- The quasi-Newton method, whose matrix is revised alike. -/
theorem carries (hA : A.operator.Carries b b' n M A'.operator) (hdebug : A'.debug = A.debug) :
    QuasiNewton.solver.Carries b b' n M
      (Carried (fun k => k.inverseHessian.Square b n) (onBackend b'))
      (Carried (fun k => k.inverseHessian.Square b n) (onBackend b')) A A' QuasiNewton.solver where
  ready h := h
  init := by
    rintro p ⟨k, s⟩ ⟨_, t⟩ hp ⟨hk, hst⟩
    refine .onSession_bind (hst.cost hA hp.param) ?_
    rintro cost _ s t rfl hst
    refine .onSession_bind (hst.gradient hA hp.param) ?_
    rintro g _ s t ⟨hg, rfl⟩ hst
    exact .pure ⟨⟨holds_of_some ⟨holds_of_some hp.param, holds_of_some hg, nofun⟩, rfl⟩, hk, hst⟩
  step := by
    rintro p ⟨k, s⟩ ⟨_, t⟩ hp ⟨⟨hk, rfl⟩, hst⟩
    show Parallel _ _ ((step A p).exec _) ((step A' _).exec _)
    rw [step_parts, step_parts, ProgressOn.param_onBackend, ProgressOn.cost_onBackend]
    refine .bind (parallel_aim hp hk hst) ?_
    rintro ⟨g, h, direction⟩ _ ⟨k, s⟩ ⟨_, t⟩ ⟨⟨⟨hg, hh, hdirection⟩, rfl⟩, ⟨hk, rfl⟩, hst⟩
    -- The search works on its own part of the memory, and the matrix is not touched.
    have hsearch : Parallel (Q := fun q q' w v =>
          Carried (ProgressOn.Shaped b n) (ProgressOn.onBackend b') q q' ∧ Learning b b' n M w v)
        (Workspace.onSessions (Paired M))
        ((Workspace.within (·.search) (fun search s => { s with search := search })
          (LineSearch.run A p.param (some direction) (some p.cost) (some g))).exec ⟨k, s⟩)
        ((Workspace.within (·.search) (fun search s => { s with search := search })
          (LineSearch.run A' (p.param.onBackend b') (some (direction.onBackend b')) (some p.cost)
            (some (g.onBackend b')))).exec ⟨k.onBackend b', t⟩) := by
      refine .within (LineSearch.parallel_run hA hdebug hp.param hdirection (some p.cost) (some g)
        (holds_of_some hg) (w := ⟨k.search, s⟩) (v := ⟨k.search.onBackend b', t⟩) ⟨rfl, hst⟩) ?_
      rintro q q' ⟨search, s⟩ ⟨_, t⟩ ⟨hq, rfl, hst⟩
      exact ⟨hq, ⟨hk, rfl⟩, hst⟩
    refine .bind hsearch ?_
    rintro found _ ⟨k, s⟩ ⟨_, t⟩ ⟨⟨hfound, rfl⟩, ⟨-, rfl⟩, hst⟩
    exact parallel_learn hA hp.param hg hh hfound hst
  terminate := by
    rintro p ⟨k, s⟩ ⟨_, t⟩ hp ⟨hk, hst⟩
    exact .ofExcept (kindred_terminate hp) (fun _ _ h => ⟨h, hk, hst⟩) hst

end QuasiNewton

/-! ### Trust regions -/

namespace TrustRegion

/-- The stopping rule of a trust-region method compares a length with a number. -/
theorem kindred_terminate (k : TrustRegion α) (hp : p.Shaped b n) :
    Kindred (· = ·) (terminate k p) (terminate k (p.onBackend b')) := by
  unfold terminate
  rw [ProgressOn.param_onBackend, hp.param.backend, Tensor.backend_onBackend]
  refine .bind (ProgressOn.kindred_requireGradient hp) ?_
  rintro g _ ⟨hg, rfl⟩
  refine .bind (Backend.kindred_norm hg.backend) ?_
  rintro length _ rfl
  split
  · exact .pure rfl
  · split <;> exact .pure rfl

/-- The step inside the region. -/
theorem parallel_subproblemStep (hA : A.operator.Carries b b' n M A'.operator)
    (hdebug : A'.debug = A.debug) {x g h : Tensor α} (hx : x.Shaped b [n]) (hg : g.Shaped b [n])
    (hh : h.Square b n) (k : TrustRegion α) {s : Session ω} {t : Session ω'} (hst : Paired M s t) :
    Parallel (fun d d' w v => Vectors b b' n d d' ∧ Workspace.Paired M (· = ·) w v)
      (Workspace.onSessions (Paired M)) ((subproblemStep A x g h).exec ⟨k, s⟩)
      ((subproblemStep A' (x.onBackend b') (g.onBackend b') (h.onBackend b')).exec ⟨k, t⟩) := by
  unfold subproblemStep
  refine .reading ?_
  refine .ofExcept_bind (.same (k.subproblem.setRadius k.radius)) hst ?_
  rintro dogleg _ rfl
  -- The solver of the subproblem gets the radius for this step, whatever it had before.
  have hfound : Parallel (Q := fun q q' w v =>
        Carried (ProgressOn.Shaped b n) (ProgressOn.onBackend b') q q' ∧
          Workspace.Paired M (· = ·) w v)
      (Workspace.onSessions (Paired M))
      ((Workspace.within (fun _ => dogleg) (fun d s => { s with subproblem := .dogleg d })
        (Run.nested Dogleg.solver A fun c =>
          Run.seeded x c.maxIters none (some g) (some h))).exec ⟨k, s⟩)
      ((Workspace.within (fun _ => dogleg) (fun d s => { s with subproblem := .dogleg d })
        (Run.nested Dogleg.solver A' fun c =>
          Run.seeded (x.onBackend b') c.maxIters none (some (g.onBackend b'))
            (some (h.onBackend b')))).exec ⟨k, t⟩) := by
    refine .within (Run.parallel_nested (Dogleg.carries hA) hdebug
      (fun c => Run.seeded_carried hx c.maxIters none (some g) (some h) (holds_of_some hg)
        (holds_of_some hh))
      (w := ⟨dogleg, s⟩) (v := ⟨dogleg, t⟩) ⟨rfl, hst⟩) ?_
    rintro q q' ⟨d, s⟩ ⟨_, t⟩ ⟨hq, rfl, hst⟩
    exact ⟨hq, rfl, hst⟩
  refine .bind hfound ?_
  rintro found _ w v ⟨⟨hfound, rfl⟩, hwv⟩
  exact .pure ⟨⟨hfound.param, rfl⟩, hwv⟩

/-- What a trial has found out, on the other backend. -/
def Trial.onBackend {α : Type} (b' : Backend) (t : Trial α) : Trial α :=
  { t with direction := t.direction.onBackend b', point := t.point.onBackend b' }

/-- A trial. -/
theorem parallel_explore (hA : A.operator.Carries b b' n M A'.operator) (hdebug : A'.debug = A.debug)
    (hp : p.Shaped b n) {k : TrustRegion α} {s : Session ω} {t : Session ω'} (hst : Paired M s t) :
    Parallel (fun r r' w v => Carried (fun r : Tensor α × Tensor α × Trial α =>
          r.1.Shaped b [n] ∧ r.2.1.Square b n ∧ r.2.2.point.Shaped b [n])
        (fun r => (r.1.onBackend b', r.2.1.onBackend b', r.2.2.onBackend b')) r r' ∧
          Workspace.Paired M (· = ·) w v)
      (Workspace.onSessions (Paired M)) ((explore A p).exec ⟨k, s⟩)
      ((explore A' (p.onBackend b')).exec ⟨k, t⟩) := by
  rw [explore_parts, explore_parts, ProgressOn.param_onBackend]
  unfold weigh
  rw [ProgressOn.param_onBackend, ProgressOn.cost_onBackend, hp.param.backend, Tensor.backend_onBackend]
  refine .ofExcept_bind (ProgressOn.kindred_requireGradient hp) hst ?_
  rintro g _ ⟨hg, rfl⟩
  refine .ofExcept_bind (ProgressOn.kindred_requireHessian hp) hst ?_
  rintro h _ ⟨hh, rfl⟩
  refine .bind (parallel_subproblemStep hA hdebug hp.param hg hh k hst) ?_
  -- The trial is made on both sides before either is weighed.
  rintro d _ ⟨k, s⟩ ⟨_, t⟩ ⟨⟨hd, rfl⟩, rfl, hst⟩
  simp only [bind_assoc, pure_bind]
  refine .ofExcept_bind (Backend.kindred_add hp.param hd) hst ?_
  rintro x _ ⟨hx, rfl⟩
  refine .onSession_bind (hst.cost hA hx) ?_
  rintro cost _ s t rfl hst
  refine .ofExcept_bind (kindred_predictedDecrease p.cost hg hh hd) hst ?_
  rintro predicted _ rfl
  refine .ofExcept_bind (Backend.kindred_norm hd.backend) hst ?_
  rintro length _ rfl
  exact .pure ⟨⟨⟨hg, hh, hx⟩, rfl⟩, rfl, hst⟩

/-- A decision, which is the same because the numbers are. -/
theorem parallel_conclude (hA : A.operator.Carries b b' n M A'.operator) (hp : p.Shaped b n)
    {g h : Tensor α} {trial : Trial α} (hg : g.Shaped b [n]) (hh : h.Square b n)
    (hx : trial.point.Shaped b [n]) {k : TrustRegion α} {s : Session ω} {t : Session ω'}
    (hst : Paired M s t) :
    Parallel (fun r r' w v => Reports b b' n r r' ∧ Workspace.Paired M (· = ·) w v)
      (Workspace.onSessions (Paired M)) ((conclude A p g h trial).exec ⟨k, s⟩)
      ((conclude A' (p.onBackend b') (g.onBackend b') (h.onBackend b') (trial.onBackend b')).exec
        ⟨k, t⟩) := by
  have htaken : (trial.onBackend b').isTaken (p.onBackend b').cost k.acceptance =
      trial.isTaken p.cost k.acceptance := rfl
  refine .reading ?_
  dsimp only
  rw [htaken]
  split
  -- A point that is taken comes with a new gradient and a new Hessian, one that is not with the old
  -- ones.
  · refine .onSession_bind (hst.gradient hA hx) ?_
    rintro newGradient _ s t ⟨hnewGradient, rfl⟩ hst
    refine .onSession_bind (hst.hessian hA hx) ?_
    rintro newHessian _ s t ⟨hnewHessian, rfl⟩ hst
    refine .pure ⟨⟨⟨?_, ?_, ?_⟩, rfl⟩, rfl, hst⟩
    · exact holds_of_some hx
    · exact holds_of_some hnewGradient
    · exact holds_of_some hnewHessian
  · refine .pure ⟨⟨⟨?_, ?_, ?_⟩, rfl⟩, rfl, hst⟩
    · exact holds_of_some hp.param
    · exact holds_of_some hg
    · exact holds_of_some hh

/-- Trust-region methods set the same radius, because the ratio is the same number. -/
theorem carries (hA : A.operator.Carries b b' n M A'.operator) (hdebug : A'.debug = A.debug) :
    TrustRegion.solver.Carries b b' n M (· = ·) (· = ·) A A' TrustRegion.solver where
  ready h := h
  init := by
    rintro p ⟨k, s⟩ ⟨_, t⟩ hp ⟨rfl, hst⟩
    refine .onSession_bind (hst.cost hA hp.param) ?_
    rintro cost _ s t rfl hst
    refine .onSession_bind (hst.gradient hA hp.param) ?_
    rintro g _ s t ⟨hg, rfl⟩ hst
    refine .onSession_bind (hst.hessian hA hp.param) ?_
    rintro h _ s t ⟨hh, rfl⟩ hst
    exact .pure ⟨⟨holds_of_some ⟨holds_of_some hp.param, holds_of_some hg, holds_of_some hh⟩, rfl⟩, rfl,
      hst⟩
  step := by
    rintro p ⟨k, s⟩ ⟨_, t⟩ hp ⟨rfl, hst⟩
    show Parallel _ _ ((step A p).exec _) ((step A' _).exec _)
    rw [step_parts, step_parts, attempt_eq, attempt_eq]
    simp only [bind_assoc, pure_bind]
    -- A step explores, adapts the radius, and only then looks at what it has found.
    refine .bind (parallel_explore hA hdebug hp hst) ?_
    rintro ⟨g, h, trial⟩ _ ⟨k, s⟩ ⟨_, t⟩ ⟨⟨⟨hg, hh, hx⟩, rfl⟩, rfl, hst⟩
    exact .modifying (parallel_conclude hA hp hg hh hx hst)
  terminate := by
    rintro p ⟨k, s⟩ ⟨_, t⟩ hp ⟨rfl, hst⟩
    refine .reading ?_
    exact .ofExcept (kindred_terminate k hp) (fun _ _ h => ⟨h, rfl, hst⟩) hst

end TrustRegion

/-! ### All of them -/

namespace Method

/-- The method at hand acts on both sides. -/
theorem parallel_dispatch (hA : A.operator.Carries b b' n M A'.operator) (hdebug : A'.debug = A.debug)
    {W : β → γ → Prop} {act : {σ : Type} → Solver σ ω α → Action (Workspace σ ω) α β}
    {act' : {σ : Type} → Solver σ ω' α → Action (Workspace σ ω') α γ}
    (hact : ∀ {σ : Type} {U V : σ → σ → Prop} {S : Solver σ ω α} {S' : Solver σ ω' α},
      S.Carries b b' n M U V A A' S' → ∀ {w v}, Workspace.Paired M V w v →
      Parallel (fun r r' w v => W r r' ∧ Workspace.Paired M V w v) (Workspace.onSessions (Paired M))
        ((act S).exec w) ((act' S').exec v))
    {w : Workspace (Method α) ω} {v : Workspace (Method α) ω'}
    (hwv : Workspace.Paired M (Carried (Aimed b n) (onBackend b')) w v) :
    Parallel (fun r r' w v => W r r' ∧ Workspace.Paired M (Carried (Aimed b n) (onBackend b')) w v)
      (Workspace.onSessions (Paired M)) ((dispatch act).exec w) ((dispatch act').exec v) := by
  obtain ⟨m, s⟩ := w
  obtain ⟨_, t⟩ := v
  obtain ⟨⟨hm, rfl⟩, hst⟩ := hwv
  refine .reading ?_
  -- Both sides run the same method, on memories that differ by the backend at most.
  cases m with
  | landweber k =>
    refine .wrapping (hact (Landweber.carries hA) (w := ⟨k, s⟩) (v := ⟨k, t⟩) ⟨rfl, hst⟩) ?_
    rintro r r' ⟨k, s⟩ ⟨_, t⟩ ⟨hr, rfl, hst⟩
    exact ⟨hr, ⟨trivial, rfl⟩, hst⟩
  | newton k =>
    refine .wrapping (hact (Newton.carries hA) (w := ⟨k, s⟩) (v := ⟨k, t⟩) ⟨rfl, hst⟩) ?_
    rintro r r' ⟨k, s⟩ ⟨_, t⟩ ⟨hr, rfl, hst⟩
    exact ⟨hr, ⟨trivial, rfl⟩, hst⟩
  | steepestDescent k =>
    refine .wrapping (hact (SteepestDescent.carries hA hdebug) (w := ⟨k, s⟩)
      (v := ⟨k.onBackend b', t⟩) ⟨rfl, hst⟩) ?_
    rintro r r' ⟨k, s⟩ ⟨_, t⟩ ⟨hr, rfl, hst⟩
    exact ⟨hr, ⟨trivial, rfl⟩, hst⟩
  | quasiNewton k =>
    refine .wrapping (hact (QuasiNewton.carries hA hdebug) (w := ⟨k, s⟩)
      (v := ⟨k.onBackend b', t⟩) ⟨⟨hm, rfl⟩, hst⟩) ?_
    rintro r r' ⟨k, s⟩ ⟨_, t⟩ ⟨hr, ⟨hk, rfl⟩, hst⟩
    exact ⟨hr, ⟨hk, rfl⟩, hst⟩
  | lineSearch k =>
    refine .wrapping (hact (LineSearch.carries hA) (w := ⟨k, s⟩) (v := ⟨k.onBackend b', t⟩)
      ⟨⟨hm, rfl⟩, hst⟩) ?_
    rintro r r' ⟨k, s⟩ ⟨_, t⟩ ⟨hr, ⟨hk, rfl⟩, hst⟩
    exact ⟨hr, ⟨hk, rfl⟩, hst⟩
  | dogleg k =>
    refine .wrapping (hact (Dogleg.carries hA) (w := ⟨k, s⟩) (v := ⟨k, t⟩) ⟨rfl, hst⟩) ?_
    rintro r r' ⟨k, s⟩ ⟨_, t⟩ ⟨hr, rfl, hst⟩
    exact ⟨hr, ⟨trivial, rfl⟩, hst⟩
  | trustRegion k =>
    refine .wrapping (hact (TrustRegion.carries hA hdebug) (w := ⟨k, s⟩) (v := ⟨k, t⟩) ⟨rfl, hst⟩) ?_
    rintro r r' ⟨k, s⟩ ⟨_, t⟩ ⟨hr, rfl, hst⟩
    exact ⟨hr, ⟨trivial, rfl⟩, hst⟩
  | script k => exact hm.elim

omit [Scalar α] in
/-- A method is ready for a run at any time. -/
theorem Aimed.shaped {m : Method α} (h : m.Aimed b n) : m.Shaped b n := by
  cases m with
  | lineSearch k => exact LineSearch.Aimed.shaped h
  | _ => exact h

omit [Scalar α] in
/-- Any method but a line search has no state that a run would have to prepare. -/
theorem aimed_or_lineSearch {m : Method α} (h : m.Shaped b n) :
    m.Aimed b n ∨ ∃ k : LineSearch α, m = .lineSearch k ∧ k.Shaped b n := by
  cases m with
  | lineSearch k => exact .inr ⟨k, rfl, h⟩
  | _ => exact .inl h

/-- **Every built-in method.** -/
theorem carries (hA : A.operator.Carries b b' n M A'.operator) (hdebug : A'.debug = A.debug) :
    Method.solver.Carries b b' n M (Carried (Shaped b n) (onBackend b'))
      (Carried (Aimed b n) (onBackend b')) A A' Method.solver where
  ready h := ⟨h.1.shaped, h.2⟩
  init := by
    rintro p ⟨m, s⟩ ⟨_, t⟩ hp ⟨⟨hm, rfl⟩, hst⟩
    obtain haimed | ⟨k, rfl, hk⟩ := aimed_or_lineSearch hm
    · exact parallel_dispatch hA hdebug (fun hS _ _ hwv => hS.init hp (hwv.mono hS.ready))
        ⟨⟨haimed, rfl⟩, hst⟩
    · refine .wrapping ((LineSearch.carries hA).init hp (w := ⟨k, s⟩) (v := ⟨k.onBackend b', t⟩)
        ⟨⟨hk, rfl⟩, hst⟩) ?_
      rintro r r' ⟨k, s⟩ ⟨_, t⟩ ⟨hr, ⟨hk, rfl⟩, hst⟩
      exact ⟨hr, ⟨hk, rfl⟩, hst⟩
  step hp := parallel_dispatch hA hdebug fun hS => hS.step hp
  terminate hp := parallel_dispatch hA hdebug fun hS => hS.terminate hp

end Method

end Minimization
