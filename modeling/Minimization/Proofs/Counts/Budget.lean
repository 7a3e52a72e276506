import Minimization.Proofs.QuasiNewton.Costs

namespace Minimization

/-!
# Evaluation budgets

What a run evaluates is told by its iterations, by the steps that it accepts and by the trials that its
searches make.

* `LineSearch.spends`, `LineSearch.ends_run_counts` — a search by backtracking.
* `QuasiNewton.spends` — a quasi-Newton method that searches so.
* `Run.accepted`, `Run.searched` — the accepted steps and the trials among so many iterations;
  `Run.unvalued` — the steps that start from an infinite cost.
* `Run.counts_landweber`, `Run.counts_newton`, `Run.counts_trustRegion`, `Run.counts_quasiNewton` — the
  counts after any number of iterations.
* `Run.unvalued_eq_zero` — no step starts from an infinite cost if none is evaluated.
* `Run.evaluation_budgets` — the counts of a run that returns.
-/

variable {σ ω η α : Type} [Scalar α] {A : Setting ω α}

/-! ### Searches by backtracking -/

namespace LineSearch

/-- A search by backtracking that has a direction. -/
def Shrinks (m : LineSearch α) : Prop :=
  ∃ s d, m = .backtracking s ∧ s.line.direction = some d

/-- What is not known is evaluated at the start, and then one cost in every trial. -/
theorem spends (A : Setting ω α) : Run.Spends (Run.nestedPlan solver A) Shrinks
    (fun p m d => d = Line.openingCounts p ∧ m.trials = 0)
    (fun _ w m d => ∃ k, d = ⟨k, 0, 0, 0⟩ ∧ m.trials = w.solver.trials + k) where
  init := by
    rintro p ⟨_, t⟩ ⟨s, d, rfl, hd⟩
    -- The search is by backtracking, so the dispatch is not asked again.
    show (dispatch _ _).Ends _ _ _
    rw [ends_dispatch_backtracking]
    refine (Backtracking.ends_init_opens (.anyhow A p d) hd fun _ _ _ _ => trivial).mono ?_
    rintro report? w ⟨c, v, l, slope, length, hopens, -, -, -, hcounts, hw⟩
    have hl := hopens.line
    have hline : w.solver.line = l := by rw [hw]
    refine ⟨⟨w.solver, d, rfl, ?_⟩, _, ⟨rfl, ?_⟩, hcounts⟩
    · rw [hline, hl]
      exact hd
    · show w.solver.line.trials = 0
      rw [hline, hl]
  step := by
    rintro p ⟨_, t⟩ ⟨s, d, rfl, hd⟩
    show (dispatch _ _).Ends _ _ _
    rw [ends_dispatch_backtracking]
    -- A search that is over makes no trial, and costs nothing.
    by_cases hdone : s.line.done = none
    · refine (Backtracking.ends_trial_tried (.anyhow A s.line) hdone).mono ?_
      rintro report w ⟨start, c, -, -, hw, hcounts, -⟩
      refine ⟨⟨w.solver, d, rfl, ?_⟩, _, ⟨1, rfl, ?_⟩, hcounts.trans (Counts.tick_eq_add ..)⟩
      · rw [hw]
        unfold Backtracking.tried
        split <;> exact hd
      · show w.solver.line.trials = s.line.trials + 1
        rw [hw]
        unfold Backtracking.tried
        split <;> rfl
    · refine (Backtracking.ends_trial_over hdone).mono ?_
      rintro report w ⟨-, rfl⟩
      exact ⟨⟨s, d, rfl, hd⟩, _, ⟨0, rfl, rfl⟩, (Counts.add_zero _).symm⟩
  terminate := by
    rintro p ⟨_, t⟩ ⟨s, d, rfl, -⟩
    show (solver.terminate p).Ends _ _ _
    exact (ends_terminate_line rfl).mono fun own v hv => hv.2

/-- **The counts of a search by backtracking** from a known cost and gradient: one cost for each trial,
    and one for the start if the cost there is infinite. -/
theorem ends_run_counts (s : Backtracking α) (x way gradient : Tensor α) (cost : α) (t : Session ω) :
    (run A x (some way) (some cost) (some gradient)).Ends ⟨.backtracking s, t⟩
      (fun _ w => (∃ s', w.solver = .backtracking s') ∧ w.session.counts = t.counts +
        ⟨(Scalar.isInfinite cost).toNat + w.solver.trials, 0, 0, 0⟩) fun _ => True := by
  refine .intro (fun found w hok => ?_) fun _ _ _ => trivial
  obtain ⟨n, reason, hn, -, hsolver, hfinal, -⟩ := goes_of_run rfl hok
  -- After any number of trials so many costs have been evaluated, and those of the start.
  obtain ⟨⟨s', d, hs', -⟩, hcounts⟩ := (spends A).counts (fun i =>
      Line.openingCounts (launched A (.backtracking s) x way (some cost) (some gradient) t).progress +
        ⟨(Run.stateAfter (Run.nestedPlan solver A)
          (launched A (.backtracking s) x way (some cost) (some gradient) t) i).solver.trials, 0, 0, 0⟩)
    ⟨_, way, rfl, rfl⟩ hn
    (by
      rintro d ⟨rfl, htrials⟩
      rw [htrials]
      exact (Counts.add_zero _).symm)
    (by
      rintro i hi - _ ⟨k, rfl, htrials⟩
      rw [htrials, Counts.add_assoc]
      rfl)
  refine ⟨⟨s', hsolver.trans hs'⟩, ?_⟩
  rw [hfinal, hcounts, openingCounts_known, hsolver]
  show t.counts + (Counts.zero + _) = _
  rw [Counts.zero_add]
  rfl

end LineSearch

/-! ### The quasi-Newton method -/

namespace QuasiNewton

/-- What follows the search evaluates one gradient and leaves the search alone. -/
theorem ends_learn_counts (x oldGradient h : Tensor α) (found : Progress α)
    (w : Workspace (QuasiNewton α) ω) : (learn A x oldGradient h found).Ends w
      (fun _ v => v.solver.search = w.solver.search ∧
        v.session.counts = w.session.counts.tick .gradient) fun _ => True := by
  refine ends_learn_iff.2 ((Session.ends_evaluate_anyhow .gradient _).mono fun gradient t ht => ?_)
  -- Updating the inverse Hessian writes a line at most.
  exact Action.ends_ofExcept (fun update _ => ⟨rfl, (noted_counts update t).trans ht⟩)
    fun _ _ => trivial

/-- **A step** evaluates one cost for each trial of its search, and one gradient at the end of it. -/
theorem ends_step_counts (p : Progress α) (w : Workspace (QuasiNewton α) ω) (hw : w.solver.Shrinks) :
    (step A p).Ends w (fun _ v => v.solver.Shrinks ∧ v.session.counts = w.session.counts +
      ⟨(Scalar.isInfinite p.cost).toNat + v.solver.search.trials, 1, 0, 0⟩) fun _ => True := by
  obtain ⟨⟨h, search⟩, t⟩ := w
  obtain ⟨b, rfl⟩ : ∃ b, search = .backtracking b := hw
  refine ends_step_of (fun _ _ => trivial) (fun _ _ _ _ => trivial) fun oldGradient image _ _ => ?_
  refine (LineSearch.ends_run_counts b _ _ oldGradient p.cost t).mono ?_
  rintro found v ⟨⟨b', hsearch⟩, hcounts⟩
  refine (ends_learn_counts p.param oldGradient h found _).mono ?_
  rintro report u ⟨hkept, hu⟩
  refine ⟨⟨b', hkept.trans hsearch⟩, ?_⟩
  rw [hu, hkept, hcounts]
  rfl

/-- One cost and one gradient at the start, and then what the steps evaluate. -/
theorem spends (A : Setting ω α) (O : Observer η α) (c : RunConfig α) :
    Run.Spends ⟨solver, O, A, c⟩ Shrinks (fun _ _ d => d = ⟨1, 1, 0, 0⟩)
      (fun p _ s d => d = ⟨(Scalar.isInfinite p.cost).toNat + s.search.trials, 1, 0, 0⟩) where
  init := by
    intro p w hw
    refine ends_init_iff.2 ((Session.ends_evaluate_anyhow .cost _).mono fun cost t ht => ?_)
    refine (Session.ends_evaluate_anyhow .gradient _).mono fun gradient u hu => ?_
    refine ⟨hw, _, rfl, ?_⟩
    show u.counts = _
    rw [hu, ht]
    rfl
  step := by
    intro p w hw
    refine (ends_step_counts p w hw).mono ?_
    rintro report v ⟨hv, hcounts⟩
    exact ⟨hv, _, rfl, hcounts⟩
  terminate := by
    intro p w _
    exact Action.ends_ofExcept (fun _ _ => rfl) fun _ _ => trivial

end QuasiNewton

/-! ### Whole runs -/

namespace Run

variable (P : Plan (Method α) ω η α) (r : Run (Method α) ω η α)

/-- The workspace in front of an iteration. -/
def placeAfter (i : ℕ) : Workspace (Method α) ω :=
  ⟨(stateAfter P r i).solver, (stateAfter P r i).session⟩

/-- The step that the method at hand makes from here is accepted; only a trust-region method has steps
    that are not. -/
def accepts (A : Setting ω α) (p : Progress α) (w : Workspace (Method α) ω) : Bool :=
  match w.solver with
  | .trustRegion s => TrustRegion.accepts A p ⟨s, w.session⟩
  | _ => true

/-- How many of the first `n` steps are accepted. -/
def accepted (n : ℕ) : ℕ :=
  ∑ i ∈ Finset.range n,
    (accepts P.setting (stateAfter P r i).progress (placeAfter P r i)).toNat

/-- How many trials the searches of the first `n` steps make. -/
def searched (n : ℕ) : ℕ := ∑ i ∈ Finset.range n, (stateAfter P r (i + 1)).solver.trials

/-- How many of the first `n` steps start from an infinite cost. -/
def unvalued (n : ℕ) : ℕ :=
  ∑ i ∈ Finset.range n, (Scalar.isInfinite (stateAfter P r i).progress.cost).toNat

variable {P r}

theorem accepted_succ (i : ℕ) : accepted P r (i + 1) = accepted P r i +
    (accepts P.setting (stateAfter P r i).progress (placeAfter P r i)).toNat :=
  Finset.sum_range_succ ..

theorem searched_succ (i : ℕ) :
    searched P r (i + 1) = searched P r i + (stateAfter P r (i + 1)).solver.trials :=
  Finset.sum_range_succ ..

theorem unvalued_succ (i : ℕ) : unvalued P r (i + 1) =
    unvalued P r i + (Scalar.isInfinite (stateAfter P r i).progress.cost).toNat :=
  Finset.sum_range_succ ..

/-! ### After any number of iterations -/

section
variable {O : Observer η α} {c : RunConfig α} {r : Run (Method α) ω η α} {n : ℕ}

/-- Landweber iteration. -/
theorem counts_landweber {s : Landweber α} (hr : r.solver = .landweber s)
    (hn : Goes (plan A O c) r n) : (stateAfter (plan A O c) r n).session.counts =
      r.session.counts + ⟨if s.costing then n else 0, n, 0, 0⟩ := by
  refine (((Landweber.spends A O c s.costing).wrapped .landweber fun _ _ => rfl).counts
    (fun i => ⟨if s.costing then i else 0, i, 0, 0⟩) ⟨s, hr, rfl⟩ hn ?_ ?_).2
  · rintro d ⟨s', -, rfl⟩
    by_cases hcosting : s.costing <;> simp [hcosting, Counts.zero]
  · rintro i - - d ⟨s', s'', -, -, rfl⟩
    by_cases hcosting : s.costing
    · simp only [hcosting, if_true]
      rfl
    · simp only [hcosting, Bool.false_eq_true, if_false]
      rfl

/-- Newton's method. -/
theorem counts_newton {s : Newton α} (hr : r.solver = .newton s) (hn : Goes (plan A O c) r n) :
    (stateAfter (plan A O c) r n).session.counts = r.session.counts + ⟨0, n, n, 0⟩ := by
  refine (((Newton.spends A O c).wrapped .newton fun _ _ => rfl).counts
    (fun i => ⟨0, i, i, 0⟩) ⟨s, hr, trivial⟩ hn ?_ ?_).2
  · rintro d ⟨s', -, rfl⟩
    rfl
  · rintro i - - d ⟨s', s'', -, -, rfl⟩
    rfl

/-- The trust-region method. -/
theorem counts_trustRegion {s : TrustRegion α} (hr : r.solver = .trustRegion s)
    (hn : Goes (plan A O c) r n) : (stateAfter (plan A O c) r n).session.counts =
      r.session.counts + ⟨1 + n, 1 + accepted (plan A O c) r n, 1 + accepted (plan A O c) r n, 0⟩ := by
  refine (((TrustRegion.spends O c A).wrapped .trustRegion fun _ _ => rfl).counts
    (fun i =>
      ⟨1 + i, 1 + accepted (plan A O c) r i, 1 + accepted (plan A O c) r i, 0⟩)
    ⟨s, hr, trivial⟩ hn ?_ ?_).2
  · rintro d ⟨s', -, rfl⟩
    rfl
  · rintro i - - d ⟨s', s'', hs', -, rfl⟩
    -- The method at hand accepts the step that the solver in it accepts.
    have haccepts : accepts A (stateAfter (plan A O c) r i).progress (placeAfter (plan A O c) r i) =
        TrustRegion.accepts A (stateAfter (plan A O c) r i).progress
          ⟨s', (stateAfter (plan A O c) r i).session⟩ := by
      have hsolver : (stateAfter (plan A O c) r i).solver = .trustRegion s' := hs'
      unfold accepts placeAfter
      rw [hsolver]
    have hnext : accepted (plan A O c) r (i + 1) = accepted (plan A O c) r i +
        (TrustRegion.accepts A (stateAfter (plan A O c) r i).progress
          ⟨s', (stateAfter (plan A O c) r i).session⟩).toNat := by
      rw [accepted_succ, ← haccepts]
      rfl
    ext
    · rfl
    · exact (Nat.add_assoc ..).trans (congrArg (1 + ·) hnext.symm)
    · exact (Nat.add_assoc ..).trans (congrArg (1 + ·) hnext.symm)
    · rfl

/-- The quasi-Newton method with backtracking. -/
theorem counts_quasiNewton {s : QuasiNewton α} (hr : r.solver = .quasiNewton s) (hs : s.Shrinks)
    (hn : Goes (plan A O c) r n) : (stateAfter (plan A O c) r n).session.counts = r.session.counts +
      ⟨1 + searched (plan A O c) r n + unvalued (plan A O c) r n, 1 + n, 0, 0⟩ := by
  refine (((QuasiNewton.spends A O c).wrapped .quasiNewton fun _ _ => rfl).counts
    -- The total after so many iterations, and what one more adds to it.
    (fun i =>
      ⟨1 + searched (plan A O c) r i + unvalued (plan A O c) r i, 1 + i, 0, 0⟩)
    ⟨s, hr, hs⟩ hn ?_ ?_).2
  · rintro d ⟨s', -, rfl⟩
    rfl
  · rintro i - - d ⟨s', s'', -, hs'', rfl⟩
    -- The trials of an iteration are those that its search has counted.
    have htrials : (stateAfter (plan A O c) r (i + 1)).solver.trials = s''.search.trials := by
      rw [hs'']
      rfl
    ext
    · show 1 + searched (plan A O c) r i + unvalued (plan A O c) r i +
        ((Scalar.isInfinite (stateAfter (plan A O c) r i).progress.cost).toNat + s''.search.trials) =
          1 + searched (plan A O c) r (i + 1) + unvalued (plan A O c) r (i + 1)
      rw [searched_succ, unvalued_succ, htrials]
      omega
    · rfl
    · rfl
    · rfl

end

/-- A run that returns has made the iterations that it shows, and its counts are those after them. -/
theorem goes_of_returned {O : Observer η α} {c : RunConfig α} {m : Method α} {x : Tensor α}
    {cost? : Option α} {gradient? hessian? : Option (Tensor α)} {session : Session ω}
    {ws : List (Watch η)} {final : Run (Method α) ω η α}
    (h : (execute (plan A O c)).exec
      (fresh (plan A O c) x cost? gradient? hessian? m session ws) = (.ok (), final)) :
    Goes (plan A O c) (fresh (plan A O c) x cost? gradient? hessian? m session ws)
      final.progress.iter ∧
    final.session.counts = (stateAfter (plan A O c)
      (fresh (plan A O c) x cost? gradient? hessian? m session ws) final.progress.iter).session.counts := by
  obtain ⟨n, reason, hn, hprogress, -, -, hcounts, -⟩ := goes_of_ok h
  obtain ⟨hiter, -, -⟩ := seeded_unstarted x (c.maxIters : ℤ) cost? gradient? hessian?
  have hcount : final.progress.iter = n := by
    rw [hprogress]
    show (stateAfter _ _ n).progress.iter = n
    rw [hn.iter_eq]
    exact (congrArg (· + n) hiter).trans (Nat.zero_add n)
  rw [hcount]
  exact ⟨hn, hcounts⟩

/-- If no cost that a run evaluates is infinite, none of its steps starts from an infinite cost. -/
theorem unvalued_eq_zero {O : Observer η α} {c : RunConfig α} {r final : Run (Method α) ω η α}
    {s : QuasiNewton α} (hr : r.solver = .quasiNewton s) (hs : s.Shrinks)
    (h : (execute (plan A O c)).exec r = (.ok (), final))
    (hfinite : ∀ v ∈ costs A O c r, Scalar.isInfinite v = false) {n : ℕ}
    (hn : r.progress.iter + n = final.progress.iter) : unvalued (plan A O c) r n = 0 := by
  refine Finset.sum_eq_zero fun i hi => ?_
  have hin : i < n := Finset.mem_range.1 hi
  rw [hfinite _ (cost_mem_costs hr hs h (by omega))]
  rfl

/-- **Exact budgets.**  A run that starts with no counts and returns after `n` iterations has evaluated:

    Landweber iteration, `n` gradients, and `n` costs if the costs are wanted; Newton's method, `n`
    gradients and `n` Hessians; the trust-region method, `1 + n` costs, and one gradient and one
    Hessian for the start and for each accepted step; the quasi-Newton method with backtracking,
    `1 + n` gradients, and one cost for the start and for each trial of a search, if no cost that it
    evaluates is infinite. -/
theorem evaluation_budgets (A : Setting ω α) (O : Observer η α) (c : RunConfig α) {m : Method α}
    (x : Tensor α) (cost? : Option α) (gradient? hessian? : Option (Tensor α)) {session : Session ω}
    (ws : List (Watch η)) (hsession : session.counts = .zero) {final : Run (Method α) ω η α}
    (hrun : (execute (plan A O c)).exec
      (fresh (plan A O c) x cost? gradient? hessian? m session ws) = (.ok (), final)) :
    let P := plan A O c
    let r := fresh P x cost? gradient? hessian? m session ws
    let n := final.progress.iter
    (∀ s, m = .landweber s → final.session.counts = ⟨if s.costing then n else 0, n, 0, 0⟩) ∧
    (∀ s, m = .newton s → final.session.counts = ⟨0, n, n, 0⟩) ∧
    (∀ s, m = .trustRegion s →
      final.session.counts = ⟨1 + n, 1 + accepted P r n, 1 + accepted P r n, 0⟩) ∧
    (∀ s b, m = .quasiNewton s → s.search = .backtracking b →
      (∀ v ∈ costs A O c r, Scalar.isInfinite v = false) →
        final.session.counts = ⟨1 + searched P r n, 1 + n, 0, 0⟩) := by
  intro P r n
  obtain ⟨hn, hcounts⟩ := goes_of_returned hrun
  have hbase : r.session.counts = .zero := hsession
  -- A run starts with no counts, so its total is all that it has counted.
  have hfinal {d : Counts} (h : (stateAfter P r n).session.counts = r.session.counts + d) :
      final.session.counts = d := by rw [hcounts, h, hbase, Counts.zero_add]
  refine ⟨fun s hs => hfinal (counts_landweber hs hn), fun s hs => hfinal (counts_newton hs hn),
    fun s hs => hfinal (counts_trustRegion hs hn), fun s b hs hb hfinite => ?_⟩
  have hzero : r.progress.iter = 0 :=
    (seeded_unstarted x (c.maxIters : ℤ) cost? gradient? hessian?).1
  have hiter : r.progress.iter + n = final.progress.iter := by rw [hzero, Nat.zero_add]
  -- Costs that are finite need not be evaluated again.
  rw [hfinal (counts_quasiNewton hs ⟨b, hb⟩ hn), unvalued_eq_zero hs ⟨b, hb⟩ hrun hfinite hiter]
  rfl

/-- The sphere function with a Hessian that is too small. -/
def flatSphere : Operator Unit (Exact ℚ) :=
  { sphereOperator with hessian? := some fun _ => pure (.matrix .array 2 [[0.5, 0.0], [0.0, 0.5]]) }

/-- Two iterations on it. -/
def flatPlan : Plan (Method (Exact ℚ)) Unit Empty (Exact ℚ) :=
  plan ⟨flatSphere, false⟩ noObserver ⟨2, -1.0, true⟩

/-- The run of a method from the point `(3, 4)`. -/
def flatStart (m : Method (Exact ℚ)) : Run (Method (Exact ℚ)) Unit Empty (Exact ℚ) :=
  fresh flatPlan (.vector .array [3.0, 4.0]) none none none m (.start ()) []

/-- Both trust-region steps are too long and are rejected, and one of the two searches makes two
    trials. -/
theorem evaluation_budgets_sphere :
    (∃ final, (execute flatPlan).exec (flatStart (.landweber ⟨0.25, false⟩)) = (.ok (), final) ∧
      final.session.counts = ⟨0, 2, 0, 0⟩) ∧
    (∃ final, (execute flatPlan).exec (flatStart (.newton ⟨0.5⟩)) = (.ok (), final) ∧
      final.session.counts = ⟨0, 2, 2, 0⟩) ∧
    (∃ final, (execute flatPlan).exec (flatStart (.trustRegion ⟨.dogleg .unset, 80.0, 100.0, 0.125⟩)) =
      (.ok (), final) ∧ final.session.counts = ⟨3, 1, 1, 0⟩) ∧
    ∃ final, (execute flatPlan).exec
      (flatStart (.quasiNewton ⟨.matrix .array 2 [[1.0, 0.0], [0.0, 0.25]], halvedSteps⟩)) =
      (.ok (), final) ∧ final.session.counts = ⟨4, 3, 0, 0⟩ := by
  have hok (m : Method (Exact ℚ)) (h : ((execute flatPlan).exec (flatStart m)).1.isOk = true) :=
    Action.exec_eq_of_isOk h
  have hlandweber := hok (.landweber ⟨0.25, false⟩) (by decide +kernel)
  have hnewton := hok (.newton ⟨0.5⟩) (by decide +kernel)
  have htrust := hok (.trustRegion ⟨.dogleg .unset, 80.0, 100.0, 0.125⟩) (by decide +kernel)
  have hquasi := hok (.quasiNewton ⟨.matrix .array 2 [[1.0, 0.0], [0.0, 0.25]], halvedSteps⟩)
    (by decide +kernel)
  have hbudget {m : Method (Exact ℚ)} {final : Run (Method (Exact ℚ)) Unit Empty (Exact ℚ)}
      (h : (execute flatPlan).exec (flatStart m) = (.ok (), final)) :=
    evaluation_budgets ⟨flatSphere, false⟩ noObserver ⟨2, -1.0, true⟩ (.vector .array [3.0, 4.0]) none
      none none [] rfl h
  refine ⟨⟨_, hlandweber, ?_⟩, ⟨_, hnewton, ?_⟩, ⟨_, htrust, ?_⟩, ⟨_, hquasi, ?_⟩⟩
  · refine ((hbudget hlandweber).1 _ rfl).trans ?_
    decide +kernel
  · refine ((hbudget hnewton).2.1 _ rfl).trans ?_
    decide +kernel
  · refine ((hbudget htrust).2.2.1 _ rfl).trans ?_
    decide +kernel
  · refine ((hbudget hquasi).2.2.2 _ _ rfl rfl (by decide +kernel)).trans ?_
    decide +kernel

end Run

end Minimization
