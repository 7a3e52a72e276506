import Minimization.Proofs.Counts.Nested
import Minimization.Proofs.LineSearch.Conduct
import Minimization.Proofs.Method.Reopening
import Minimization.Proofs.Run.Finished
import Minimization.Proofs.TrustRegion.Step

namespace Minimization

/-!
# What a run spends

The counts of a run are those of its start and of its iterations, one after another.

* `Run.Spends` — what the parts of a run add to the counts.
* `Run.Spends.ends_iterate` — so much is added by an iteration; `Run.Spends.each` — and by each of a
  run; `Run.Spends.counts` — what any number of them adds.
* `Run.Spends.wrapped` — a solver spends as much when it is the method at hand.
* `Landweber.spends`, `Newton.spends` — methods that spend the same in every iteration.
* `TrustRegion.accepts` — the decision of a step.
* `TrustRegion.spends` — the derivatives are evaluated where a step is accepted, and only there.
-/

variable {σ ω η α : Type} [Scalar α]

namespace Run

variable {P : Plan σ ω η α} {r t : Run σ ω η α} {n : ℕ}

/-- What holds after the start of a run and is kept by every iteration holds after any number. -/
theorem Goes.keeps {J : ℕ → Run σ ω η α → Prop} (hn : Goes P r n)
    (hstart : (opening P).Ends (begun P r) (fun _ t => J 0 t) fun _ => True)
    (hnext : ∀ i < n, J i (stateAfter P r i) →
      (iterate P).Ends (stateAfter P r i) (fun _ t => J (i + 1) t) fun _ => True) :
    J n (stateAfter P r n) := by
  induction n with
  | zero => exact hstart.of_ok hn.opening_eq
  | succ n ih =>
    have hlast := Nat.lt_succ_self n
    have hbefore := ih (hn.mono (Nat.le_succ n)) fun i hi => hnext i (hi.trans hlast)
    exact (hnext n hlast hbefore).of_ok (hn.iterate_eq hlast)

/-- What the parts of a run add to the counts, as long as the solver is one for which `I` holds: its
    start adds an amount as `first` tells from the progress and the solver after it, and a step one
    as `spent` tells from the progress and the workspace before it and the solver after it. -/
structure Spends (P : Plan σ ω η α) (I : σ → Prop) (first : Progress α → σ → Counts → Prop)
    (spent : Progress α → Workspace σ ω → σ → Counts → Prop) : Prop where
  init : ∀ {p : Progress α} {w : Workspace σ ω}, I w.solver →
    (P.solver.init P.setting p).Ends w (fun _ v => I v.solver ∧
      ∃ d, first p v.solver d ∧ v.session.counts = w.session.counts + d) fun _ => True
  step : ∀ {p : Progress α} {w : Workspace σ ω}, I w.solver →
    (P.solver.step P.setting p).Ends w (fun _ v => I v.solver ∧
      ∃ d, spent p w v.solver d ∧ v.session.counts = w.session.counts + d) fun _ => True
  terminate : ∀ {p : Progress α} {w : Workspace σ ω}, I w.solver →
    (P.solver.terminate p).Ends w (fun _ v => v = w) fun _ => True

namespace Spends

variable {I : σ → Prop} {first : Progress α → σ → Counts → Prop}
  {spent : Progress α → Workspace σ ω → σ → Counts → Prop}

/-- The start of a run. -/
theorem ends_opening (h : Spends P I first spent) (hI : I t.solver) :
    (opening P).Ends t (fun _ t' => I t'.solver ∧ ∃ d, first t.progress t'.solver d ∧
      t'.session.counts = t.session.counts + d) fun _ => True :=
  Run.ends_opening (Q := fun _ s counts => I s ∧
      ∃ d, first t.progress s d ∧ counts = t.session.counts + d) (h.init (w := ⟨t.solver, t.session⟩) hI)
    fun _ _ _ => Action.ends_anyhow _ _

/-- **One iteration** adds what its step adds. -/
theorem ends_iterate (h : Spends P I first spent) (hgo : t.progress.reason = .notTerminated)
    (hI : I t.solver) : (iterate P).Ends t (fun _ t' => I t'.solver ∧
      ∃ d, spent t.progress ⟨t.solver, t.session⟩ t'.solver d ∧
        t'.session.counts = t.session.counts + d) fun _ => True := by
  refine Run.ends_iterate (Q := fun _ s counts => I s ∧
      ∃ d, spent t.progress ⟨t.solver, t.session⟩ s d ∧ counts = t.session.counts + d) hgo ?_
    fun _ _ _ _ => Action.ends_anyhow _ _
  refine (h.step (w := ⟨t.solver, t.session⟩) hI).mono ?_
  rintro report w ⟨hw, d, hd, hcounts⟩
  refine ⟨fun _ _ => trivial, fun session hsession => ?_⟩
  refine (h.terminate (w := ⟨w.solver, session⟩) hw).mono ?_
  rintro own v rfl
  exact ⟨hw, d, hd, hsession.trans hcounts⟩

/-- **Each part of a run**: the start adds its amount, and so does every iteration. -/
theorem each (h : Spends P I first spent) (hI : I r.solver) (hn : Goes P r n) :
    (∀ i ≤ n, I (stateAfter P r i).solver) ∧
    (∃ d, first r.progress (stateAfter P r 0).solver d ∧
      (stateAfter P r 0).session.counts = r.session.counts + d) ∧
    ∀ i < n, ∃ d,
      spent (stateAfter P r i).progress ⟨(stateAfter P r i).solver, (stateAfter P r i).session⟩
        (stateAfter P r (i + 1)).solver d ∧
      (stateAfter P r (i + 1)).session.counts = (stateAfter P r i).session.counts + d := by
  obtain ⟨hprogress, hsolver, hcounts⟩ := begun_course P r
  obtain ⟨hfirst, hstart⟩ := (h.ends_opening (t := begun P r) (hsolver.symm ▸ hI)).of_ok hn.opening_eq
  rw [hprogress, hcounts] at hstart
  have hnext {i : ℕ} (hi : i < n) (hI : I (stateAfter P r i).solver) :=
    (h.ends_iterate (hn.running i hi) hI).of_ok (hn.iterate_eq hi)
  -- The memory is followed first, because what an iteration spends depends on it.
  have hholds : ∀ i ≤ n, I (stateAfter P r i).solver := by
    intro i hi
    induction i with
    | zero => exact hfirst
    | succ i ih => exact (hnext hi (ih (Nat.le_of_succ_le hi))).1
  exact ⟨hholds, hstart, fun i hi => (hnext hi (hholds i hi.le)).2⟩

/-- **Any number of iterations**: if what the parts add comes to `total`, so do the counts. -/
theorem counts (h : Spends P I first spent) (total : ℕ → Counts) (hI : I r.solver) (hn : Goes P r n)
    (hfirst : ∀ d, first r.progress (stateAfter P r 0).solver d → d = total 0)
    (hspent : ∀ i < n, I (stateAfter P r i).solver → ∀ d,
      spent (stateAfter P r i).progress ⟨(stateAfter P r i).solver, (stateAfter P r i).session⟩
        (stateAfter P r (i + 1)).solver d → total i + d = total (i + 1)) :
    I (stateAfter P r n).solver ∧
      (stateAfter P r n).session.counts = r.session.counts + total n := by
  obtain ⟨hholds, ⟨d, hd, hstart⟩, hnext⟩ := h.each hI hn
  -- Each iteration adds what takes one total to the next.
  have hcounts : ∀ i ≤ n, (stateAfter P r i).session.counts = r.session.counts + total i := by
    intro i hi
    induction i with
    | zero => rw [hstart, hfirst d hd]
    | succ i ih =>
      obtain ⟨d, hd, hadded⟩ := hnext i hi
      have hbefore := Nat.le_of_succ_le hi
      rw [hadded, ih hbefore, Counts.add_assoc, hspent i hi (hholds i hbefore) d hd]
  exact ⟨hholds n le_rfl, hcounts n le_rfl⟩

/-- A solver spends as much when it is the method at hand. -/
theorem wrapped {S : Solver σ ω α} {O : Observer η α} {A : Setting ω α} {c : RunConfig α}
    (wrap : σ → Method α)
    (hact : ∀ {β : Type} (act : {σ : Type} → Solver σ ω α → Action (Workspace σ ω) α β) (s : σ),
      Method.acting act (wrap s) = Workspace.wrapping wrap s (act S))
    (h : Spends ⟨S, O, A, c⟩ I first spent) :
    Spends (plan A O c) (fun m => ∃ s, m = wrap s ∧ I s)
      (fun p m d => ∃ s, m = wrap s ∧ first p s d)
      (fun p w m d => ∃ s s', w.solver = wrap s ∧ m = wrap s' ∧ spent p ⟨s, w.session⟩ s' d) where
  init := by
    -- The dispatch finds the method, which then works on its own memory.
    rintro p ⟨_, session⟩ ⟨s, rfl, hs⟩
    show (Method.dispatch fun S => S.init A p).Ends _ _ _
    rw [Method.ends_dispatch, hact, Workspace.ends_wrapping]
    refine (h.init (w := ⟨s, session⟩) hs).mono ?_
    rintro report? v ⟨hv, d, hd, hcounts⟩
    exact ⟨⟨_, rfl, hv⟩, d, ⟨_, rfl, hd⟩, hcounts⟩
  step := by
    rintro p ⟨_, session⟩ ⟨s, rfl, hs⟩
    show (Method.dispatch fun S => S.step A p).Ends _ _ _
    rw [Method.ends_dispatch, hact, Workspace.ends_wrapping]
    refine (h.step (w := ⟨s, session⟩) hs).mono ?_
    rintro report v ⟨hv, d, hd, hcounts⟩
    exact ⟨⟨_, rfl, hv⟩, d, ⟨_, _, rfl, rfl, hd⟩, hcounts⟩
  terminate := by
    rintro p ⟨_, session⟩ ⟨s, rfl, hs⟩
    show (Method.dispatch fun S => S.terminate p).Ends _ _ _
    rw [Method.ends_dispatch, hact, Workspace.ends_wrapping]
    refine (h.terminate (w := ⟨s, session⟩) hs).mono ?_
    rintro own v rfl
    rfl

end Spends

end Run

/-! ### The same in every iteration -/

variable (A : Setting ω α) (O : Observer η α) (c : RunConfig α)

/-- One gradient, and one cost if the costs are wanted. -/
theorem Landweber.spends (costing : Bool) : Run.Spends ⟨Landweber.solver, O, A, c⟩
    (fun s => s.costing = costing) (fun _ _ d => d = .zero)
    (fun _ _ _ d => d = ⟨if costing then 1 else 0, 1, 0, 0⟩) where
  init := by
    intro p w hw
    exact ⟨hw, .zero, rfl, (Counts.add_zero _).symm⟩
  step := by
    rintro p ⟨s, session⟩ rfl
    refine Landweber.ends_step_iff.2 ((Session.ends_evaluate_anyhow .gradient _).mono fun g t ht => ?_)
    refine Action.ends_ofExcept (fun x _ => ?_) fun _ _ => trivial
    -- The settings say whether the new point is valued.
    cases hcosting : s.costing with
    | true =>
      refine (Session.ends_evaluate_anyhow .cost _).mono fun c u hu => ⟨hcosting, _, rfl, ?_⟩
      rw [hu, ht]
      rfl
    | false =>
      refine ⟨rfl, _, rfl, ?_⟩
      rw [ht]
      rfl
  terminate _ := rfl

/-- One gradient and one Hessian. -/
theorem Newton.spends : Run.Spends ⟨Newton.solver, O, A, c⟩ (fun _ => True)
    (fun _ _ d => d = .zero) (fun _ _ _ d => d = ⟨0, 1, 1, 0⟩) where
  init := by
    intro p w hw
    exact ⟨hw, .zero, rfl, (Counts.add_zero _).symm⟩
  step := by
    rintro p ⟨s, session⟩ -
    refine Newton.ends_step_iff.2 ((Session.ends_evaluate_anyhow .gradient _).mono fun g t ht => ?_)
    refine (Session.ends_evaluate_anyhow .hessian _).mono fun h u hu => ?_
    refine Action.ends_ofExcept (fun x _ => ⟨trivial, _, rfl, ?_⟩) fun _ _ => trivial
    rw [hu, ht]
    rfl
  terminate _ := rfl

/-! ### The trust-region method -/

namespace TrustRegion

variable {A}

/-- The step from here is accepted. -/
def accepts (A : Setting ω α) (p : Progress α) (w : Workspace (TrustRegion α) ω) : Bool :=
  match (attempt A p).exec w with
  | (.ok (_, _, t), v) => t.isTaken p.cost v.solver.acceptance
  | (.error _, _) => false

/-- The run inside a step counts nothing. -/
theorem ends_subproblemStep_counts (x gradient hessian : Tensor α)
    (w : Workspace (TrustRegion α) ω) : (subproblemStep A x gradient hessian).Ends w
      (fun _ v => v.session.counts = w.session.counts) fun _ => True := by
  refine ends_subproblemStep_of (fun _ _ => trivial) fun dogleg _ => ?_
  rw [Run.nested_eq, Workspace.ends_nested]
  refine .intro (fun found v hok => ?_) fun _ _ _ => trivial
  have hquiet := Dogleg.inner_quiet A x gradient hessian
    (Workspace.withCounts ⟨dogleg, w.session⟩ .zero)
  rw [hok] at hquiet
  show w.session.counts + v.session.counts = w.session.counts
  rw [hquiet]
  exact Counts.add_zero _

/-- A trial evaluates one cost. -/
theorem ends_attempt_counts (p : Progress α) (w : Workspace (TrustRegion α) ω) : (attempt A p).Ends w
    (fun _ v => v.session.counts = w.session.counts.tick .cost) fun _ => True := by
  rw [attempt_eq, Action.ends_bind]
  refine ends_explore_of fun g h _ _ => ?_
  refine (ends_subproblemStep_counts p.param g h w).mono fun direction v hv x _ => ?_
  refine (Session.ends_evaluate_anyhow .cost _).mono fun cost u hu predicted length _ _ => ?_
  exact hu.trans (congrArg (Counts.tick · .cost) hv)

/-- The decision evaluates both derivatives, or nothing. -/
theorem ends_conclude_counts (p : Progress α) (gradient hessian : Tensor α) (t : Trial α)
    (w : Workspace (TrustRegion α) ω) : (conclude A p gradient hessian t).Ends w
      (fun _ v => v.session.counts = w.session.counts +
        if t.isTaken p.cost w.solver.acceptance then ⟨0, 1, 1, 0⟩ else .zero) fun _ => True := by
  rw [ends_conclude_iff]
  split
  · refine (Session.ends_evaluate_anyhow .gradient _).mono fun v u hu => ?_
    refine (Session.ends_evaluate_anyhow .hessian _).mono fun m u' hu' => ?_
    show u'.counts = _
    rw [hu', hu]
    rfl
  · exact (Counts.add_zero _).symm

/-- **A step evaluates one cost, and the two derivatives if it is accepted.** -/
theorem ends_step_counts (p : Progress α) (w : Workspace (TrustRegion α) ω) : (step A p).Ends w
    (fun _ v => v.session.counts = w.session.counts +
      ⟨1, (accepts A p w).toNat, (accepts A p w).toNat, 0⟩) fun _ => True := by
  rw [step_parts, Action.ends_bind]
  refine (ends_attempt_counts p w).executed.mono ?_
  rintro ⟨gradient, hessian, t⟩ v ⟨hexec, hv⟩
  refine (ends_conclude_counts p gradient hessian t v).mono fun report u hu => ?_
  have haccepts : accepts A p w = t.isTaken p.cost v.solver.acceptance := by
    unfold accepts
    rw [hexec]
  rw [hu, hv, haccepts]
  cases t.isTaken p.cost v.solver.acceptance <;> rfl

/-- All three at the start, then one cost in every iteration, and the derivatives where a step is
    accepted. -/
theorem spends (A : Setting ω α) : Run.Spends ⟨solver, O, A, c⟩ (fun _ => True)
    (fun _ _ d => d = ⟨1, 1, 1, 0⟩)
    (fun p w _ d => d = ⟨1, (accepts A p w).toNat, (accepts A p w).toNat, 0⟩) where
  init := by
    intro p w _
    rw [ends_init_iff]
    refine (Session.ends_evaluate_anyhow .cost _).mono fun cost t ht => ?_
    refine (Session.ends_evaluate_anyhow .gradient _).mono fun gradient u hu => ?_
    refine (Session.ends_evaluate_anyhow .hessian _).mono fun hessian v hv => ?_
    refine ⟨trivial, _, rfl, ?_⟩
    show v.counts = _
    rw [hv, hu, ht]
    rfl
  step := by
    intro p w _
    exact (ends_step_counts p w).mono fun report v hv => ⟨trivial, _, rfl, hv⟩
  terminate := by
    intro p w _
    exact ends_terminate_iff.2 (Action.ends_ofExcept (fun _ _ => rfl) fun _ _ => trivial)

end TrustRegion

end Minimization
