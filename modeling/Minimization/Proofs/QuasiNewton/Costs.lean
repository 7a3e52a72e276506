import Minimization.Proofs.Counts.Spending
import Minimization.Proofs.Method.Trials
import Minimization.Proofs.Operator.Transcript

namespace Minimization

/-!
# The costs that a quasi-Newton method goes on from

The cost that is shown after an iteration of a quasi-Newton method with backtracking, and that the next
search starts from, is one that the operator has answered, whatever was given at the start.

* `Session.ends_cost_vouched`, `Session.ends_gradient_vouched` — evaluations.
* `Run.Tells` — the parts of a run keep it that the cost shown has been answered; `Run.Tells.cost` — so do
  any number of iterations.
* `Backtracking.ends_init_vouched`, `Backtracking.ends_trial_vouched` — the start of a search and a trial.
* `LineSearch.ends_run_vouched` — a search from a cost that has been answered ends with one.
* `QuasiNewton.tells` — the start and a step of the method.
* `Run.cost_mem_costs` — so the cost that is shown after an iteration is among those that the run
  evaluates.
-/

variable {σ ω η α : Type} [Scalar α] {A : Setting ω α} {N : α → ω → Prop}

namespace Session

variable {t : Session ω} {x : Tensor α} {c : α}

omit [Scalar α] in
/-- A cost that is evaluated has been answered. -/
theorem ends_cost_vouched (h : A.operator.Vouches N) :
    (cost A.operator x).Ends t (fun c u => N c u.host.memory) fun _ => True := by
  unfold cost
  rw [Session.ends_evaluate]
  exact .intro (fun c host hexec => h.cost hexec) fun _ _ _ => trivial

omit [Scalar α] in
/-- What has been answered is so after a gradient. -/
theorem ends_gradient_vouched (h : A.operator.Vouches N) (hc : N c t.host.memory) :
    (gradient A.operator x).Ends t (fun _ u => N c u.host.memory) fun _ => True := by
  unfold gradient
  rw [Session.ends_evaluate]
  refine .intro (fun _ host hexec => ?_) fun _ _ _ => trivial
  have hkept := (h.keeps c).gradient x t.host hc
  rwa [hexec] at hkept

end Session

/-! ### From the parts to a run -/

namespace Run

variable {P : Plan σ ω η α} {r : Run σ ω η α} {n : ℕ}

/-- What the parts of a run keep, as long as the solver is one for which `I` holds: the cost that is
    shown has been answered.  At the start this follows from `K`. -/
structure Tells (P : Plan σ ω η α) (I : σ → Prop) (N : α → ω → Prop) (K : Progress α → ω → Prop) :
    Prop where
  init : ∀ {p : Progress α} {w : Workspace σ ω}, I w.solver → K p w.session.host.memory →
    (P.solver.init P.setting p).Ends w (fun report? v => I v.solver ∧
      N (started p report?).cost v.session.host.memory) fun _ => True
  step : ∀ {p : Progress α} {w : Workspace σ ω}, I w.solver → N p.cost w.session.host.memory →
    (P.solver.step P.setting p).Ends w (fun report v => I v.solver ∧
      N (p.update report).1.cost v.session.host.memory) fun _ => True
  terminate : ∀ {p : Progress α} {w : Workspace σ ω}, I w.solver →
    (P.solver.terminate p).Ends w (fun _ v => v = w) fun _ => True

/-- **The cost that is shown has been answered**, after any number of iterations. -/
theorem Tells.cost {I : σ → Prop} {K : Progress α → ω → Prop} (h : Tells P I N K) (hI : I r.solver)
    (hK : K r.progress r.session.host.memory) (hn : Goes P r n) : I (stateAfter P r n).solver ∧
      N (stateAfter P r n).progress.cost (stateAfter P r n).session.host.memory := by
  obtain ⟨hprogress, hsolver, -⟩ := begun_course P r
  -- By induction over the iterations: the opening starts the invariant and each iteration keeps it. The
  -- observers come in between, but they do not reach the host.
  refine hn.keeps (J := fun _ t => I t.solver ∧ N t.progress.cost t.session.host.memory) ?_ ?_
  · refine ends_opening_hosted (Q := fun p s host _ => I s ∧ N p.cost host.memory) ?_
      fun _ _ _ => Action.ends_anyhow _ _
    rw [← hsolver] at hI
    rw [← hprogress] at hK
    refine h.init (w := ⟨(begun P r).solver, (begun P r).session⟩) hI ?_
    show K (begun P r).progress (begun P r).session.host.memory
    rw [(begun_surroundings P r).1]
    exact hK
  · rintro i hi ⟨hI, hN⟩
    refine ends_iterate_hosted (Q := fun p s host _ => I s ∧ N p.cost host.memory)
      (hn.running i hi) ?_ fun _ _ _ _ => Action.ends_anyhow _ _
    refine (h.step (w := ⟨(stateAfter P r i).solver, (stateAfter P r i).session⟩) hI hN).mono ?_
    rintro report w ⟨hw, hN⟩
    refine ⟨fun _ _ => trivial, fun session hhost _ => ?_⟩
    refine (h.terminate (w := ⟨w.solver, session⟩) hw).mono ?_
    rintro own v rfl
    refine ⟨hw, ?_⟩
    show N ((stateAfter P r i).progress.update report).1.cost session.host.memory
    rw [hhost]
    exact hN

/-- A solver keeps as much when it is the method at hand. -/
theorem Tells.wrapped {S : Solver σ ω α} {O : Observer η α} {c : RunConfig α} (wrap : σ → Method α)
    {I : σ → Prop} {K : Progress α → ω → Prop}
    (hact : ∀ {β : Type} (act : {σ : Type} → Solver σ ω α → Action (Workspace σ ω) α β) (s : σ),
      Method.acting act (wrap s) = Workspace.wrapping wrap s (act S))
    (h : Tells ⟨S, O, A, c⟩ I N K) : Tells (plan A O c) (fun m => ∃ s, m = wrap s ∧ I s) N K where
  init := by
    rintro p ⟨_, session⟩ ⟨s, rfl, hs⟩ hp
    show (Method.dispatch fun S => S.init A p).Ends _ _ _
    rw [Method.ends_dispatch, hact, Workspace.ends_wrapping]
    exact (h.init (w := ⟨s, session⟩) hs hp).mono fun _ _ hv => ⟨⟨_, rfl, hv.1⟩, hv.2⟩
  step := by
    rintro p ⟨_, session⟩ ⟨s, rfl, hs⟩ hp
    show (Method.dispatch fun S => S.step A p).Ends _ _ _
    rw [Method.ends_dispatch, hact, Workspace.ends_wrapping]
    exact (h.step (w := ⟨s, session⟩) hs hp).mono fun _ _ hv => ⟨⟨_, rfl, hv.1⟩, hv.2⟩
  terminate := by
    rintro p ⟨_, session⟩ ⟨s, rfl, hs⟩
    show (Method.dispatch fun S => S.terminate p).Ends _ _ _
    rw [Method.ends_dispatch, hact, Workspace.ends_wrapping]
    refine (h.terminate (w := ⟨s, session⟩) hs).mono ?_
    rintro own v rfl
    rfl

end Run

/-! ### Searches by backtracking -/

/-- The start of a line takes over a cost that has been answered, or evaluates one. -/
theorem Line.ends_begin_vouched (h : A.operator.Vouches N) {name : String} {p : Progress α} {l : Line α}
    {t : Session ω} (hp : N p.cost t.host.memory) : (begin name A p).Ends ⟨l, t⟩
      (fun report w => ∃ c, report.cost = some c ∧ N c w.session.host.memory) fun _ => True := by
  have hcost : (Session.knownCost A p).Ends t (fun c u => N c u.host.memory) fun _ => True := by
    unfold Session.knownCost
    split
    · exact Session.ends_cost_vouched h
    · exact hp
  have hgradient {c : α} {u : Session ω} (hc : N c u.host.memory) : (Session.knownGradient A p).Ends u
      (fun _ v => N c v.host.memory) fun _ => True := by
    unfold Session.knownGradient
    cases p.gradient with
    | some g => exact hc
    | none => exact Session.ends_gradient_vouched h hc
  rw [ends_begin_iff]
  refine Action.ends_ofExcept (fun direction _ => ?_) fun _ _ => trivial
  refine hcost.mono fun c u hc => (hgradient hc).mono fun gradient v hv => ?_
  -- What is left to do is arithmetic.
  exact ends_settle_of (fun _ _ => trivial) (fun _ _ => trivial) (fun _ _ _ _ _ _ => trivial)
    fun _ _ _ _ _ => ⟨c, rfl, hv⟩

namespace Backtracking

variable {s : Backtracking α} {p : Progress α} {t : Session ω}

/-- The start of such a search is no more than the start of its line. -/
theorem ends_init_vouched (h : A.operator.Vouches N) (hp : N p.cost t.host.memory) :
    (solver.init A p).Ends ⟨s, t⟩
      (fun report? w => N (Run.started p report?).cost w.session.host.memory) fun _ => True := by
  refine ends_init_of ((Line.ends_begin_vouched h hp).mono ?_)
  rintro report w ⟨c, hc, hN⟩
  show N (p.update report).1.cost _
  rw [ProgressOn.cost_update, hc]
  exact hN

/-- A trial shows the cost that it evaluates; an iteration of a search that is over shows the old one. -/
theorem ends_trial_vouched (h : A.operator.Vouches N) (hp : N p.cost t.host.memory) :
    (trial A).Ends ⟨s, t⟩
      (fun report w => N (p.update report).1.cost w.session.host.memory) fun _ => True := by
  -- A search that is over makes no evaluation and shows the cost it has.
  by_cases hdone : s.line.done = none
  · refine ends_trial_of hdone (fun _ _ => trivial) fun x start _ _ => ?_
    refine (Session.ends_cost_vouched h).mono fun c u hc => ?_
    rw [ProgressOn.cost_update]
    exact hc
  · refine (ends_trial_over hdone).mono ?_
    rintro report w ⟨rfl, rfl⟩
    rw [ProgressOn.cost_update]
    exact hp

end Backtracking

namespace LineSearch

/-- What the parts of a search by backtracking keep. -/
theorem tells (h : A.operator.Vouches N) : Run.Tells (Run.nestedPlan solver A)
    (fun m => ∃ s, m = .backtracking s) N fun p memory => N p.cost memory where
  init := by
    rintro p ⟨_, t⟩ ⟨s, rfl⟩ hp
    show (dispatch _ _).Ends _ _ _
    rw [ends_dispatch_backtracking]
    exact (Backtracking.ends_init_vouched h hp).mono fun _ w hw => ⟨⟨w.solver, rfl⟩, hw⟩
  step := by
    rintro p ⟨_, t⟩ ⟨s, rfl⟩ hp
    show (dispatch _ _).Ends _ _ _
    rw [ends_dispatch_backtracking]
    exact (Backtracking.ends_trial_vouched h hp).mono fun _ w hw => ⟨⟨w.solver, rfl⟩, hw⟩
  terminate := by
    rintro p ⟨_, t⟩ ⟨s, rfl⟩
    show (solver.terminate p).Ends _ _ _
    exact (ends_terminate_line rfl).mono fun own v hv => hv.2

/-- **A search by backtracking** from a cost that has been answered ends with one. -/
theorem ends_run_vouched (h : A.operator.Vouches N) (s : Backtracking α) (x way gradient : Tensor α)
    {cost : α} {t : Session ω} (hcost : N cost t.host.memory) :
    (run A x (some way) (some cost) (some gradient)).Ends ⟨.backtracking s, t⟩
      (fun found w => (∃ s', w.solver = .backtracking s') ∧ N found.cost w.session.host.memory)
      fun _ => True := by
  refine .intro (fun found w hok => ?_) fun _ _ _ => trivial
  -- The search runs as a nested executor, whose iterations keep what the cost is about.
  obtain ⟨-, hknown, -⟩ := launched_progress A (.backtracking s) x way (some cost) (some gradient) t
  obtain ⟨n, reason, hn, hfound, hsolver, -, hmemory⟩ := goes_of_run rfl hok
  obtain ⟨⟨s', hs'⟩, htold⟩ := (tells h).cost (r := launched A (.backtracking s) x way (some cost)
    (some gradient) t) ⟨_, rfl⟩ (by rw [hknown]; exact hcost) hn
  refine ⟨⟨s', hsolver.trans hs'⟩, ?_⟩
  rw [hfound, hmemory]
  exact htold

end LineSearch

/-! ### The quasi-Newton method -/

namespace QuasiNewton

/-- A quasi-Newton method that searches by backtracking. -/
def Shrinks (s : QuasiNewton α) : Prop := ∃ b, s.search = .backtracking b

/-- What follows the search keeps what has been answered, and shows the cost that was found. -/
theorem ends_learn_vouched (h : A.operator.Vouches N) (x oldGradient inverse : Tensor α)
    (found : Progress α) {w : Workspace (QuasiNewton α) ω} (hfound : N found.cost w.session.host.memory) :
    (learn A x oldGradient inverse found).Ends w (fun report v => report.cost = some found.cost ∧
      v.solver.search = w.solver.search ∧ N found.cost v.session.host.memory) fun _ => True := by
  refine ends_learn_iff.2 ((Session.ends_gradient_vouched h hfound).mono fun gradient t ht => ?_)
  refine Action.ends_ofExcept (fun update _ => ⟨rfl, rfl, ?_⟩) fun _ _ => trivial
  -- Updating the inverse Hessian writes a line at most.
  show N found.cost (noted update t).host.memory
  rw [noted_host]
  exact ht

/-- **What the parts of a quasi-Newton method keep**, whatever was known at the start. -/
theorem tells (h : A.operator.Vouches N) (O : Observer η α) (c : RunConfig α) :
    Run.Tells ⟨solver, O, A, c⟩ Shrinks N fun _ _ => True where
  init := by
    intro p w hw _
    refine ends_init_iff.2 ((Session.ends_cost_vouched h).mono fun cost t ht => ?_)
    refine (Session.ends_gradient_vouched h ht).mono fun gradient u hu => ?_
    refine ⟨hw, ?_⟩
    show N (p.update _).1.cost _
    rw [ProgressOn.cost_update]
    exact hu
  step := by
    rintro p ⟨⟨inverse, search⟩, t⟩ ⟨b, rfl⟩ hp
    -- The search answers for its last cost; the update asks for a gradient, after which the answer still
    -- stands.
    refine ends_step_of (fun _ _ => trivial) (fun _ _ _ _ => trivial) fun oldGradient image _ _ => ?_
    refine (LineSearch.ends_run_vouched h b _ _ oldGradient hp).mono ?_
    rintro found v ⟨⟨b', hsearch⟩, hfound⟩
    refine (ends_learn_vouched h p.param oldGradient inverse found hfound).mono ?_
    rintro report u ⟨hcost, hkept, hu⟩
    refine ⟨⟨b', hkept.trans hsearch⟩, ?_⟩
    rw [ProgressOn.cost_update, hcost]
    exact hu
  terminate := by
    intro p w _
    exact Action.ends_ofExcept (fun _ _ => rfl) fun _ _ => trivial

end QuasiNewton

/-! ### Whole runs -/

namespace Run

/-- **A quasi-Newton method with backtracking** shows costs that its run evaluates, after the start and
    after every iteration. -/
theorem cost_mem_costs {O : Observer η α} {c : RunConfig α} {r final : Run (Method α) ω η α}
    {s : QuasiNewton α} (hr : r.solver = .quasiNewton s) (hs : s.Shrinks)
    (h : (execute (plan A O c)).exec r = (.ok (), final)) {i : ℕ}
    (hi : r.progress.iter + i ≤ final.progress.iter) :
    (stateAfter (plan A O c) r i).progress.cost ∈ costs A O c r := by
  have hm : r.solver.BuiltIn := by
    rw [hr]
    trivial
  obtain ⟨n, hiter, hn, hn', hcosts⟩ := goes_transcribed hm h
  have hle : i ≤ n := by omega
  -- The cost after `i` iterations has been written down by then, and it stays in the transcript.
  obtain ⟨⟨s', hs', -⟩, hcost⟩ := ((QuasiNewton.tells (A := A.transcribed)
    A.operator.transcribed_vouches O c).wrapped .quasiNewton fun _ _ => rfl).cost
      (r := r.transcribed []) ⟨s, hr, hs⟩ trivial (hn'.mono hle)
  have hstays := stateAfter_kept_from (A.operator.transcribed_vouches.keeps _) hle hn'
    (by rw [hs']; trivial) hcost
  obtain ⟨-, -, -, hsame⟩ :=
    stateAfter_related (plan_transcribed A O c) (transcribed_states hm) (hn.mono hle)
  have hprogress : (stateAfter (plan A.transcribed O c) (r.transcribed []) i).progress =
      (stateAfter (plan A O c) r i).progress := by rw [hsame]
  rw [hcosts, ← hprogress]
  exact hstays.1

end Run

end Minimization
