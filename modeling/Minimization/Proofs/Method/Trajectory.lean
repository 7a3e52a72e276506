import Minimization.Observer.Kinds
import Minimization.Problem.Sphere
import Minimization.Proofs.Counts.Runs
import Minimization.Proofs.Coupling.Parting
import Minimization.Proofs.Operator.Answers
import Minimization.Proofs.Run.Ending
import Minimization.Proofs.Scalar.Exact

namespace Minimization

/-!
# Stopping rules and trajectories

Two runs of one method may have different caps, targets, observers, loggers and interrupts, and only
one of them may check itself.  As long as both go on they do the same.

* `ProgressOn.SameTrail` — the same progress, except for the cap and the reason to have stopped.
* `sameCounts` — sessions with the same counts; either side may fail where the other one goes on.
* `sameCounts_hosts` — operators whose answers are those of the same functions keep to it, nested
  runs included.
* `Method.step_of_sameTrail` — neither a step nor a stopping rule looks at the cap or the reason.
* `Run.OnTrail` — two runs on the same trail; `Run.opening_onTrail`, `Run.iterate_onTrail` — the start
  of two runs, and an iteration that both complete.

The states of the two runs after every iteration that both complete are those of one trajectory.
-/

variable {σ ω ω' η η' α : Type}

/-- The same progress, except for the cap and the reason to have stopped. -/
def ProgressOn.SameTrail {ρ : Type} (p q : ProgressOn ρ α) : Prop :=
  ∃ cap reason, q = { p with maxIters := cap, reason := reason }

namespace ProgressOn.SameTrail

variable [Scalar α] {p q : Progress α}

/-- A merge does not look at the cap or the reason. -/
theorem update (h : p.SameTrail q) (report : Report α) :
    (p.update report).1.SameTrail (q.update report).1 ∧
      (q.update report).2 = (p.update report).2 := by
  obtain ⟨cap, reason, rfl⟩ := h
  have hmerge : ({ p with maxIters := cap, reason := reason } : Progress α).merge report =
      { p.merge report with maxIters := cap, reason := reason } := by
    rcases report with ⟨_ | _, _ | _, _ | _, _ | _, _⟩ <;> rfl
  unfold ProgressOn.update
  rw [hmerge]
  dsimp only
  split
  · exact ⟨⟨cap, reason, rfl⟩, rfl⟩
  · exact ⟨⟨cap, reason, rfl⟩, rfl⟩

omit [Scalar α] in
/-- An iteration is counted without a look at them. -/
theorem increment (h : p.SameTrail q) : p.increment.SameTrail q.increment := by
  obtain ⟨cap, reason, rfl⟩ := h
  exact ⟨cap, reason, rfl⟩

omit [Scalar α] in
/-- Stopping changes the reason alone. -/
theorem stopped (h : p.SameTrail q) (reason reason' : Reason) :
    ProgressOn.SameTrail { p with reason := reason } { q with reason := reason' } := by
  obtain ⟨cap, _, rfl⟩ := h
  exact ⟨cap, reason', rfl⟩

/-- Runs from the same start, with any two caps. -/
theorem seeded (x : Tensor α) (cap cap' : Int) (cost? : Option α)
    (gradient? hessian? : Option (Tensor α)) :
    (Run.seeded x cap cost? gradient? hessian?).SameTrail
      (Run.seeded x cap' cost? gradient? hessian?) := by
  refine ⟨cap', .notTerminated, ?_⟩
  cases cost? <;> cases gradient? <;> cases hessian? <;> rfl

end ProgressOn.SameTrail

/-! ### Sessions with the same counts -/

/-- Sessions with the same counts; either side may fail where the other one goes on. -/
def sameCounts (ω ω' : Type) : Bond (Session ω) (Session ω') where
  states s t := t.counts = s.counts
  failed _ _ := True
  failed_of_states _ := trivial
  first _ := True
  second _ := True

/-- Where both operators answer, they answer the same. -/
theorem sameCounts_evaluate {β : Type} (k : Capability) {m : Action (Host ω) α β}
    {n : Action (Host ω') α β} (h : ∀ host host' b c u v, m.exec host = (.ok b, u) →
      n.exec host' = (.ok c, v) → b = c) :
    (sameCounts ω ω').Related (Session.evaluate k m) (Session.evaluate k n) := by
  intro s t hst
  have hcounts : t.counts = s.counts := hst
  unfold Session.evaluate Session.onHost
  rw [Action.exec_bind, Action.exec_bind]
  simp only [Action.exec_modify, Action.exec_focus]
  rcases hm : m.exec s.host with ⟨_ | b, u⟩
  · exact .first trivial
  rcases hn : n.exec t.host with ⟨_ | c, v⟩
  · exact .second trivial
  obtain rfl := h _ _ _ _ _ _ hm hn
  refine .ok ?_
  show t.counts.tick k = s.counts.tick k
  rw [hcounts]

/-- Operators whose answers are those of the same functions. -/
theorem sameCounts_hosts {op : Operator ω α} {op' : Operator ω' α} {f : Tensor α → α}
    {g h : Tensor α → Tensor α} (hop : op.Deterministic f g h) (hop' : op'.Deterministic f g h)
    (debug debug' : Bool) : Hosts (sameCounts ω ω') ⟨op, debug⟩ ⟨op', debug'⟩ where
  cost x := sameCounts_evaluate .cost fun _ _ _ _ _ _ hm hn =>
    (hop.cost x _ _ _ hm).trans (hop'.cost x _ _ _ hn).symm
  gradient x := sameCounts_evaluate .gradient fun _ _ _ _ _ _ hm hn =>
    (hop.gradient x _ _ _ hm).trans (hop'.gradient x _ _ _ hn).symm
  hessian x := sameCounts_evaluate .hessian fun _ _ _ _ _ _ hm hn =>
    (hop.hessian x _ _ _ hm).trans (hop'.hessian x _ _ _ hn).symm
  log _ _ _ := .modify fun _ _ h => h
  check _ _ := .inr ⟨trivial, trivial⟩
  failed_log _ _ _ := trivial
  first_relog _ _ := trivial
  second_relog _ _ := trivial

/-- Nested runs start from zero on both sides, and are added to the same counts. -/
theorem sameCounts_nests : (sameCounts ω ω').Nests (sameCounts ω ω') where
  enter _ := rfl
  leave := by
    intro s t u v hst huv
    have hst : t.counts = s.counts := hst
    have huv : v.counts = u.counts := huv
    show t.counts + v.counts = s.counts + u.counts
    rw [hst, huv]
  failed _ _ := trivial
  first _ _ := trivial
  second _ _ := trivial

/-! ### What a method looks at -/

section
variable [Scalar α] {p q : Progress α}

/-- A step looks neither at the cap nor at the reason. -/
theorem Method.step_of_sameTrail (h : p.SameTrail q) (A : Setting ω α) :
    Method.solver.step A q = Method.solver.step A p := by
  obtain ⟨cap, reason, rfl⟩ := h
  rfl

/-- The start of a run looks at neither. -/
theorem Method.init_of_sameTrail (h : p.SameTrail q) (A : Setting ω α) :
    Method.solver.init A q = Method.solver.init A p := by
  obtain ⟨cap, reason, rfl⟩ := h
  rfl

/-- Neither does the question whether the method has come to its end. -/
theorem Method.terminate_of_sameTrail (h : p.SameTrail q) :
    Method.solver.terminate (ω := ω) q = Method.solver.terminate p := by
  obtain ⟨cap, reason, rfl⟩ := h
  rfl

end

/-! ### Two runs on one trail -/

namespace Run

/-- Two runs of one built-in method that have done the same so far. -/
structure OnTrail (r : Run (Method α) ω η α) (q : Run (Method α) ω' η' α) : Prop where
  progress : r.progress.SameTrail q.progress
  counts : q.session.counts = r.session.counts
  solver : q.solver = r.solver
  builtIn : r.solver.BuiltIn

variable {op : Operator ω α} {op' : Operator ω' α} {f : Tensor α → α}
  {g h : Tensor α → Tensor α} {O : Observer η α} {O' : Observer η' α} {debug debug' : Bool}
  {c c' : RunConfig α} {r t : Run (Method α) ω η α} {q u : Run (Method α) ω' η' α}

/-- The states in which the parts of a built-in method start on either side. -/
theorem OnTrail.states (hrq : OnTrail r q) : ((sameCounts ω ω').keeping Method.BuiltIn).states
    ⟨r.solver, r.session⟩ ⟨q.solver, q.session⟩ :=
  ⟨hrq.counts, hrq.builtIn, by rw [hrq.solver]⟩

/-- What follows from two parts that have both succeeded. -/
theorem of_sameCounts {β : Type} {b b' : β} {w : Workspace (Method α) ω} {v : Workspace (Method α) ω'}
    (h : Accord ((sameCounts ω ω').keeping Method.BuiltIn).states
      ((sameCounts ω ω').keeping Method.BuiltIn).failed
      ((sameCounts ω ω').keeping Method.BuiltIn).first
      ((sameCounts ω ω').keeping Method.BuiltIn).second
      ((.ok b, w) : Except (Failure α) β × _) (.ok b', v)) :
    b = b' ∧ v.session.counts = w.session.counts ∧ v.solver = w.solver ∧ w.solver.BuiltIn := by
  obtain ⟨hb, hcounts, hbuiltIn, hv⟩ := h.of_ok
  exact ⟨hb, hcounts, by rw [hv], hbuiltIn⟩

variable [Scalar α]

/-- **The start** of two runs that both complete it. -/
theorem opening_onTrail (hop : op.Deterministic f g h) (hop' : op'.Deterministic f g h)
    (hrq : OnTrail r q) (ht : (opening (plan ⟨op, debug⟩ O c)).exec r = (.ok (), t))
    (hu : (opening (plan ⟨op', debug'⟩ O' c')).exec q = (.ok (), u)) : OnTrail t u := by
  obtain ⟨report?, w, hinit, hframe⟩ := opening_reports ht
  obtain ⟨report?', v, hinit', hframe'⟩ := opening_reports hu
  have hagree := (Method.joined (sameCounts_hosts hop hop' debug debug').toAbreast).init
    r.progress hrq.states
  have hinit' : (Method.solver.init ⟨op', debug'⟩ q.progress).exec ⟨q.solver, q.session⟩ =
      (.ok report?', v) := hinit'
  rw [Method.init_of_sameTrail hrq.progress] at hinit'
  have hinit : (Method.solver.init ⟨op, debug⟩ r.progress).exec ⟨r.solver, r.session⟩ =
      (.ok report?, w) := hinit
  rw [hinit, hinit'] at hagree
  obtain ⟨rfl, hcounts, hsolver, hbuiltIn⟩ := of_sameCounts hagree
  refine ⟨?_, ?_, ?_, ?_⟩
  · rw [hframe.progress, hframe'.progress]
    cases report? with
    | none => exact hrq.progress
    | some report => exact (hrq.progress.update report).1
  · rw [hframe.counts, hframe'.counts]
    exact hcounts
  · rw [hframe.solver, hframe'.solver]
    exact hsolver
  · rw [hframe.solver]
    exact hbuiltIn

/-- **An iteration** that two runs both complete. -/
theorem iterate_onTrail (hop : op.Deterministic f g h) (hop' : op'.Deterministic f g h)
    (hrq : OnTrail r q) (hr : r.progress.reason = .notTerminated)
    (hq : q.progress.reason = .notTerminated)
    (ht : (iterate (plan ⟨op, debug⟩ O c)).exec r = (.ok (), t))
    (hu : (iterate (plan ⟨op', debug'⟩ O' c')).exec q = (.ok (), u)) : OnTrail t u := by
  obtain ⟨report, w, shown, own, v, hstep, hshow, hown, rfl⟩ := (iterate_ok_iff _ hr).1 ht
  obtain ⟨report', w', shown', own', v', hstep', hshow', hown', rfl⟩ := (iterate_ok_iff _ hq).1 hu
  have hhosts := sameCounts_hosts hop hop' debug debug'
  have hmethod := Method.bonded hhosts.toAbreast sameCounts_nests hhosts
  -- Both steps report the same, since none of them looks at what may be different.
  have hagree := hmethod.step r.progress hrq.states
  have hstep : (Method.solver.step ⟨op, debug⟩ r.progress).exec ⟨r.solver, r.session⟩ =
      (.ok report, w) := hstep
  have hstep' : (Method.solver.step ⟨op', debug'⟩ q.progress).exec ⟨q.solver, q.session⟩ =
      (.ok report', w') := hstep'
  rw [Method.step_of_sameTrail hrq.progress] at hstep'
  rw [hstep, hstep'] at hagree
  obtain ⟨rfl, hcounts, hsolver, hbuiltIn⟩ := of_sameCounts hagree
  -- What is shown of the iteration leaves no trace.
  have hframe := display_frame hshow
  have hframe' := display_frame hshow'
  have hshown : OnTrail shown shown' := by
    refine ⟨?_, ?_, ?_, ?_⟩
    · rw [hframe.progress, hframe'.progress]
      exact (hrq.progress.update report).1.increment
    · rw [hframe.counts, hframe'.counts]
      exact hcounts
    · rw [hframe.solver, hframe'.solver]
      exact hsolver
    · rw [hframe.solver]
      exact hbuiltIn
  have hruled := hmethod.terminate shown.progress hshown.states
  have hown : (Method.solver.terminate shown.progress).exec ⟨shown.solver, shown.session⟩ =
      (.ok own, v) := hown
  have hown' : (Method.solver.terminate shown'.progress).exec ⟨shown'.solver, shown'.session⟩ =
      (.ok own', v') := hown'
  rw [Method.terminate_of_sameTrail hshown.progress] at hown'
  rw [hown, hown'] at hruled
  obtain ⟨-, hcounts', hsolver', hbuiltIn'⟩ := of_sameCounts hruled
  exact ⟨hshown.progress.stopped _ _, hcounts', hsolver', hbuiltIn'⟩

/-- Two runs that start on one trail are on it after every iteration that both complete. -/
theorem stateAfter_onTrail (hop : op.Deterministic f g h) (hop' : op'.Deterministic f g h)
    (hrq : OnTrail r q) (k : ℕ) (hr : Goes (plan ⟨op, debug⟩ O c) r k)
    (hq : Goes (plan ⟨op', debug'⟩ O' c') q k) :
    OnTrail (stateAfter (plan ⟨op, debug⟩ O c) r k) (stateAfter (plan ⟨op', debug'⟩ O' c') q k) := by
  induction k with
  | zero =>
    obtain ⟨hprogress, hsolver, hcounts⟩ := begun_course (plan ⟨op, debug⟩ O c) r
    obtain ⟨hprogress', hsolver', hcounts'⟩ := begun_course (plan ⟨op', debug'⟩ O' c') q
    refine opening_onTrail hop hop' ⟨?_, ?_, ?_, ?_⟩ hr.opening_eq hq.opening_eq
    · rw [hprogress, hprogress']
      exact hrq.progress
    · rw [hcounts, hcounts', hrq.counts]
    · rw [hsolver, hsolver', hrq.solver]
    · rw [hsolver]
      exact hrq.builtIn
  | succ k ih =>
    have hlast := Nat.lt_succ_self k
    exact iterate_onTrail hop hop' (ih (hr.mono (Nat.le_succ k)) (hq.mono (Nat.le_succ k)))
      (hr.running k hlast) (hq.running k hlast) (hr.iterate_eq hlast) (hq.iterate_eq hlast)

/-- **Stopping rules never bend the trajectory.**  Two runs of one built-in method from the same start,
    with operators whose answers are those of the same functions and the same counts at the start,
    may differ in everything else: the cap, the target, the observers, debug mode, the loggers, and
    whether and when interrupts arrive.  After `k` iterations that both complete, the two agree in
    their progress except for the cap and the reason to have stopped, in the counts and in the memory
    of the method. -/
theorem trajectory_agrees (hop : op.Deterministic f g h) (hop' : op'.Deterministic f g h)
    (O : Observer η α) (O' : Observer η' α) (debug debug' : Bool) (c c' : RunConfig α)
    (x : Tensor α) (cost? : Option α) (gradient? hessian? : Option (Tensor α)) (m : Method α)
    (hm : m.BuiltIn) (s : Session ω) (s' : Session ω') (hs : s'.counts = s.counts)
    (watches : List (Watch η)) (watches' : List (Watch η')) (k : ℕ)
    (hk : Goes (plan ⟨op, debug⟩ O c)
      (fresh (plan ⟨op, debug⟩ O c) x cost? gradient? hessian? m s watches) k)
    (hk' : Goes (plan ⟨op', debug'⟩ O' c')
      (fresh (plan ⟨op', debug'⟩ O' c') x cost? gradient? hessian? m s' watches') k) :
    let t := stateAfter (plan ⟨op, debug⟩ O c)
      (fresh (plan ⟨op, debug⟩ O c) x cost? gradient? hessian? m s watches) k
    let t' := stateAfter (plan ⟨op', debug'⟩ O' c')
      (fresh (plan ⟨op', debug'⟩ O' c') x cost? gradient? hessian? m s' watches') k
    (∃ cap reason, t'.progress = { t.progress with maxIters := cap, reason := reason }) ∧
      t'.session.counts = t.session.counts ∧ t'.solver = t.solver := by
  have htrail := stateAfter_onTrail hop hop'
    ⟨.seeded x c.maxIters c'.maxIters cost? gradient? hessian?, hs, rfl, hm⟩ k hk hk'
  exact ⟨htrail.progress, htrail.counts, htrail.solver⟩

/-- The sphere function, while whose gradient is computed the user asks to stop. -/
def nudgedSphere : Operator Unit (Exact ℚ) where
  name := "Problem"
  cost? := some fun x => pure (sphere x)
  gradient? := some fun x => do
    Host.deliver
    return sphereGradient x

/-- The answers of the sphere function. -/
theorem sphereOperator_deterministic :
    (sphereOperator : Operator Unit (Exact ℚ)).Deterministic sphere sphereGradient id where
  cost _ _ _ _ h := (Except.ok.inj (Prod.mk.inj h).1).symm
  gradient _ _ _ _ h := (Except.ok.inj (Prod.mk.inj h).1).symm
  hessian _ _ _ _ h := by simp [Operator.hessian, Operator.ask, sphereOperator] at h

/-- The interrupts do not change them. -/
theorem nudgedSphere_deterministic : nudgedSphere.Deterministic sphere sphereGradient id where
  cost _ _ _ _ h := (Except.ok.inj (Prod.mk.inj h).1).symm
  gradient x host v host' h := by
    obtain ⟨_, _, -, hreturn⟩ := Action.exec_bind_eq_ok_iff.1 h
    exact (Except.ok.inj (Prod.mk.inj hreturn).1).symm
  hessian _ _ _ _ h := by simp [Operator.hessian, Operator.ask, nudgedSphere] at h

/-- Steepest descent with backtracking on the sphere function. -/
def calmPlan : Plan (Method (Exact ℚ)) Unit Empty (Exact ℚ) :=
  plan ⟨sphereOperator, false⟩ noObserver ⟨5, -1.0, true⟩

/-- The same with interrupts, a recorder, debug mode, and a cap of one iteration. -/
def nudgedPlan : Plan (Method (Exact ℚ)) Unit (Watcher (Exact ℚ)) (Exact ℚ) :=
  plan ⟨nudgedSphere, true⟩ Watcher.observer ⟨1, 100.0, true⟩

/-- A search by backtracking with some settings. -/
def trialSteps : Method (Exact ℚ) :=
  .steepestDescent (.backtracking ⟨⟨none, 1.0, 10, 0, none, none⟩, 0.25, 0.5, 1.0⟩)

/-- From one on. -/
def calmStart : Run (Method (Exact ℚ)) Unit Empty (Exact ℚ) :=
  fresh calmPlan (.vector .array [1.0]) none none none trialSteps (.start ()) []

/-- The same, with a recorder. -/
def nudgedStart : Run (Method (Exact ℚ)) Unit (Watcher (Exact ℚ)) (Exact ℚ) :=
  fresh nudgedPlan (.vector .array [1.0]) none none none trialSteps (.start ())
    [⟨.always, .recorder []⟩]

/-- A run with an interrupt, a recorder and another cap, beside one without. -/
theorem trajectory_agrees_nudged :
    Goes calmPlan calmStart 1 ∧ Goes nudgedPlan nudgedStart 1 ∧ trialSteps.BuiltIn ∧
      (stateAfter nudgedPlan nudgedStart 1).session.host.interrupt = .guarded true ∧
      (∃ cap reason, (stateAfter nudgedPlan nudgedStart 1).progress =
        { (stateAfter calmPlan calmStart 1).progress with maxIters := cap, reason := reason }) ∧
      (stateAfter nudgedPlan nudgedStart 1).session.counts =
        (stateAfter calmPlan calmStart 1).session.counts := by
  have hcalm : Goes calmPlan calmStart 1 :=
    ⟨by decide +kernel, by decide +kernel, by decide +kernel, by decide +kernel⟩
  have hnudged : Goes nudgedPlan nudgedStart 1 :=
    ⟨by decide +kernel, by decide +kernel, by decide +kernel, by decide +kernel⟩
  have htrail := trajectory_agrees sphereOperator_deterministic nudgedSphere_deterministic noObserver
    Watcher.observer false true ⟨5, -1.0, true⟩ ⟨1, 100.0, true⟩ (.vector .array [1.0]) none none none
    trialSteps trivial (.start ()) (.start ()) rfl [] [⟨.always, .recorder []⟩] 1 hcalm hnudged
  exact ⟨hcalm, hnudged, trivial, by decide +kernel, htrail.1, htrail.2.1⟩

end Run

end Minimization
