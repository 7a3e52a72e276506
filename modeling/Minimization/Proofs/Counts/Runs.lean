import Minimization.Proofs.Counts.Nested

namespace Minimization

/-!
# Counts of whole runs

A run of a built-in method counts exactly what the operator receives, nested runs included; only a
run that fails inside a line search loses what that search had counted.

* `Method.step_booked` — what a step counts, and what it drops if it fails.
* `Run.dropped` — what a run drops if it fails: that of the step it fails in.
* `Run.execute_short` — a whole run has counted what the operator has received, except what is
  dropped.
* `Run.iterate_counts`, `Run.check_counts` — no counter decreases in an iteration.
-/

variable {σ ω η α β : Type} [Scalar α]

/-! ### Steps -/

/-- What the step of a method drops if it fails. -/
def Method.dropped (A : Setting ω α) (p : Progress α) (w : Workspace (Method α) ω) : Counts :=
  match w.solver with
  | .steepestDescent s => SteepestDescent.dropped A p ⟨s, w.session⟩
  | .quasiNewton s => QuasiNewton.dropped A p ⟨s, w.session⟩
  | _ => .zero

/-- The step of a built-in method whose memory is at hand. -/
theorem Method.acting_booked (A : Setting ω α) (p : Progress α) {m : Method α} (hm : m.BuiltIn) :
    Booked Method.BuiltIn (fun w => Method.dropped A p ⟨m, w.session⟩)
      (Method.acting (fun S => S.step A p) m)
      (Method.acting (fun S => S.step A.recording p) m) := by
  -- Only the two methods that search have nested runs of their own to drop counts in.
  have hledger := fun n c => ledger_lockstep n c A
  cases m with
  | landweber x =>
    exact .wrapping (.of_related fun n c => (Landweber.follows (hledger n c)).step p)
      (fun _ => trivial) x
  | newton x =>
    exact .wrapping (.of_related fun n c => (Newton.follows (hledger n c)).step p)
      (fun _ => trivial) x
  | steepestDescent x => exact .wrapping (SteepestDescent.step_booked A p) (fun _ => trivial) x
  | quasiNewton x => exact .wrapping (QuasiNewton.step_booked A p) (fun _ => trivial) x
  | lineSearch x =>
    exact .wrapping (.of_related fun n c => (LineSearch.follows (hledger n c)).step p)
      (fun _ => trivial) x
  | dogleg x =>
    exact .wrapping (.of_related fun n c => (Dogleg.follows (hledger n c)).step p)
      (fun _ => trivial) x
  | trustRegion x =>
    exact .wrapping (.of_related fun n c => (TrustRegion.follows (hledger n c)
      (TrustRegion.subproblemStep_related n c A)).step p) (fun _ => trivial) x
  | script x => exact hm.elim

/-- **The step of a built-in method** counts what the operator receives, except what it drops. -/
theorem Method.step_booked (A : Setting ω α) (p : Progress α) {n c : Counts}
    {w : Workspace (Method α) ω} {v : Workspace (Method α) (ω × Counts)}
    (hwv : ((ledger n c).keeping Method.BuiltIn).states w v) :
    Agree ((ledger n c).keeping Method.BuiltIn).states
        (fun w' v' => Short n c (Method.dropped A p w) w'.session v'.session ∧
          v' = ⟨w'.solver, v'.session⟩)
        ((Method.solver.step A p).exec w) ((Method.solver.step A.recording p).exec v) ∧
      ∀ report w', (Method.solver.step A p).exec w = (.ok report, w') →
        Method.dropped A p w = .zero := by
  have hbooked := Method.acting_booked A p hwv.2.1
  have hmemory : v.solver = w.solver := by rw [hwv.2.2]
  rw [Method.exec_step, Method.exec_step, hmemory]
  exact ⟨hbooked.agree hwv, fun report w' hok => hbooked.kept hok⟩

/-- No counter goes down in a step of a built-in method, which stays built-in. -/
theorem Method.step_grows {A : Setting ω α} {p : Progress α} {w w' : Workspace (Method α) ω}
    {report : Report α} (hm : w.solver.BuiltIn)
    (h : (Method.solver.step A p).exec w = (.ok report, w')) :
    w'.solver.BuiltIn ∧ ∃ d, w'.session.counts = w.session.counts + d := by
  obtain ⟨hagree, -⟩ := Method.step_booked A p (n := w.session.counts) (c := .zero) (w := w)
    (v := ⟨w.solver, w.session.recorded .zero⟩) ⟨Short.start w.session .zero, hm, rfl⟩
  rw [h] at hagree
  exact hagree.grows

/-! ### Runs -/

namespace Run

/-- The plan of a run with a recording operator. -/
def plan (A : Setting ω α) (observer : Observer η α) (c : RunConfig α) : Plan (Method α) ω η α :=
  ⟨Method.solver, observer, A, c⟩

variable (A : Setting ω α) (observer : Observer η α) (config : RunConfig α)

/-- What the loop of a run drops if it fails: that of the step it fails in. -/
def droppedIn (P : Plan (Method α) ω η α) : Nat → Run (Method α) ω η α → Counts
  | 0, _ => .zero
  | fuel + 1, r =>
    if r.progress.isTerminated || raised P.config r.session.host.interrupt then .zero
    else
      match (iterate P).exec r with
      | (.ok _, next) => droppedIn P fuel next
      | (.error _, _) => Method.dropped P.setting r.progress ⟨r.solver, r.session⟩

/-- What a run drops if it fails. -/
def dropped (P : Plan (Method α) ω η α) (r : Run (Method α) ω η α) : Counts :=
  match (opening P).exec (begun P r) with
  | (.ok _, t) =>
    if t.progress.maxIters = 0 then .zero else droppedIn P (iterationsLeft t.progress) t
  | (.error _, _) => .zero

theorem plan_attends (n c : Counts) :
    Plan.Attends Method.BuiltIn (ledger n c) (plan A observer config)
      (plan A.recording observer config) where
  lockstep := ledger_lockstep n c A
  solver := Method.attends (ledger_lockstep n c A)
  observer := rfl
  config := rfl

/-- An iteration counts what the operator receives, except what its step drops. -/
theorem iterate_short {n c : Counts} {r : Run (Method α) ω η α}
    {q : Run (Method α) (ω × Counts) η α} (hr : r.progress.reason = .notTerminated)
    (hrq : ((ledger n c).run η α Method.BuiltIn).states r q) :
    Agree ((ledger n c).run η α Method.BuiltIn).states
      (onSessions (Short n c (Method.dropped A r.progress ⟨r.solver, r.session⟩)))
      ((iterate (plan A observer config)).exec r)
      ((iterate (plan A.recording observer config)).exec q) := by
  obtain ⟨hagree, hkept⟩ := Method.step_booked A r.progress (w := ⟨r.solver, r.session⟩)
    (v := ⟨r.solver, q.session⟩) ⟨hrq.1, hrq.2.1, rfl⟩
  obtain ⟨e, w, v, hw, hv, hfail, hvw⟩ | ⟨report, w, v, hw, hv, hok⟩ := hagree.both
  · -- The step fails, and the iteration with it.
    obtain ⟨_, _, t, _⟩ := q
    obtain ⟨ht, hI, ⟨⟩⟩ := hrq
    have hleft := exec_iterate_of_step_failed (plan A observer config) hr hw
    have hright := exec_iterate_of_step_failed (plan A.recording observer config)
      (r := ⟨r.progress, r.solver, t, r.observers⟩) hr hv
    rw [hleft, hright, hvw]
    exact .error ⟨hfail, rfl⟩
  · -- The step succeeds, and nothing is dropped from then on.
    rw [hkept report w hw] at hagree ⊢
    exact iterate_related (plan_attends A observer config n c) hr hrq hagree

/-- The loop of a run counts what the operator receives, except what is dropped. -/
theorem iterations_short (fuel : Nat) {n c : Counts} {r : Run (Method α) ω η α}
    {q : Run (Method α) (ω × Counts) η α}
    (hrq : ((ledger n c).run η α Method.BuiltIn).states r q) :
    Agree ((ledger n c).run η α Method.BuiltIn).states
      (onSessions (Short n c (droppedIn (plan A observer config) fuel r)))
      ((iterations (plan A observer config) fuel).exec r)
      ((iterations (plan A.recording observer config) fuel).exec q) := by
  induction fuel generalizing r q with
  | zero => exact .ok hrq
  | succ fuel ih =>
    have hq : q.progress = r.progress := by rw [hrq.2.2]
    by_cases hr : r.progress.reason = .notTerminated
    · have hrun := ProgressOn.isTerminated_of_running hr
      have hinterrupt : q.session.host.interrupt = r.session.host.interrupt :=
        (ledger_lockstep n c A).states.interrupt hrq.1
      rw [exec_iterations_of_running _ _ hr, exec_iterations_of_running _ _ (by rw [hq, hr]),
        hinterrupt]
      unfold droppedIn
      rw [hrun, Bool.false_or]
      have hconfig : (plan A.recording observer config).config =
        (plan A observer config).config := rfl
      rw [hconfig]
      split
      · -- Both runs hear of the user's request at the same moment.
        obtain ⟨_, _, t, _⟩ := q
        obtain ⟨ht, hI, ⟨⟩⟩ := hrq
        exact .ok ⟨ht, hI, rfl⟩
      · rw [Action.exec_bind, Action.exec_bind]
        obtain ⟨e, r', q', hr', hq', hfail⟩ | ⟨_, r', q', hr', hq', hnext⟩ :=
          (iterate_short A observer config hr hrq).both
        · rw [hr', hq']
          exact .error hfail
        · rw [hr', hq']
          exact ih hnext
    · have hstop := ProgressOn.isTerminated_of_stopped hr
      rw [exec_iterations_of_stopped _ _ hstop, exec_iterations_of_stopped _ _ (by rw [hq, hstop])]
      exact .ok hrq

/-- **A whole run counts what the operator receives**, except what is dropped when it fails. -/
theorem execute_short {n c : Counts} {r : Run (Method α) ω η α}
    {q : Run (Method α) (ω × Counts) η α}
    (hrq : ((ledger n c).run η α Method.BuiltIn).states r q) :
    Agree ((ledger n c).run η α Method.BuiltIn).states
      (onSessions (Short n c (dropped (plan A observer config) r)))
      ((execute (plan A observer config)).exec r)
      ((execute (plan A.recording observer config)).exec q) := by
  have hplan := plan_attends A observer config n c
  refine execute_agree hplan (Short.frame n c _) hrq ?_
  rw [body_eq, body_eq, Action.exec_bind, Action.exec_bind]
  unfold dropped
  -- A run that fails to open has dropped nothing; one that is opened drops what its iterations do.
  obtain ⟨e, t, u, ht, hu, hfail⟩ | ⟨_, t, u, ht, hu, hopen⟩ :=
    (opening_related hplan (begun_states hplan hrq)).both
  · rw [ht, hu]
    exact .error hfail
  · have hprogress : u.progress = t.progress := by rw [hopen.2.2]
    rw [ht, hu]
    simp only [Action.exec_bind, Action.exec_get, hprogress]
    split
    · exact stop_related .maxIters hopen
    · exact iterations_short A observer config _ hopen

omit [Scalar α] in
/-- A run whose operator has a record, at a common start. -/
theorem recorded_states {r : Run (Method α) ω η α} (hr : r.solver.BuiltIn) (c : Counts) :
    ((ledger r.session.counts c).run η α Method.BuiltIn).states r (r.recorded c) :=
  ⟨Short.start r.session c, hr, rfl⟩

/-- No counter decreases in an iteration of a built-in method, which stays built-in. -/
theorem iterate_counts {r r' : Run (Method α) ω η α} (hm : r.solver.BuiltIn)
    (hr : r.progress.reason = .notTerminated)
    (h : (iterate (plan A observer config)).exec r = (.ok (), r')) :
    r'.solver.BuiltIn ∧ ∀ k, r.session.counts.get k ≤ r'.session.counts.get k := by
  have hagree := iterate_short A observer config hr (recorded_states hm .zero)
  rw [h] at hagree
  obtain ⟨e, _, _, hr', -⟩ | ⟨_, _, q, hr', -, ⟨d, hd, -⟩, hbuiltIn, -⟩ := hagree.both
  · simp at hr'
  · cases hr'
    refine ⟨hbuiltIn, fun k => ?_⟩
    rw [hd, Counts.get_add]
    exact Nat.le_add_right _ _

/-- After a step of a built-in method, no counter is found to have decreased. -/
theorem check_counts {r : Run (Method α) ω η α} (hm : r.solver.BuiltIn) {report : Report α}
    {w : Workspace (Method α) ω}
    (h : (Method.solver.step A r.progress).exec ⟨r.solver, r.session⟩ = (.ok report, w))
    (k : Capability) :
    ((check Method.solver r.session.counts).exec (counted r report w)).1 ≠
      .error (.impossible (.counterDecreased k)) := by
  obtain ⟨-, d, hd⟩ := Method.step_grows hm h
  have hcounts : (counted r report w).session.counts = r.session.counts + d := hd
  rw [exec_check]
  unfold finding
  rw [hcounts, Counts.decreased?_add]
  split <;> simp

end Run

end Minimization
