import Minimization.Problem.Sphere
import Minimization.Proofs.Counts.Runs
import Minimization.Proofs.Scalar.Exact

namespace Minimization

/-!
# Runs that share a wrapper

Several runs may count on one wrapper, one after the other.

* `Job` — a run of a method, apart from the operator and its wrapper.
* `Job.perform_ok`, `Job.forM_ok` — runs that return have counted what the operator has received.

If all runs return, every counter is exact, and no counter ever decreases.
-/

variable {ω η α : Type} [Scalar α]

/-- A run of a method, apart from the operator and its wrapper. -/
structure Job (η α : Type) where
  method : Method α
  progress : Progress α
  observer : Observer η α
  observers : List (Watch η)
  config : RunConfig α
  debug : Bool

namespace Job

/-- The plan of the run. -/
def plan (j : Job η α) (op : Operator ω α) : Plan (Method α) ω η α :=
  Run.plan ⟨op, j.debug⟩ j.observer j.config

/-- The run before it starts, in a session that may have seen other runs. -/
def start (j : Job η α) (s : Session ω) : Run (Method α) ω η α :=
  ⟨j.progress, j.method, s, j.observers⟩

/-- The run, as the session sees it. -/
def perform (op : Operator ω α) (j : Job η α) : Action (Session ω) α Unit :=
  .ofFun fun s =>
    (((Run.execute (j.plan op)).exec (j.start s)).1,
      ((Run.execute (j.plan op)).exec (j.start s)).2.session)

/-- A run that returns has counted what the operator has received. -/
theorem perform_ok {n c : Counts} (op : Operator ω α) {j : Job η α} (hj : j.method.BuiltIn)
    {s s' : Session ω} {t : Session (ω × Counts)} (hst : Short n c .zero s t)
    (h : (perform op j).exec s = (.ok (), s')) :
    ∃ t', (perform op.recording j).exec t = (.ok (), t') ∧ Short n c .zero s' t' := by
  have hrun : Agree _ _ ((Run.execute (j.plan op)).exec (j.start s))
      ((Run.execute (j.plan op.recording)).exec (j.start t)) :=
    Run.execute_short ⟨op, j.debug⟩ j.observer j.config ⟨hst, hj, rfl⟩
  unfold perform at h ⊢
  rw [Action.exec_ofFun] at h ⊢
  -- The recording run ends as the run does, and that has succeeded.
  obtain ⟨e, r, q, hr, hq, -⟩ | ⟨_, r, q, hr, hq, hend⟩ := hrun.both
  · rw [hr] at h
    simp at h
  · rw [hr] at h
    cases h
    rw [hq]
    exact ⟨q.session, rfl, hend.1⟩

/-- Runs that all return have counted what the operator has received. -/
theorem forM_ok {n c : Counts} (op : Operator ω α) {jobs : List (Job η α)}
    (hjobs : ∀ j ∈ jobs, j.method.BuiltIn) {s s' : Session ω} {t : Session (ω × Counts)}
    (hst : Short n c .zero s t) (h : (jobs.forM (perform op)).exec s = (.ok (), s')) :
    ∃ t', (jobs.forM (perform op.recording)).exec t = (.ok (), t') ∧ Short n c .zero s' t' := by
  induction jobs generalizing s t with
  | nil =>
    cases h
    exact ⟨t, rfl, hst⟩
  | cons j jobs ih =>
    -- The first run returns, and the others start where it has left off.
    have hcons : (perform op j >>= fun _ => jobs.forM (perform op)).exec s = (.ok (), s') := h
    obtain ⟨_, u, hj, hrest⟩ := Action.exec_bind_eq_ok_iff.1 hcons
    obtain ⟨v, hv, huv⟩ := perform_ok op (hjobs j (List.mem_cons_self ..)) hst hj
    obtain ⟨t', ht', hend⟩ := ih (fun j hj => hjobs j (List.mem_cons_of_mem _ hj)) huv hrest
    exact ⟨t', Action.exec_bind_eq_ok_iff.2 ⟨(), v, hv, ht'⟩, hend⟩

/-- **Counts are exact across runs that share a wrapper**, nested runs included: if all runs return,
    every counter has grown by the number of calls that the operator has received.  In no iteration
    does a counter decrease, and the check for that never fails. -/
theorem counts_exact (op : Operator ω α) (jobs : List (Job η α))
    (hjobs : ∀ j ∈ jobs, j.method.BuiltIn) (s s' : Session ω) (record : Counts)
    (h : (jobs.forM (perform op)).exec s = (.ok (), s')) :
    (∃ received,
      (jobs.forM (perform op.recording)).exec (s.recorded record) =
        (.ok (), s'.recorded (record + received)) ∧
      ∀ k, s'.counts.get k = s.counts.get k + received.get k) ∧
    ∀ j ∈ jobs, ∀ r : Run (Method α) ω η α, r.solver.BuiltIn →
      r.progress.reason = .notTerminated →
      (∀ r', (Run.iterate (j.plan op)).exec r = (.ok (), r') →
        r'.solver.BuiltIn ∧ ∀ k, r.session.counts.get k ≤ r'.session.counts.get k) ∧
      ∀ report w, (Method.solver.step ⟨op, j.debug⟩ r.progress).exec ⟨r.solver, r.session⟩ =
        (.ok report, w) →
          ∀ k, ((Run.check Method.solver r.session.counts).exec (Run.counted r report w)).1 ≠
            .error (.impossible (.counterDecreased k)) := by
  refine ⟨?_, fun j hj r hm hr => ⟨fun r' hr' => ?_, ?_⟩⟩
  -- The jobs share one session, so the counts of all of them come together.
  · obtain ⟨t, ht, d, hcounts, rfl⟩ := forM_ok op hjobs (.start s record) h
    refine ⟨d, ?_, fun k => ?_⟩
    · rw [ht, Counts.add_zero]
    · rw [hcounts, Counts.get_add]
  · exact Run.iterate_counts ⟨op, j.debug⟩ j.observer j.config hm hr hr'
  · intro report w hstep k
    exact Run.check_counts ⟨op, j.debug⟩ hm hstep k

/-- Backtracking that halves the step length, at most ten times. -/
def halvingSearch : LineSearch (Exact ℚ) :=
  .backtracking ⟨⟨none, 1.0, 10, 0, none, none⟩, 0.25, 0.5, 1.0⟩

/-- Two iterations of steepest descent on a line. -/
def descent (targetCost : Exact ℚ) : Job Empty (Exact ℚ) where
  method := .steepestDescent halvingSearch
  progress := Run.seeded (.vector .array [1.0]) 2 none none none
  observer := Run.noObserver
  observers := []
  config := ⟨2, targetCost, true⟩
  debug := true

/-- The first run reaches its target after one iteration, the second one runs up to its cap. -/
theorem counts_exact_descent :
    (([descent 0.0, descent (-1.0)].forM (perform sphereOperator)).exec (.start ())).1.isOk = true ∧
    ∃ received,
      ([descent 0.0, descent (-1.0)].forM (perform sphereOperator.recording)).exec
          (Session.recorded (.start ()) .zero) =
        (.ok (), (([descent 0.0, descent (-1.0)].forM (perform sphereOperator)).exec
          (.start ())).2.recorded (.zero + received)) := by
  have h : (([descent 0.0, descent (-1.0)].forM (perform sphereOperator)).exec
      (.start ())).1.isOk = true := by decide +kernel
  have hjobs : ∀ j ∈ [descent 0.0, descent (-1.0)], j.method.BuiltIn := by
    intro j hj
    simp only [List.mem_cons, List.not_mem_nil, or_false] at hj
    rcases hj with rfl | rfl
    · trivial
    · trivial
  obtain ⟨⟨received, hrun, -⟩, -⟩ := counts_exact sphereOperator _ hjobs _ _ .zero
    (Action.exec_eq_of_isOk h)
  exact ⟨h, received, hrun⟩

end Job

end Minimization
