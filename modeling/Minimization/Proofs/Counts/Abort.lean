import Minimization.Problem.Sphere
import Minimization.Proofs.Counts.Runs
import Minimization.Proofs.Scalar.Exact

namespace Minimization

/-!
# Counts after an abort

A run that fails outside a nested run has counted every call that the operator has received, the
failing one included.  What a line search had counted when it failed is dropped with its wrapper.

* `Short.lost_unique` — how much is lost can be read off the counts and the record.
* `Method.trustRegion_follows` — trust-region steps count exactly, whether they fail or not.
* `Run.dropped_trustRegion` — so a run of the trust-region method drops nothing.

After an abort the counts are exact if and only if nothing was dropped.
-/

variable {σ ω η α : Type} [Scalar α]

omit [Scalar α] in
/-- How much is lost can be read off the counts and the record. -/
theorem Short.lost_unique {n c lost lost' : Counts} {s : Session ω} {t : Session (ω × Counts)}
    (h : Short n c lost s t) (h' : Short n c lost' s t) : lost = lost' := by
  obtain ⟨d, hd, rfl⟩ := h
  obtain ⟨d', hd', ht⟩ := h'
  have hrecord : c + d + lost = c + d' + lost' :=
    congrArg (fun t : Session (ω × Counts) => t.host.memory.2) ht
  rw [hd] at hd'
  refine Counts.ext_get fun k => ?_
  have hcounts := congrArg (Counts.get · k) hd'
  have hreceived := congrArg (Counts.get · k) hrecord
  simp only [Counts.get_add] at hcounts hreceived
  omega

/-! ### The trust-region method -/

/-- The trust-region method with some settings. -/
def Method.IsTrustRegion : Method α → Prop
  | .trustRegion _ => True
  | _ => False

omit [Scalar α] in
/-- Trust-region methods come with the library. -/
theorem Method.IsTrustRegion.builtIn {m : Method α} (h : m.IsTrustRegion) : m.BuiltIn := by
  cases m with
  | trustRegion s => trivial
  | _ => exact h.elim

/-- **Trust-region steps count exactly**, whether they fail or not. -/
theorem Method.trustRegion_follows (n c : Counts) (A : Setting ω α) :
    (Method.solver (ω := ω) (α := α)).Follows ((ledger n c).keeping Method.IsTrustRegion) A
      A.recording Method.solver := by
  have hfollows := TrustRegion.follows (ledger_lockstep n c A)
    (TrustRegion.subproblemStep_related n c A)
  -- The other methods are excluded, and the trust region has its subproblem solved without any count.
  refine ⟨⟨rfl, fun p => ?_, fun p => ?_⟩, fun p => ?_⟩
  · refine Method.dispatch_related (fun S => S.init A p) (fun S => S.init A.recording p) ?_
    intro m hm
    cases m with
    | trustRegion x => exact .wrapping (fun _ => trivial) x (hfollows.init p)
    | _ => exact hm.elim
  · refine Method.dispatch_related (fun S => S.terminate p) (fun S => S.terminate p) ?_
    intro m hm
    cases m with
    | trustRegion x => exact .wrapping (fun _ => trivial) x (hfollows.terminate p)
    | _ => exact hm.elim
  · refine Method.dispatch_related (fun S => S.step A p) (fun S => S.step A.recording p) ?_
    intro m hm
    cases m with
    | trustRegion x => exact .wrapping (fun _ => trivial) x (hfollows.step p)
    | _ => exact hm.elim

namespace Run

variable (A : Setting ω α) (observer : Observer η α) (config : RunConfig α)

/-- A run of the trust-region method that fails has dropped nothing. -/
theorem dropped_trustRegion {r r' : Run (Method α) ω η α} {e : Failure α}
    (hm : r.solver.IsTrustRegion)
    (h : (execute (plan A observer config)).exec r = (.error e, r')) :
    dropped (plan A observer config) r = .zero := by
  have hfollows := Method.trustRegion_follows r.session.counts .zero A
  have hplan : Plan.Follows Method.IsTrustRegion (ledger r.session.counts .zero)
      (plan A observer config) (plan A.recording observer config) :=
    ⟨⟨ledger_lockstep _ _ A, hfollows.toAttends, rfl, rfl⟩, hfollows.step⟩
  -- The run counts exactly by `hexact`, and less by what is dropped by `hshort`.
  have hexact := execute_related hplan (t := r.recorded .zero)
    ⟨Short.start r.session .zero, hm, rfl⟩
  have hshort := execute_short A observer config (recorded_states hm.builtIn .zero)
  rw [h] at hexact hshort
  obtain ⟨_, _, q, hr, hq, hlost, -⟩ | ⟨_, _, _, hr, -⟩ := hshort.both
  · cases hr
    rw [hq] at hexact
    obtain ⟨_, _, _, hr, hq', hnone, -⟩ | ⟨_, _, _, hr, -⟩ := hexact.both
    · cases hr
      cases hq'
      exact hlost.lost_unique hnone
    · simp at hr
  · simp at hr

/-- **Counts after an abort.**  If a run of a built-in method fails, the operator has received what
    the wrapper has counted and, besides, what was dropped.  So the counts are exact if and only if
    nothing was dropped: the run did not fail in a line search that had called the operator.  The
    trust-region method never drops anything. -/
theorem counts_of_abort (r : Run (Method α) ω η α) (hm : r.solver.BuiltIn) (e : Failure α)
    (r' : Run (Method α) ω η α)
    (h : (execute (plan A observer config)).exec r = (.error e, r')) :
    ∃ received,
      (execute (plan A.recording observer config)).exec (r.recorded .zero) =
        (.error e, r'.recorded received) ∧
      (∀ k, r.session.counts.get k + received.get k =
        r'.session.counts.get k + (dropped (plan A observer config) r).get k) ∧
      ((∀ k, r'.session.counts.get k = r.session.counts.get k + received.get k) ↔
        dropped (plan A observer config) r = .zero) ∧
      (r.solver.IsTrustRegion →
        ∀ k, r'.session.counts.get k = r.session.counts.get k + received.get k) := by
  have hshort := execute_short A observer config (recorded_states hm .zero)
  rw [h] at hshort
  obtain ⟨_, _, q, hr, hq, ⟨d, hcounts, hsession⟩, hqr⟩ | ⟨_, _, _, hr, -⟩ := hshort.both
  · cases hr
    -- What the operator received is what the run counted and what was dropped.
    have hreceived : ∀ k, r.session.counts.get k +
        (d + dropped (plan A observer config) r).get k =
          r'.session.counts.get k + (dropped (plan A observer config) r).get k := by
      intro k
      rw [hcounts]
      simp only [Counts.get_add]
      omega
    -- Nothing dropped, nothing missed: both sides of the equation have the same counts otherwise.
    have hexact : (∀ k, r'.session.counts.get k = r.session.counts.get k +
        (d + dropped (plan A observer config) r).get k) ↔
          dropped (plan A observer config) r = .zero := by
      constructor
      · intro hall
        refine Counts.ext_get fun k => ?_
        have hk := hreceived k
        rw [← hall k] at hk
        rw [Counts.get_zero]
        omega
      · intro hzero k
        have hk := hreceived k
        rw [hzero, Counts.get_zero] at hk
        rw [hzero]
        exact hk.symm
    refine ⟨d + dropped (plan A observer config) r, ?_, hreceived, hexact, fun htrust => ?_⟩
    · rw [hq, hqr, hsession, Counts.zero_add]
      rfl
    · exact hexact.2 (dropped_trustRegion A observer config htrust h)
  · simp at hr

/-- The sphere function, which fails from the second cost on. -/
def fragileSphere : Operator Nat (Exact ℚ) where
  name := "Problem"
  cost? := some fun x => do
    let calls := (← get).memory
    modify fun h => { h with memory := calls + 1 }
    if calls = 0 then return sphere x else throw (.operator "broken")
  gradient? := some fun x => pure (sphereGradient x)

/-- Steepest descent with backtracking on the sphere function that fails. -/
def fragilePlan : Plan (Method (Exact ℚ)) Nat Empty (Exact ℚ) :=
  plan ⟨fragileSphere, false⟩ noObserver ⟨2, 0.0, true⟩

/-- From one on. -/
def fragileStart : Run (Method (Exact ℚ)) Nat Empty (Exact ℚ) :=
  ⟨seeded (.vector .array [1.0]) 2 none none none,
    .steepestDescent (.backtracking ⟨⟨none, 1.0, 10, 0, none, none⟩, 0.25, 0.5, 1.0⟩), .start 0, []⟩

/-- A search whose first trial fails: its counts are the ones that are lost. -/
theorem counts_of_abort_fragile : fragileStart.solver.BuiltIn ∧ ∃ e received,
    (execute fragilePlan).exec fragileStart =
      (.error e, ((execute fragilePlan).exec fragileStart).2) ∧
    ∀ k, fragileStart.session.counts.get k + Counts.get received k =
      ((execute fragilePlan).exec fragileStart).2.session.counts.get k +
        (dropped fragilePlan fragileStart).get k := by
  have hfail : ((execute fragilePlan).exec fragileStart).1.isOk = false := by decide +kernel
  obtain ⟨e, h⟩ := Action.exec_eq_of_not_isOk hfail
  obtain ⟨received, -, hall, -⟩ := counts_of_abort ⟨fragileSphere, false⟩ noObserver ⟨2, 0.0, true⟩
    fragileStart trivial e _ h
  exact ⟨trivial, e, received, h, hall⟩

/-- **A call is lost.**  The run above fails in its first line search: the operator has received two
    calls for its cost, and the wrapper has counted one. -/
theorem counts_short_of_abort :
    ((execute fragilePlan).exec fragileStart).1.isOk = false ∧
    ((execute fragilePlan).exec fragileStart).2.session.counts = ⟨1, 1, 0, 0⟩ ∧
    ((execute (plan (Setting.recording ⟨fragileSphere, false⟩) noObserver ⟨2, 0.0, true⟩)).exec
      (fragileStart.recorded .zero)).2.session.host.memory.2 = ⟨2, 1, 0, 0⟩ := by
  decide +kernel

end Run

end Minimization
