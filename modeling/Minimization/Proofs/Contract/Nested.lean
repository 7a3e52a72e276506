import Minimization.Proofs.Contract.Observers
import Minimization.Proofs.Coupling.Run

namespace Minimization

/-!
# Contracts of nested runs

* `Stops.isTerminal` — a run that returns has a reason to have stopped.
* `Run.Contract.nested` — what the run inside a step of another solver ends in.
* `Run.noObserver_introduced`, `Run.noObserver_watched` — nobody watches a nested run, so no
  observer fails.
-/

variable {σ ω η α : Type} [Scalar α]

/-- A run that follows the stopping rules has a reason to have stopped. -/
theorem Stops.isTerminal {c : RunConfig α} {ready : Interrupt} {turns : List (Turn α)}
    {final : Progress α} (h : Stops c ready turns final) : final.reason.isTerminal = true := by
  -- One case for each rule: before any iteration, and after the last one.
  have hends := h.ends
  unfold EndsByRule at hends
  split at hends
  · split at hends
    · rw [hends]
      rfl
    · rw [hends.1]
      rfl
  · obtain ⟨-, hends⟩ := hends
    split at hends
    · next hown =>
      rw [hends]
      exact hown
    · split at hends
      · rw [hends]
        rfl
      · split at hends
        · rw [hends]
          rfl
        · rw [hends.1]
          rfl

namespace Run

/-- A run that returns has stopped. -/
theorem execute_isTerminal {P : Plan σ ω η α} {r r' : Run σ ω η α} (hiter : r.progress.iter = 0)
    (hmax : r.progress.maxIters = P.config.maxIters) (hr : r.progress.reason = .notTerminated)
    (h : (execute P).exec r = (.ok (), r')) : r'.progress.reason.isTerminal = true := by
  obtain ⟨t, hbody, rfl⟩ := (execute_ok_iff P).1 h
  rw [← begun_progress P] at hiter hmax hr
  obtain ⟨ready, turns, -, hstops⟩ := body_stops P hiter hmax hr hbody
  rw [finished_progress]
  exact hstops.isTerminal

omit [Scalar α] in
/-- Without observers none is called. -/
theorem ends_callChosen_empty {call : Action (Notebook Empty) α Unit} {chosen : List Bool}
    {ws : Watches Empty} {E : Failure α → Prop} :
    (Watches.callChosen chosen call).Ends ws (fun _ _ => True) E := by
  have hnone : ws.list = [] := List.eq_nil_iff_forall_not_mem.2 fun w _ => w.memory.elim
  unfold Watches.callChosen Action.Ends
  rw [Action.exec_ofFun, hnone]
  trivial

omit [Scalar α] in
/-- Where there are no observers, introducing the run to them cannot fail. -/
theorem noObserver_introduced (name : String) (notes : Notes α) (ws : Watches Empty)
    (E : Failure α → Prop) : (Watches.init noObserver name notes).Ends ws (fun _ _ => True) E :=
  Watches.ends_init_iff.2 ends_callChosen_empty

omit [Scalar α] in
/-- Neither can showing it to them. -/
theorem noObserver_watched (p : Progress α) (notes : Notes α) (isNewBest : Bool)
    (ws : Watches Empty) (E : Failure α → Prop) :
    (Watches.iteration noObserver p notes isNewBest).Ends ws (fun _ _ => True) E := by
  have hnone : ws.list = [] := List.eq_nil_iff_forall_not_mem.2 fun w _ => w.memory.elim
  refine Watches.ends_iteration (fun _ _ => ends_callChosen_empty) fun e he => ?_
  rw [hnone] at he
  cases he

variable {S : Solver σ ω α} {A : Setting ω α} {J K : Progress α → σ → Prop}
  {E : Failure α → Prop}

/-- **A nested run** keeps what its solver promises, and it has stopped when it returns. -/
theorem Contract.nested (h : Contract (nestedPlan S A) J K E) (x : Tensor α) (cost? : Option α)
    (gradient? hessian? : Option (Tensor α)) {w : Workspace σ ω}
    (hinit : ∀ session,
      (S.init A (seeded x RunConfig.defaultMaxIters cost? gradient? hessian?)).Ends
        ⟨w.solver, session⟩ (fun report? w' =>
        K (started (seeded x RunConfig.defaultMaxIters cost? gradient? hessian?) report?) w'.solver)
      E) :
    (nested S A fun c => seeded x c.maxIters cost? gradient? hessian?).Ends w
      (fun p w' => K p w'.solver ∧ p.reason.isTerminal = true) E := by
  obtain ⟨hiter, hmax, hreason⟩ :=
    seeded_unstarted x (RunConfig.defaultMaxIters : Int) cost? gradient? hessian?
  rw [nested_eq, Workspace.ends_nested]
  -- A nested run is a whole run on the workspace at hand, with counts of its own.
  unfold inner Action.Ends
  rw [Action.exec_ofFun]
  have hrun := h.execute (r := ⟨seeded x RunConfig.defaultMaxIters cost? gradient? hessian?,
    (w.withCounts .zero).solver, (w.withCounts .zero).session, []⟩) hreason fun s => hinit s
  have hstart : (nestedPlan S A).config.maxIters = RunConfig.defaultMaxIters := rfl
  beta_reduce
  rw [hstart]
  rcases hexec : (Run.execute (nestedPlan S A)).exec
    ⟨seeded x RunConfig.defaultMaxIters cost? gradient? hessian?, (w.withCounts .zero).solver,
      (w.withCounts .zero).session, []⟩ with ⟨e | _, r⟩
  · exact hrun.of_error hexec
  · exact ⟨hrun.of_ok hexec, execute_isTerminal hiter hmax hreason hexec⟩

end Run

end Minimization
