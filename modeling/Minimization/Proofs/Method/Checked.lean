import Minimization.Proofs.Counts.Runs
import Minimization.Proofs.LineSearch.Checked
import Minimization.Proofs.Method.Fuse
import Minimization.Proofs.Method.Trajectory

namespace Minimization

/-!
# Methods that check themselves

A run in debug mode fails where a run without it shows a cost that is not a number, in the run itself or
in a line search inside one of its steps.  Otherwise the two are the same.

* `Workspace.launch?` — what a computation comes to launch.
* `Method.launch?` — the run of the line search in a step.
* `Method.step_provided` — **a step in debug mode** succeeds exactly if it does without, and its line
  search shows nothing but numbers.
* `Run.execute_debug_iff` — **a run in debug mode**.
-/

variable {σ ω η α β : Type}

/-! ### The run inside a step -/

section
variable {ρ : Type} {m : Action (Workspace σ ω) α β} {launch : β → Workspace σ ω → ρ}
  {w : Workspace σ ω} {q : ρ}

/-- What is launched once a first part has succeeded. -/
def Workspace.launch? (m : Action (Workspace σ ω) α β) (launch : β → Workspace σ ω → ρ)
    (w : Workspace σ ω) : Option ρ :=
  match m.exec w with
  | (.ok b, v) => some (launch b v)
  | (.error _, _) => none

/-- Nothing is launched if the first part fails. -/
theorem Workspace.launch?_eq_some_iff :
    launch? m launch w = some q ↔ ∃ b v, m.exec w = (.ok b, v) ∧ launch b v = q := by
  unfold launch?
  rcases m.exec w with ⟨e | b, v⟩
  · simp
  · constructor
    · intro h
      exact ⟨b, v, rfl, Option.some.inj h⟩
    · rintro ⟨_, _, h, rfl⟩
      obtain ⟨hb, rfl⟩ := Prod.mk.inj h
      obtain rfl := Except.ok.inj hb
      rfl

/-- A computation that depends on what it launches. -/
theorem Action.Provided.bind_launch {γ : Type} {f f' : β → Action (Workspace σ ω) α γ} {C : ρ → Prop}
    (hf : ∀ b v, (f b).Provided (f' b) v (C (launch b v))) :
    (m >>= f).Provided (m >>= f') w (∀ q, Workspace.launch? m launch w = some q → C q) := by
  refine (Action.Provided.bind_second fun b v _ => hf b v).congr fun _ _ _ => ?_
  constructor
  · intro h q hq
    obtain ⟨b, v, hexec, rfl⟩ := Workspace.launch?_eq_some_iff.1 hq
    exact h b v hexec
  · exact fun h b v hexec => h _ (Workspace.launch?_eq_some_iff.2 ⟨b, v, hexec, rfl⟩)

end

variable [Scalar α] {A : Setting ω α} {p : Progress α}

/-! ### Steepest descent -/

namespace SteepestDescent

/-- The search along the negative gradient. -/
def launch? (A : Setting ω α) (p : Progress α) :
    Workspace (LineSearch α) ω → Option (Run (LineSearch α) ω Empty α) :=
  Workspace.launch? (measure A p.param) fun (cost, gradient) v =>
    LineSearch.launched A v.solver p.param (p.param.backend.scale gradient (-1.0)) (some cost)
      (some gradient) v.session

/-- A step of steepest descent in debug mode succeeds exactly if it does without and its search shows
    nothing but numbers. -/
theorem step_provided (hA : A.debug = false) (p : Progress α) (w : Workspace (LineSearch α) ω) :
    (step A p).Provided (step A.checked p) w
      (∀ q, launch? A p w = some q → Run.Numbered (Run.nestedPlan LineSearch.solver A) q) := by
  rw [step_parts A, step_parts A.checked]
  exact .bind_launch fun (cost, gradient) v => .bind_first (LineSearch.run_provided hA _ _ _ _ _ _)

/-- A search for the strong Wolfe conditions has shown nothing but numbers if the step shows one. -/
theorem numbered_of_strong [Scalar.Ordered α] [Scalar.Absorbing α] {w v : Workspace (LineSearch α) ω}
    {report : Report α} {q : Run (LineSearch α) ω Empty α} (h : (step A p).exec w = (.ok report, v))
    (hcost : Scalar.isNaN (report.cost.getD p.cost) = false) (hq : launch? A p w = some q)
    (hstrong : q.solver.isStrong = true) : Run.Numbered (Run.nestedPlan LineSearch.solver A) q := by
  obtain ⟨⟨cost, gradient⟩, v', hmeasure, rfl⟩ := Workspace.launch?_eq_some_iff.1 hq
  rw [step_parts, Action.exec_bind, hmeasure] at h
  obtain ⟨found, v'', hrun, hreport⟩ := Action.exec_bind_eq_ok_iff.1 h
  obtain rfl := Except.ok.inj (Prod.mk.inj hreport).1
  exact LineSearch.numbered_of_strong ((LineSearch.isStrong_aimed _ _).symm.trans hstrong) hrun hcost

end SteepestDescent

/-! ### The quasi-Newton method -/

namespace QuasiNewton

/-- The search in the direction that the inverse Hessian tells. -/
def launch? (A : Setting ω α) (p : Progress α) :
    Workspace (QuasiNewton α) ω → Option (Run (LineSearch α) ω Empty α) :=
  Workspace.launch? (aim p) fun (oldGradient, _, direction) v =>
    LineSearch.launched A v.solver.search p.param direction (some p.cost) (some oldGradient) v.session

/-- The same for a step of the quasi-Newton method. -/
theorem step_provided (hA : A.debug = false) (p : Progress α) (w : Workspace (QuasiNewton α) ω) :
    (step A p).Provided (step A.checked p) w
      (∀ q, launch? A p w = some q → Run.Numbered (Run.nestedPlan LineSearch.solver A) q) := by
  rw [step_parts A, step_parts A.checked]
  exact .bind_launch fun (oldGradient, h, direction) v =>
    .bind_first (.focus (LineSearch.run_provided hA _ _ _ _ _ _))

/-- A search for the strong Wolfe conditions has shown nothing but numbers if the step shows one. -/
theorem numbered_of_strong [Scalar.Ordered α] [Scalar.Absorbing α] {w v : Workspace (QuasiNewton α) ω}
    {report : Report α} {q : Run (LineSearch α) ω Empty α} (h : (step A p).exec w = (.ok report, v))
    (hcost : Scalar.isNaN (report.cost.getD p.cost) = false) (hq : launch? A p w = some q)
    (hstrong : q.solver.isStrong = true) : Run.Numbered (Run.nestedPlan LineSearch.solver A) q := by
  obtain ⟨⟨oldGradient, inverse, direction⟩, v', haim, rfl⟩ := Workspace.launch?_eq_some_iff.1 hq
  rw [step_parts, Action.exec_bind, haim] at h
  obtain ⟨found, v'', hrun, hlearn⟩ := Action.exec_bind_eq_ok_iff.1 h
  obtain ⟨gradient, -, rfl⟩ := (ends_learn_report _ _ _ _ _).of_ok hlearn
  unfold Workspace.within at hrun
  rw [Action.exec_focus] at hrun
  exact LineSearch.numbered_of_strong ((LineSearch.isStrong_aimed _ _).symm.trans hstrong)
    (Prod.ext (Prod.mk.inj hrun).1 rfl) hcost

end QuasiNewton

/-! ### The trust-region method -/

namespace Dogleg

/-- A step along the path reports no cost. -/
theorem cost_of_path (b : Backend) (s : Dogleg α) (g h : Tensor α) :
    ∀ report, path b s g h = .ok report → report.cost = none := by
  -- Whatever the parts come to, what is returned is a step and the parameter that it was found for.
  have hrest {β : Type} {x : Except (Failure α) β} {f : β → Except (Failure α) (Report α)}
      (hf : ∀ b report, f b = .ok report → report.cost = none) :
      ∀ report, (x >>= f) = .ok report → report.cost = none := by
    intro report h
    cases x with
    | error e => cases h
    | ok b => exact hf b report h
  have hreached {x : Tensor α} {tau : α} :
      ∀ report, (pure (reached x tau) : Except (Failure α) _) = .ok report → report.cost = none := by
    intro report h
    obtain rfl := Except.ok.inj h
    rfl
  unfold path
  refine hrest fun inverse => hrest fun image => hrest fun length => ?_
  split
  · exact hreached
  refine hrest fun gg => hrest fun ghg => hrest fun utu => hrest fun btb => hrest fun utb =>
    hrest fun delta => ?_
  dsimp only
  split
  · exact hreached
  split
  · exact hrest fun leg => hrest fun x => hreached
  · exact nofun

/-- The run of a dogleg method shows the cost that it has started from. -/
theorem cost_contract (A : Setting ω α) (c : α) : Run.Contract (Run.nestedPlan Dogleg.solver A)
    (fun p _ => p.cost = c) (fun p _ => p.cost = c) fun _ => True := by
  refine .anyhow (fun reason h => h) (fun {p s} t h _ => ?_) fun t h => h
  refine ends_step_iff.2 ?_
  split
  · trivial
  refine (Action.ends_anyhow _ _).mono fun gradient t _ => ?_
  refine (Action.ends_anyhow _ _).mono fun hessian t _ => ?_
  refine Action.ends_ofExcept (fun report hreport => ?_) fun _ _ => trivial
  rw [ProgressOn.cost_increment, ProgressOn.cost_update, cost_of_path _ _ _ _ _ hreport]
  exact h

/-- So it shows nothing but numbers if that is one. -/
theorem numbered {r : Run (Dogleg α) ω Empty α} (hr : Scalar.isNaN r.progress.cost = false) :
    Run.Numbered (Run.nestedPlan Dogleg.solver A) r := by
  intro n hn
  rw [(cost_contract A r.progress.cost).reached (fun _ => rfl)
    (hn.2.consecutive.reached hn.2.reached (n + 1) le_rfl)]
  exact hr

end Dogleg

namespace TrustRegion

variable [Scalar.Ordered α]

/-- The run inside a step of the method has no cost to show. -/
theorem subproblemStep_provided (hA : A.debug = false) (x g h : Tensor α)
    (w : Workspace (TrustRegion α) ω) :
    (subproblemStep A x g h).Provided (subproblemStep A.checked x g h) w True := by
  refine .bind_always fun s v => .bind_always fun dogleg v => .bind_first ?_
  refine .focus ((Run.nested_provided hA (fun n c => Dogleg.follows (ledger_lockstep n c A))
    (fun _ => rfl) (fun _ => rfl) _ _).congr fun _ _ _ => iff_true_intro (Dogleg.numbered ?_))
  exact Scalar.Ordered.isNaN_infinity

/-- A step in a trust region runs no search, so debug mode makes no difference in it. -/
theorem step_provided (hA : A.debug = false) (p : Progress α) (w : Workspace (TrustRegion α) ω) :
    (step A p).Provided (step A.checked p) w True := by
  refine .bind_always fun gradient v => .bind_always fun hessian v => .bind_first ?_
  exact subproblemStep_provided hA _ _ _ _

end TrustRegion

/-! ### The method at hand -/

namespace Method

/-- The run of the line search in a step, if the step comes to one. -/
def launch? (A : Setting ω α) (p : Progress α) (w : Workspace (Method α) ω) :
    Option (Run (LineSearch α) ω Empty α) :=
  match w.solver with
  | .steepestDescent s => SteepestDescent.launch? A p ⟨s, w.session⟩
  | .quasiNewton s => QuasiNewton.launch? A p ⟨s, w.session⟩
  | _ => none

variable [Scalar.Ordered α]

/-- **A step in debug mode** succeeds exactly if it does without, and its line search shows nothing but
    numbers. -/
theorem step_provided (hA : A.debug = false) (p : Progress α) {w : Workspace (Method α) ω}
    (hw : w.solver.BuiltIn) : (Method.solver.step A p).Provided (Method.solver.step A.checked p) w
      (∀ q, launch? A p w = some q → Run.Numbered (Run.nestedPlan LineSearch.solver A) q) := by
  obtain ⟨m, t⟩ := w
  suffices h : (acting (fun S => S.step A p) m).Provided (acting (fun S => S.step A.checked p) m) ⟨m, t⟩
      (∀ q, launch? A p ⟨m, t⟩ = some q → Run.Numbered (Run.nestedPlan LineSearch.solver A) q) by
    intro report v
    rw [exec_step, exec_step]
    exact h report v
  have hwrapping {σ : Type} {wrap : σ → Method α} {s : σ}
      {n n' : Action (Workspace σ ω) α (Report α)} {C : Prop} (h : n.Provided n' ⟨s, t⟩ C) :
      (Workspace.wrapping wrap s n).Provided (Workspace.wrapping wrap s n') ⟨m, t⟩ C :=
    Action.Provided.focus (x := (⟨m, t⟩ : Workspace (Method α) ω)) h
  -- Most steps have no line search.
  have hnone {n n' : Action (Workspace (Method α) ω) α (Report α)} {C : Run _ ω Empty α → Prop}
      (h : n.Provided n' ⟨m, t⟩ True) :
      n.Provided n' ⟨m, t⟩ (∀ q : Run (LineSearch α) ω Empty α, none = some q → C q) :=
    h.congr fun _ _ _ => iff_of_true trivial fun _ hq => nomatch hq
  cases m with
  | landweber s => exact hnone (.of_eq rfl)
  | newton s => exact hnone (.of_eq rfl)
  | steepestDescent s => exact hwrapping (SteepestDescent.step_provided hA p ⟨s, t⟩)
  | quasiNewton s => exact hwrapping (QuasiNewton.step_provided hA p ⟨s, t⟩)
  | lineSearch s => exact hnone (.of_eq rfl)
  | dogleg s => exact hnone (.of_eq rfl)
  | trustRegion s => exact hnone (hwrapping (TrustRegion.step_provided hA p ⟨s, t⟩))
  | script s => exact hw.elim

/-- A search for the strong Wolfe conditions has shown nothing but numbers if the step shows one. -/
theorem numbered_of_strong [Scalar.Absorbing α] {w v : Workspace (Method α) ω} {report : Report α}
    {q : Run (LineSearch α) ω Empty α} (h : (Method.solver.step A p).exec w = (.ok report, v))
    (hcost : Scalar.isNaN (report.cost.getD p.cost) = false) (hq : launch? A p w = some q)
    (hstrong : q.solver.isStrong = true) : Run.Numbered (Run.nestedPlan LineSearch.solver A) q := by
  rw [exec_step] at h
  obtain ⟨m, t⟩ := w
  have hfocus {σ : Type} {wrap : σ → Method α} {s : σ} {n : Action (Workspace σ ω) α (Report α)}
      (h : (Workspace.wrapping wrap s n).exec ⟨m, t⟩ = (.ok report, v)) :
      ∃ v', n.exec ⟨s, t⟩ = (.ok report, v') := by
    unfold Workspace.wrapping at h
    rw [Action.exec_focus] at h
    exact ⟨_, Prod.ext (Prod.mk.inj h).1 rfl⟩
  cases m with
  | steepestDescent s =>
    obtain ⟨v', hstep⟩ := hfocus h
    exact SteepestDescent.numbered_of_strong hstep hcost hq hstrong
  | quasiNewton s =>
    obtain ⟨v', hstep⟩ := hfocus h
    exact QuasiNewton.numbered_of_strong hstep hcost hq hstrong
  | landweber s => cases hq
  | newton s => cases hq
  | lineSearch s => cases hq
  | dogleg s => cases hq
  | trustRegion s => cases hq
  | script s => cases hq

end Method

/-! ### Whole runs -/

namespace Run

variable [Scalar.Ordered α] {O : Observer η α} {c : RunConfig α} {r u : Run (Method α) ω η α}

/-- A built-in method is checked for the costs that it shows and for those that its line searches
    show. -/
theorem checkable_plan (hA : A.debug = false) (hm : r.solver.BuiltIn) :
    Checkable (plan A O c) r fun t => ∀ q,
      Method.launch? A t.progress ⟨t.solver, t.session⟩ = some q →
        Numbered (nestedPlan LineSearch.solver A) q := by
  have hbuiltIn (n : ℕ) (hn : Goes (plan A O c) r n) : (stateAfter (plan A O c) r n).solver.BuiltIn :=
    (stateAfter_kept A.operator.keeps_nothing hm trivial hn).2
  exact {
    unchecked := hA
    init := fun _ => rfl
    step := fun n hn => Method.step_provided hA _ (hbuiltIn n hn)
    grows := fun n hn report w h => (Method.step_grows (hbuiltIn n hn) h).2 }

/-- **A run in debug mode.**  A run of a built-in method returns in debug mode exactly if it does
    without, its cost is a number after every iteration, and so is that of every search by backtracking
    in its steps, after each iteration of the search.  It then ends in the same state, its counts
    included. -/
theorem execute_debug_iff [Scalar.Absorbing α] (op : Operator ω α) (O : Observer η α) (c : RunConfig α)
    (hm : r.solver.BuiltIn) :
    (execute (plan ⟨op, true⟩ O c)).exec r = (.ok (), u) ↔
      (execute (plan ⟨op, false⟩ O c)).exec r = (.ok (), u) ∧
      Numbered (plan ⟨op, false⟩ O c) r ∧
      ∀ n, Completes (plan ⟨op, false⟩ O c) r n → ∀ q,
        Method.launch? ⟨op, false⟩ (stateAfter (plan ⟨op, false⟩ O c) r n).progress
          ⟨(stateAfter (plan ⟨op, false⟩ O c) r n).solver,
            (stateAfter (plan ⟨op, false⟩ O c) r n).session⟩ = some q →
        q.solver.isStrong = false → Numbered (nestedPlan LineSearch.solver ⟨op, false⟩) q := by
  have hplan : plan ⟨op, true⟩ O c = (plan ⟨op, false⟩ O c).checked := rfl
  have hchecked : Checkable (plan ⟨op, false⟩ O c) r _ := checkable_plan rfl hm
  rw [hplan, hchecked.execute_checked_iff]
  refine and_congr_right fun _ => and_congr_right fun hnumbered => ?_
  refine forall₂_congr fun n hn => forall₂_congr fun q hq => ⟨fun h _ => h, fun h => ?_⟩
  cases hstrong : q.solver.isStrong with
  | false => exact h hstrong
  | true =>
    -- The step shows what its search has found, and that is a number.
    have hlast := Nat.lt_succ_self n
    obtain ⟨report, w, own, session, v, hstep, -, hprogress, -⟩ :=
      iterate_reports _ (hn.2.running n hlast) (hn.2.iterate_eq hlast)
    have hcost := hnumbered n hn
    rw [hprogress] at hcost
    refine Method.numbered_of_strong hstep ?_ hq hstrong
    rw [← ProgressOn.cost_update, ← ProgressOn.cost_increment]
    exact hcost

/-- Both runs of steepest descent with backtracking on the sphere function. -/
theorem execute_debug_iff_sphere : trialSteps.BuiltIn ∧ ∃ u q,
    (execute (plan ⟨sphereOperator, true⟩ noObserver ⟨5, -1.0, true⟩)).exec calmStart = (.ok (), u) ∧
      (execute calmPlan).exec calmStart = (.ok (), u) ∧ Numbered calmPlan calmStart ∧
      Completes calmPlan calmStart 0 ∧
      Method.launch? ⟨sphereOperator, false⟩ (stateAfter calmPlan calmStart 0).progress
        ⟨(stateAfter calmPlan calmStart 0).solver, (stateAfter calmPlan calmStart 0).session⟩ =
          some q ∧ Numbered (nestedPlan LineSearch.solver ⟨sphereOperator, false⟩) q := by
  have hok : ((execute (plan ⟨sphereOperator, true⟩ noObserver ⟨5, -1.0, true⟩)).exec
      calmStart).1.isOk = true := by decide +kernel
  have hlaunch : (Method.launch? ⟨sphereOperator, false⟩ (stateAfter calmPlan calmStart 0).progress
      ⟨(stateAfter calmPlan calmStart 0).solver,
        (stateAfter calmPlan calmStart 0).session⟩).any (fun q => !q.solver.isStrong) = true := by
    decide +kernel
  have hfirst : Completes calmPlan calmStart 0 :=
    ⟨by decide, by decide +kernel, by decide +kernel, by decide +kernel, by decide +kernel⟩
  have hrun := Action.exec_eq_of_isOk hok
  obtain ⟨hplain, hnumbered, hsearches⟩ := (execute_debug_iff sphereOperator noObserver
    ⟨5, -1.0, true⟩ (r := calmStart) trivial).1 hrun
  obtain ⟨q, hq, hweak⟩ := (Option.any_eq_true _ _).1 hlaunch
  exact ⟨trivial, _, q, hrun, hplain, hnumbered, hfirst, hq,
    hsearches 0 hfirst q hq (Bool.not_eq_true' _ ▸ hweak)⟩

/-- The function `x √x`, which has no values left of zero. -/
def halfLine : Operator Unit (Exact ℚ) where
  name := "Problem"
  cost? := some fun x => pure (Scalar.inner x.entries (x.entries.map Scalar.sqrt))
  gradient? := some fun x => pure (x.map fun a => 1.5 * Scalar.sqrt a)

/-- One iteration on it. -/
def halfPlan (debug : Bool) : Plan (Method (Exact ℚ)) Unit Empty (Exact ℚ) :=
  plan ⟨halfLine, debug⟩ noObserver ⟨1, -1.0, true⟩

/-- From one on. -/
def halfStart : Run (Method (Exact ℚ)) Unit Empty (Exact ℚ) :=
  fresh (halfPlan false) (.vector .array [1.0]) none none none trialSteps (.start ()) []

/-- The costs that a run shows itself do not tell whether it returns in debug mode: backtracking may try
    a point where the cost is not a number, reject it, and go on. -/
theorem not_debug_transparent : ¬ ∀ (op : Operator Unit (Exact ℚ)) (O : Observer Empty (Exact ℚ))
    (c : RunConfig (Exact ℚ)) (r u : Run (Method (Exact ℚ)) Unit Empty (Exact ℚ)), r.solver.BuiltIn →
      (execute (plan ⟨op, false⟩ O c)).exec r = (.ok (), u) → Numbered (plan ⟨op, false⟩ O c) r →
      ∃ u', (execute (plan ⟨op, true⟩ O c)).exec r = (.ok (), u') ∧ u'.progress = u.progress ∧
        u'.session.counts = u.session.counts := by
  intro h
  have hok : ((execute (halfPlan false)).exec halfStart).1.isOk = true := by decide +kernel
  have hfail : ((execute (halfPlan true)).exec halfStart).1.isOk = false := by decide +kernel
  have hstop : ¬ (stateAfter (halfPlan false) halfStart 1).progress.reason = .notTerminated := by
    decide +kernel
  have hnumber : Scalar.isNaN (stateAfter (halfPlan false) halfStart 1).progress.cost = false := by
    decide +kernel
  have hnumbered : Numbered (halfPlan false) halfStart := by
    intro n hn
    -- There is one iteration only.
    obtain rfl : n = 0 := by
      have hlast := hn.2.le_of_halts (k := 1) (.stopped hstop)
      omega
    exact hnumber
  obtain ⟨u', hrun, -⟩ := h halfLine noObserver ⟨1, -1.0, true⟩ halfStart _ trivial
    (Action.exec_eq_of_isOk hok) hnumbered
  have hexec : (execute (halfPlan true)).exec halfStart = (.ok (), u') := hrun
  rw [hexec] at hfail
  cases hfail

end Run

end Minimization
