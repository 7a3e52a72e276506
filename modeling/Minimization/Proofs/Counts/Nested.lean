import Minimization.Proofs.Counts.Recording
import Minimization.Proofs.LineSearch.Parts
import Minimization.Proofs.Method.Parts
import Minimization.Proofs.Run.Invariant

namespace Minimization

/-!
# Counts of nested runs

A nested run counts on a wrapper of its own.  Its counts are added to the outer ones when it returns;
when it fails, they are dropped.

* `Booked` — a computation counts what the operator receives, except for a part that is dropped when
  it fails.
* `Workspace.dropped` — the part that a nested computation drops.
* `LineSearch.dropped`, `SteepestDescent.dropped`, `QuasiNewton.dropped` — the part that a step drops:
  what its line search had counted, if it failed there.
* `Dogleg.inner_quiet` — the run inside a trust-region step counts nothing, so nothing is dropped.
-/

variable {σ τ ω α β γ : Type}

/-- A computation whose wrapper counts what the operator receives; if it fails, the wrapper has counted
    less by what is dropped. -/
structure Booked (I : σ → Prop) (dropped : Workspace σ ω → Counts) (m : Action (Workspace σ ω) α β)
    (m' : Action (Workspace σ (ω × Counts)) α β) : Prop where
  agree : ∀ {n c : Counts} {w : Workspace σ ω} {v : Workspace σ (ω × Counts)},
    ((ledger n c).keeping I).states w v → Agree ((ledger n c).keeping I).states
      (fun w' v' => Short n c (dropped w) w'.session v'.session ∧ v' = ⟨w'.solver, v'.session⟩)
      (m.exec w) (m'.exec v)
  kept : ∀ {w : Workspace σ ω} {b : β} {w' : Workspace σ ω}, m.exec w = (.ok b, w') →
    dropped w = .zero

/-- What is dropped once a first part has succeeded. -/
def Workspace.after (m : Action (Workspace σ ω) α β) (dropped : β → Workspace σ ω → Counts)
    (w : Workspace σ ω) : Counts :=
  match m.exec w with
  | (.ok b, w') => dropped b w'
  | (.error _, _) => .zero

/-- What a nested computation drops: all that it had counted when it failed. -/
def Workspace.dropped (m : Action (Workspace σ ω) α β) (w : Workspace σ ω) : Counts :=
  match m.exec (w.withCounts .zero) with
  | (.ok _, _) => .zero
  | (.error _, v) => v.session.counts

namespace Booked

variable {I : σ → Prop} {m : Action (Workspace σ ω) α β}
  {m' : Action (Workspace σ (ω × Counts)) α β} {f : β → Action (Workspace σ ω) α γ}
  {f' : β → Action (Workspace σ (ω × Counts)) α γ}

/-- Where there is no nested run, nothing is dropped. -/
theorem of_related (h : ∀ n c, ((ledger n c).keeping I).Related m m') :
    Booked I (fun _ => .zero) m m' where
  agree hwv := h _ _ hwv
  kept _ := rfl

/-- What follows may drop something. -/
theorem bind_left {dropped : β → Workspace σ ω → Counts}
    (h : ∀ n c, ((ledger n c).keeping I).Related m m')
    (hf : ∀ b, Booked I (dropped b) (f b) (f' b)) :
    Booked I (Workspace.after m dropped) (m >>= f) (m' >>= f') where
  agree := by
    intro n c w v hwv
    rw [Action.exec_bind, Action.exec_bind]
    unfold Workspace.after
    -- If the first part fails, nothing has been dropped yet.
    obtain ⟨e, w', v', hw, hv, hfail⟩ | ⟨b, w', v', hw, hv, hstates⟩ := (h n c hwv).both
    · rw [hw, hv]
      exact .error hfail
    · rw [hw, hv]
      exact (hf b).agree hstates
  kept := by
    intro w b u hok
    obtain ⟨a, w', hm, hrest⟩ := Action.exec_bind_eq_ok_iff.1 hok
    unfold Workspace.after
    rw [hm]
    exact (hf a).kept hrest

/-- What came first may drop something. -/
theorem bind_right {dropped : Workspace σ ω → Counts} (h : Booked I dropped m m')
    (hf : ∀ b n c, ((ledger n c).keeping I).Related (f b) (f' b)) :
    Booked I dropped (m >>= f) (m' >>= f') where
  agree := by
    intro n c w v hwv
    rw [Action.exec_bind, Action.exec_bind]
    obtain ⟨e, w', v', hw, hv, hfail⟩ | ⟨b, w', v', hw, hv, hstates⟩ := (h.agree hwv).both
    · rw [hw, hv]
      exact .error hfail
    · rw [hw, hv, h.kept hw]
      exact hf b n c hstates
  kept := by
    intro w b u hok
    obtain ⟨a, w', hm, -⟩ := Action.exec_bind_eq_ok_iff.1 hok
    exact h.kept hm

/-- **A nested computation** that counts exactly on its own wrapper drops all of it when it fails. -/
theorem nested {m : Action (Workspace σ ω) α β} {m' : Action (Workspace σ (ω × Counts)) α β}
    (h : ∀ n c, ((ledger n c).workspace σ).Related m m') :
    Booked (fun _ => True) (Workspace.dropped m) (Workspace.nested m) (Workspace.nested m') where
  agree := by
    rintro n c w ⟨_, t⟩ ⟨⟨d, hcounts, ht⟩, -, ⟨⟩⟩
    dsimp only at ht
    subst ht
    -- The nested wrapper starts at zero, where the record stands at what was received before.
    have hstart : ((ledger .zero (c + d)).workspace σ).states (w.withCounts .zero)
        (Workspace.withCounts ⟨w.solver, w.session.recorded (c + d + .zero)⟩ .zero) := by
      refine ⟨⟨.zero, rfl, rfl⟩, trivial, rfl⟩
    unfold Workspace.nested Workspace.dropped
    simp only [Action.exec_ofFun]
    obtain ⟨e, w', v', hw, hv, ⟨d', hd', ht'⟩, hv'⟩ | ⟨b, w', v', hw, hv, ⟨d', hd', ht'⟩, -, hv'⟩ :=
      (h .zero (c + d) hstart).both
    · rw [hw, hv]
      refine .error ⟨⟨d, hcounts, ?_⟩, ?_⟩
      · dsimp only
        rw [hv', ht', hd', Counts.zero_add, Counts.add_zero]
        rfl
      · rw [hv']
        rfl
    · rw [hw, hv]
      refine .ok ⟨⟨d + d', ?_, ?_⟩, trivial, ?_⟩
      · show w.session.counts + w'.session.counts = _
        rw [hcounts, hd', Counts.zero_add, Counts.add_assoc]
      · rw [hv', ht', Counts.add_zero, Counts.add_zero, ← Counts.add_assoc]
        rfl
      · rw [hv']
        rfl
  kept := by
    intro w b u hok
    unfold Workspace.nested at hok
    unfold Workspace.dropped
    simp only [Action.exec_ofFun] at hok
    rcases hm : m.exec (w.withCounts .zero) with ⟨e | b', v⟩
    · rw [hm] at hok
      simp at hok
    · rfl

/-- A computation on a part of the memory drops what it drops. -/
theorem inside {dropped : Workspace τ ω → Counts} {n : Action (Workspace τ ω) α β}
    {n' : Action (Workspace τ (ω × Counts)) α β} (h : Booked (fun _ => True) dropped n n')
    (part : σ → τ) {put : τ → σ → σ} (hput : ∀ y s, I (put y s)) :
    Booked I (fun w => dropped ⟨part w.solver, w.session⟩)
      (Workspace.within part put n) (Workspace.within part put n') where
  agree := by
    rintro k c w ⟨_, t⟩ ⟨hshort, -, ⟨⟩⟩
    unfold Workspace.within
    simp only [Action.exec_focus]
    -- The part of the memory is worked on beside itself, and put back on both sides.
    obtain ⟨e, w', v', hw, hv, hfail, hv'⟩ | ⟨b, w', v', hw, hv, hok, -, hv'⟩ :=
      (h.agree (n := k) (c := c) (w := ⟨part w.solver, w.session⟩) (v := ⟨part w.solver, t⟩)
        ⟨hshort, trivial, rfl⟩).both
    · rw [hw, hv, hv']
      exact .error ⟨hfail, rfl⟩
    · rw [hw, hv, hv']
      exact .ok ⟨hok, hput _ _, rfl⟩
  kept := by
    intro w b u hok
    unfold Workspace.within at hok
    rw [Action.exec_focus] at hok
    exact h.kept (Prod.ext (Prod.mk.inj hok).1 rfl)

/-- A computation on one kind of memory drops what it drops. -/
theorem wrapping {dropped : Workspace τ ω → Counts} {n : Action (Workspace τ ω) α β}
    {n' : Action (Workspace τ (ω × Counts)) α β} (h : Booked (fun _ => True) dropped n n')
    {wrap : τ → σ} (hwrap : ∀ y, I (wrap y)) (x : τ) :
    Booked I (fun w => dropped ⟨x, w.session⟩) (Workspace.wrapping wrap x n)
      (Workspace.wrapping wrap x n') := by
  have hinside : Booked I (fun w => dropped ⟨x, w.session⟩)
      (Workspace.within (fun _ => x) (fun y _ => wrap y) n)
      (Workspace.within (fun _ => x) (fun y _ => wrap y) n') :=
    h.inside (fun _ => x) fun y _ => hwrap y
  exact hinside

end Booked

variable [Scalar α]

/-! ### Line searches -/

/-- A run inside a step, as a step sees it. -/
theorem Run.nested_booked {A : Setting ω α} {S : Solver σ ω α} {S' : Solver σ (ω × Counts) α}
    (hS : ∀ n c, S.Follows ((ledger n c).workspace σ) A A.recording S')
    (start : RunConfig α → Progress α) :
    Booked (fun _ => True) (Workspace.dropped (Run.inner S A start)) (Run.nested S A start)
      (Run.nested S' A.recording start) := by
  rw [Run.nested_eq, Run.nested_eq]
  exact .nested fun n c => Run.inner_related (ledger_lockstep n c A) (hS n c) start

/-- The run of a line search, from what is known at its start. -/
def LineSearch.search (A : Setting ω α) (x : Tensor α) (cost : Option α)
    (gradient : Option (Tensor α)) : Action (Workspace (LineSearch α) ω) α (Progress α) :=
  Run.inner LineSearch.solver A fun c => Run.seeded x c.maxIters cost gradient none

/-- What a line search drops when it fails. -/
def LineSearch.dropped (A : Setting ω α) (x : Tensor α) (direction : Option (Tensor α))
    (cost : Option α) (gradient : Option (Tensor α)) : Workspace (LineSearch α) ω → Counts :=
  Workspace.after (aim direction) fun _ => Workspace.dropped (search A x cost gradient)

theorem LineSearch.run_booked (A : Setting ω α) (x : Tensor α) (direction : Option (Tensor α))
    (cost : Option α) (gradient : Option (Tensor α)) :
    Booked (fun _ => True) (dropped A x direction cost gradient)
      (run A x direction cost gradient) (run A.recording x direction cost gradient) := by
  rw [run_eq A, run_eq A.recording]
  refine .bind_left (fun n c => ?_) fun _ => ?_
  · exact ((ordinary_aim direction fun _ _ _ _ => trivial).related (ledger_lockstep n c A).abreast).coupled
  · exact Run.nested_booked (fun n c => LineSearch.follows (ledger_lockstep n c A)) _

/-! ### Steps that search along a line -/

/-- What a step of steepest descent drops: that of its search along the negative gradient. -/
def SteepestDescent.dropped (A : Setting ω α) (p : Progress α) :
    Workspace (LineSearch α) ω → Counts :=
  Workspace.after (measure A p.param) fun (cost, gradient) =>
    LineSearch.dropped A p.param (some (p.param.backend.scale gradient (-1.0))) (some cost)
      (some gradient)

theorem SteepestDescent.step_booked (A : Setting ω α) (p : Progress α) :
    Booked (fun _ => True) (dropped A p) (step A p) (step A.recording p) := by
  rw [step_parts A, step_parts A.recording]
  refine .bind_left (fun n c => ?_) fun (cost, gradient) => ?_
  · exact ((ordinary_measure _ p.param).related (ledger_lockstep n c A).abreast).coupled
  · exact .bind_right (LineSearch.run_booked A _ _ _ _) fun found n c => .pure _

/-- What a quasi-Newton step drops: that of its search. -/
def QuasiNewton.dropped (A : Setting ω α) (p : Progress α) :
    Workspace (QuasiNewton α) ω → Counts :=
  Workspace.after (aim p) fun (oldGradient, _, direction) w =>
    LineSearch.dropped A p.param (some direction) (some p.cost) (some oldGradient)
      ⟨w.solver.search, w.session⟩

theorem QuasiNewton.step_booked (A : Setting ω α) (p : Progress α) :
    Booked (fun _ => True) (dropped A p) (step A p) (step A.recording p) := by
  rw [step_parts A, step_parts A.recording]
  refine .bind_left (fun n c => ?_) fun (oldGradient, h, direction) => ?_
  · exact ((ordinary_aim _ p).related (ledger_lockstep n c A).abreast).coupled
  · refine .bind_right ((LineSearch.run_booked A _ _ _ _).inside _ fun _ _ => trivial) fun found n c => ?_
    exact QuasiNewton.learn_related (ledger_lockstep n c A) _ _ _ _

/-! ### The run inside a trust-region step -/

/-- From what is known, a dogleg step asks the operator for nothing. -/
theorem Dogleg.step_quiet (A : Setting ω α) {p : Progress α} (hg : p.gradient.isSome)
    (hh : p.hessian.isSome) (w : Workspace (Dogleg α) ω) : ((Dogleg.step A p).exec w).2 = w := by
  obtain ⟨g, hg⟩ := Option.isSome_iff_exists.1 hg
  obtain ⟨h, hh⟩ := Option.isSome_iff_exists.1 hh
  rw [Dogleg.step_eq]
  unfold Session.knownGradient Session.knownHessian
  rw [hg, hh]
  rw [Action.exec_bind]
  show ((if Scalar.isNaN w.solver.radius then _ else _ :
    Action (Workspace (Dogleg α) ω) α (Report α)).exec w).2 = w
  split <;> rfl

/-- Neither does a whole run that starts from what is known. -/
theorem Dogleg.inner_quiet (A : Setting ω α) (x g h : Tensor α) (w : Workspace (Dogleg α) ω) :
    ((Run.inner Dogleg.solver A fun c => Run.seeded x c.maxIters none (some g) (some h)).exec
      w).2.session.counts = w.session.counts := by
  -- Gradient and Hessian are known from the start and never forgotten, so no step evaluates them.
  have hinv : Run.Invariant (Run.nestedPlan Dogleg.solver A) fun r =>
      r.session.counts = w.session.counts ∧ r.progress.gradient.isSome ∧ r.progress.hessian.isSome :=
    { watched := fun _ hr => hr
      receive := fun _ hr => hr
      stopped := fun _ hr => hr
      init_failed := by
        intro r e v hr hinit
        obtain ⟨-, rfl⟩ := Prod.mk.inj hinit
        exact hr
      init := by
        intro r report? v hr hinit
        obtain ⟨hnone, rfl⟩ := Prod.mk.inj hinit
        cases hnone
        exact hr
      step_failed := by
        intro r e v hr hstep
        have hquiet := Dogleg.step_quiet A hr.2.1 hr.2.2 ⟨r.solver, r.session⟩
        have hv : v = ⟨r.solver, r.session⟩ := by
          rw [← hquiet]
          exact (congrArg Prod.snd hstep).symm
        rw [hv]
        exact hr
      step := by
        intro r report v hr hstep
        have hquiet := Dogleg.step_quiet A hr.2.1 hr.2.2 ⟨r.solver, r.session⟩
        have hv : v = ⟨r.solver, r.session⟩ := by
          rw [← hquiet]
          exact (congrArg Prod.snd hstep).symm
        rw [hv]
        exact ⟨hr.1, ProgressOn.isSome_gradient_update hr.2.1 report,
          ProgressOn.isSome_hessian_update hr.2.2 report⟩
      terminate := by
        intro r outcome v hr hown
        obtain ⟨-, rfl⟩ := Prod.mk.inj hown
        exact hr }
  have hend := hinv.execute (r := ⟨Run.seeded x (Run.nestedPlan Dogleg.solver A).config.maxIters none
    (some g) (some h), w.solver, w.session, []⟩) ⟨rfl, rfl, rfl⟩
  unfold Run.inner
  rw [Action.exec_ofFun]
  revert hend
  rcases (Run.execute (Run.nestedPlan Dogleg.solver A)).exec _ with ⟨e | _, r⟩ <;> intro hend
  · exact hend.1
  · exact hend.1

/-- **A trust-region step drops nothing**: the run inside it counts nothing that could be lost. -/
theorem TrustRegion.subproblemStep_related (n c : Counts) (A : Setting ω α)
    (x gradient hessian : Tensor α) : ((ledger n c).workspace _).Related
      (TrustRegion.subproblemStep A x gradient hessian)
      (TrustRegion.subproblemStep A.recording x gradient hessian) := by
  refine .bind .readSolver fun s => ?_
  refine .bind (.ofExcept _) fun dogleg => ?_
  refine .bind (.within ?_) fun found => .pure _
  intro w v hwv
  have hbooked := Run.nested_booked (A := A) (fun n c => Dogleg.follows (ledger_lockstep n c A))
    fun c => Run.seeded x c.maxIters none (some gradient) (some hessian)
  -- Whatever its nested run does, nothing is counted in it that could be dropped.
  have hdropped : Workspace.dropped (Run.inner Dogleg.solver A fun c =>
      Run.seeded x c.maxIters none (some gradient) (some hessian)) w = .zero := by
    have hquiet := Dogleg.inner_quiet A x gradient hessian (w.withCounts .zero)
    unfold Workspace.dropped
    revert hquiet
    rcases Action.exec _ (w.withCounts .zero) with ⟨e | _, v⟩ <;> intro hquiet
    · exact hquiet
    · rfl
  have hagree := hbooked.agree hwv
  rw [hdropped] at hagree
  exact hagree

end Minimization
