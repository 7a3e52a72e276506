import Minimization.Proofs.Coupling.Parting

namespace Minimization

/-!
# What a computation sees of the memory

From two memories of a solver that differ only where a computation does not look, it comes to the same
outcome and does the same to the session, so that it asks the same of the operator, whether it succeeds
or fails.

* `Sees` — what the computation sees of the memory before, and what is the same in it afterwards; the
  rules beside it follow the building blocks of computations.
* `Solver.Sees` — what the parts of a solver see.
* `Run.Alike`, `Run.execute_sees` — a whole run sees what the initialisation of its solver sees.
* `Run.nested_sees` — so does a run inside a step.
-/

variable {σ τ ω η α β γ κ κ' ι ι' : Type}

/-- What follows an outcome is the same on both sides if the outcome is. -/
theorem Agree.resume {σ' τ' : Type} {S F : σ → τ → Prop} {S' F' : σ' → τ' → Prop}
    {x : Except (Failure α) β × σ} {y : Except (Failure α) β × τ}
    {go : β → σ → Except (Failure α) γ × σ'} {go' : β → τ → Except (Failure α) γ × τ'}
    {leave : σ → σ'} {leave' : τ → τ'} (h : Agree S F x y)
    (hgo : ∀ b s t, S s t → Agree S' F' (go b s) (go' b t))
    (herror : ∀ s t, F s t → F' (leave s) (leave' t)) :
    Agree S' F' (Action.resume x go leave) (Action.resume y go' leave') := by
  cases h with
  | ok h => exact hgo _ _ _ h
  | error h => exact .error (herror _ _ h)

/-- States that belong together have come about by the same outcome. -/
theorem Agree.outcome {S F R : σ → τ → Prop} {x : Except (Failure α) β × σ}
    {y : Except (Failure α) β × τ} (h : Agree S F x y) (hS : ∀ s t, S s t → R s t)
    (hF : ∀ s t, F s t → R s t) : y.1 = x.1 ∧ R x.2 y.2 := by
  cases h with
  | ok h => exact ⟨rfl, hS _ _ h⟩
  | error h => exact ⟨rfl, hF _ _ h⟩

/-- The same session, and memories with the same view. -/
def Workspace.Alike (view : σ → κ) (w v : Workspace σ ω) : Prop :=
  v.session = w.session ∧ view v.solver = view w.solver

/-- Nothing is said of the memory. -/
abbrev Unseen : σ → Unit := fun _ => ()

/-- From memories with the same `view` the computation has the same outcome and leaves the same session;
    if it succeeds, the memories are the same as far as `after` goes. -/
def Sees (view : σ → κ) (after : σ → ι) (m : Action (Workspace σ ω) α β) : Prop :=
  ∀ ⦃w v : Workspace σ ω⦄, Workspace.Alike view w v →
    Agree (Workspace.Alike after) (Workspace.Alike Unseen) (m.exec w) (m.exec v)

namespace Sees

variable {view : σ → κ} {after : σ → ι} {m : Action (Workspace σ ω) α β}
  {f : β → Action (Workspace σ ω) α γ}

/-- What sees all of the memory. -/
theorem of_id (m : Action (Workspace σ ω) α β) : Sees id id m := by
  rintro ⟨s, t⟩ ⟨s', t'⟩ ⟨hsession, hsolver⟩
  obtain rfl : t' = t := hsession
  obtain rfl : s' = s := hsolver
  rcases m.exec ⟨s', t'⟩ with ⟨_ | b, u⟩
  · exact .error ⟨rfl, rfl⟩
  · exact .ok ⟨rfl, rfl⟩

/-- Less may be said of what is the same afterwards. -/
theorem weaken {after' : σ → ι'} (h : Sees view after m)
    (hafter : ∀ s s', after s' = after s → after' s' = after' s) : Sees view after' m := by
  intro w v hwv
  have hagree := h hwv
  generalize m.exec w = x at hagree
  generalize m.exec v = y at hagree
  cases hagree with
  | ok h => exact .ok ⟨h.1, hafter _ _ h.2⟩
  | error h => exact .error h

/-- Nothing is done. -/
theorem pure (b : β) : Sees view view (Pure.pure b : Action (Workspace σ ω) α β) :=
  fun _ _ hwv => .ok hwv

/-- A calculation does not look at the memory. -/
theorem ofExcept (e : Except (Failure α) β) :
    Sees view view (Action.ofExcept e : Action (Workspace σ ω) α β) := by
  intro w v hwv
  rw [Action.exec_ofExcept, Action.exec_ofExcept]
  cases e with
  | ok b => exact .ok hwv
  | error e => exact .error ⟨hwv.1, rfl⟩

/-- **Sequences.** -/
theorem bind {between : σ → ι'} (hm : Sees view between m) (hf : ∀ b, Sees between after (f b)) :
    Sees view after (m >>= f) := by
  intro w v hwv
  rw [Action.exec_bind_eq_resume, Action.exec_bind_eq_resume]
  exact (hm hwv).resume (fun b _ _ h => hf b h) fun _ _ => id

/-- Neither does the session. -/
theorem onSession (n : Action (Session ω) α β) :
    Sees view view (Workspace.onSession n : Action (Workspace σ ω) α β) := by
  rintro ⟨s, t⟩ ⟨s', t'⟩ ⟨hsession, hsolver⟩
  obtain rfl : t' = t := hsession
  unfold Workspace.onSession
  rw [Action.exec_focus, Action.exec_focus]
  rcases n.exec t' with ⟨_ | b, u⟩
  · exact .error ⟨rfl, rfl⟩
  · exact .ok ⟨rfl, hsolver⟩

/-- What is read shows in the view, as far as it matters. -/
theorem reading {f : σ → Action (Workspace σ ω) α γ} (hf : ∀ s s', view s' = view s → f s' = f s)
    (h : ∀ s, Sees view after (f s)) : Sees view after (Workspace.readSolver >>= f) := by
  intro w v hwv
  have hread (u : Workspace σ ω) : (Workspace.readSolver >>= f).exec u = (f u.solver).exec u := rfl
  rw [hread, hread, hf _ _ hwv.2]
  exact h w.solver hwv

/-- What is stored shows all of the memory that is not overwritten. -/
theorem modifySolver {g : σ → σ} (hg : ∀ s s', view s' = view s → after (g s') = after (g s)) :
    Sees view after (Workspace.modifySolver g : Action (Workspace σ ω) α Unit) :=
  fun _ _ hwv => .ok ⟨hwv.1, hg _ _ hwv.2⟩

/-- Work on a part of the memory. -/
theorem within {part : σ → τ} {put : τ → σ → σ} {view' : τ → κ'} {after' : τ → ι'}
    {n : Action (Workspace τ ω) α β} (hn : Sees view' after' n)
    (hpart : ∀ s s', view s' = view s → view' (part s') = view' (part s))
    (hput : ∀ y y' s s', after' y' = after' y → view s' = view s →
      after (put y' s') = after (put y s)) :
    Sees view after (Workspace.within part put n) := by
  intro w v hwv
  unfold Workspace.within
  rw [Action.exec_focus_eq_resume, Action.exec_focus_eq_resume]
  refine (hn ⟨hwv.1, hpart _ _ hwv.2⟩).resume (fun _ x y hxy => ?_) fun x y hxy => ⟨hxy.1, rfl⟩
  exact .ok ⟨hxy.1, hput _ _ _ _ hxy.2 hwv.2⟩

/-- Work with two memories that are wrapped, whatever they take the place of. -/
theorem wrapping {view' : τ → κ'} {after' : τ → ι'} {n : Action (Workspace τ ω) α β}
    (hn : Sees view' after' n) (wrap : τ → σ) {x x' : τ} (hx : view' x' = view' x)
    (hwrap : ∀ y y', after' y' = after' y → after (wrap y') = after (wrap y))
    {w v : Workspace σ ω} (hsession : v.session = w.session) :
    Agree (Workspace.Alike after) (Workspace.Alike Unseen)
      ((Workspace.wrapping wrap x n).exec w) ((Workspace.wrapping wrap x' n).exec v) := by
  unfold Workspace.wrapping
  rw [Action.exec_focus_eq_resume, Action.exec_focus_eq_resume]
  exact (hn (w := ⟨x, w.session⟩) (v := ⟨x', v.session⟩) ⟨hsession, hx⟩).resume
    (fun _ u u' hu => .ok ⟨hu.1, hwrap _ _ hu.2⟩) fun u u' hu => ⟨hu.1, rfl⟩

/-- The counts of a nested computation are no part of the memory. -/
theorem nested (h : Sees view after m) : Sees view after (Workspace.nested m) := by
  rintro ⟨s, t⟩ ⟨s', t'⟩ ⟨hsession, hsolver⟩
  obtain rfl : t' = t := hsession
  rw [Bond.exec_nested, Bond.exec_nested]
  refine (h (w := Workspace.withCounts ⟨s, t'⟩ .zero) (v := Workspace.withCounts ⟨s', t'⟩ .zero)
    ⟨rfl, hsolver⟩).resume (fun _ x y hxy => .ok ⟨?_, hxy.2⟩) fun x y hxy => ⟨?_, rfl⟩
  · unfold Workspace.withCounts
    rw [hxy.1]
  · unfold Workspace.withCounts
    rw [hxy.1]

end Sees

/-! ### Runs -/

/-- What the parts of a solver see of its memory: the initialisation `view`, the others what it has
    left. -/
structure Solver.Sees (view : σ → κ) (after : σ → ι) (A : Setting ω α) (S : Solver σ ω α) : Prop where
  name : ∀ s s', view s' = view s → S.name s' = S.name s
  nameAfter : ∀ s s', after s' = after s → S.name s' = S.name s
  init : ∀ p, Minimization.Sees view after (S.init A p)
  step : ∀ p, Minimization.Sees after after (S.step A p)
  terminate : ∀ p, Minimization.Sees after after (S.terminate p)

/-- Runs that differ in the memory of their solvers only, and there they have the same view. -/
structure Run.Alike (view : σ → κ) (r q : Run σ ω η α) : Prop where
  progress : q.progress = r.progress
  session : q.session = r.session
  observers : q.observers = r.observers
  solver : view q.solver = view r.solver

namespace Run

variable [Scalar α] {view : σ → κ} {after : σ → ι} {P : Plan σ ω η α} {r q : Run σ ω η α}

omit [Scalar α] in
/-- Runs that show the same are alike where nothing of the memory counts. -/
theorem Alike.unseen (h : Alike view r q) : Alike Unseen r q :=
  ⟨h.progress, h.session, h.observers, rfl⟩

omit [Scalar α] in
/-- What their solvers work with shows the same. -/
theorem Alike.workspace (h : Alike view r q) :
    Workspace.Alike view (⟨r.solver, r.session⟩ : Workspace σ ω) ⟨q.solver, q.session⟩ :=
  ⟨h.session, h.solver⟩

omit [Scalar α] in
/-- A line in both logs keeps them alike. -/
theorem Alike.logged (h : Alike view r q) (level : Int) (message : Unit → String) :
    Alike view (logged level message r) (logged level message q) := by
  refine ⟨h.progress, ?_, h.observers, h.solver⟩
  unfold Run.logged
  rw [h.session]

omit [Scalar α] in
/-- So does a request to stop. -/
theorem Alike.receive (h : Alike view r q) (i : Interrupt) :
    Alike view (receive i r) (receive i q) := by
  refine ⟨h.progress, ?_, h.observers, h.solver⟩
  unfold Run.receive
  rw [h.session]

omit [Scalar α] in
/-- Observers do not see the memory of the solver. -/
theorem onWatches_alike (h : Alike view r q) (m : Action (Watches η) α β) :
    Agree (Alike view) (Alike Unseen) ((onWatches m).exec r) ((onWatches m).exec q) := by
  rw [exec_onWatches, exec_onWatches, h.session, h.observers]
  rcases m.exec ⟨r.observers, r.session.logbook⟩ with ⟨_ | b, ws⟩
  · exact .error ⟨h.progress, by unfold watched; rw [h.session], rfl, rfl⟩
  · exact .ok ⟨h.progress, by unfold watched; rw [h.session], rfl, h.solver⟩

omit [Scalar α] in
/-- Both are stopped, or had been stopped before. -/
theorem stop_alike (h : Alike view r q) (reason : Reason) :
    Agree (Alike view) (Alike Unseen) ((stop (σ := σ) reason).exec r) ((stop reason).exec q) := by
  unfold stop
  simp only [Action.exec_bind, Action.exec_get, Action.exec_ofExcept, Action.exec_modify, h.progress]
  cases r.progress.setReason reason with
  | error e => exact .error h.unseen
  | ok p => exact .ok ⟨rfl, h.session, h.observers, h.solver⟩

/-- What is shown of an iteration mentions no more of the memory than the name of the solver. -/
theorem display_alike (hname : ∀ s s', view s' = view s → P.solver.name s' = P.solver.name s)
    (h : Alike view r q) (before : Counts) (notes : Notes α) (isNewBest : Bool) :
    Agree (Alike view) (Alike Unseen) ((display P before notes isNewBest).exec r)
      ((display P before notes isNewBest).exec q) := by
  have hinspect : inspection P before q = inspection P before r := by
    unfold inspection finding
    rw [h.progress, h.session, hname _ _ h.solver]
  rw [exec_display, exec_display, hinspect, h.progress, hname _ _ h.solver]
  cases inspection P before r with
  | error e => exact .error h.unseen
  | ok _ => exact onWatches_alike (h.logged _ _) _

/-- The start of a run. -/
theorem opening_sees (hP : P.solver.Sees view after P.setting) (h : Alike view r q) :
    Agree (Alike after) (Alike Unseen) ((opening P).exec r) ((opening P).exec q) := by
  rw [exec_opening_eq_resume, exec_opening_eq_resume, h.progress]
  refine (hP.init r.progress h.workspace).resume (fun report? w v hwv => ?_) fun w v hwv => ?_
  · have hopened : Alike after (opened r report? w) (opened q report? v) :=
      ⟨by unfold opened; rw [h.progress], hwv.1, h.observers, hwv.2⟩
    rw [hP.nameAfter _ _ hwv.2]
    exact onWatches_alike hopened _
  · exact ⟨rfl, hwv.1, h.observers, rfl⟩

/-- **An iteration.** -/
theorem iterate_sees (hP : P.solver.Sees view after P.setting) (hr : r.progress.reason = .notTerminated)
    (h : Alike after r q) :
    Agree (Alike after) (Alike Unseen) ((iterate P).exec r) ((iterate P).exec q) := by
  rw [exec_iterate_eq_resume P hr, exec_iterate_eq_resume P (by rw [h.progress]; exact hr), h.progress]
  refine (hP.step r.progress h.workspace).resume (fun report w v hwv => ?_) fun w v hwv => ?_
  -- After the step both memories look the same, so that the rest of the iteration is the same as well.
  · unfold rest
    rw [h.progress, h.session]
    have hcounted : Alike after (counted r report w) (counted q report v) :=
      ⟨by rw [counted, counted, h.progress], hwv.1, h.observers, hwv.2⟩
    refine (display_alike hP.nameAfter hcounted _ _ _).resume (fun _ t u htu => ?_) fun _ _ => id
    rw [htu.progress]
    refine (hP.terminate t.progress htu.workspace).resume (fun own x y hxy => ?_) fun x y hxy => ?_
    · refine .ok ⟨?_, hxy.1, htu.observers, hxy.2⟩
      unfold ruled
      rw [htu.progress]
    · exact ⟨rfl, hxy.1, htu.observers, rfl⟩
  · exact ⟨rfl, hwv.1, h.observers, rfl⟩

/-- The loop. -/
theorem iterations_sees (hP : P.solver.Sees view after P.setting) (fuel : Nat)
    (h : Alike after r q) :
    Agree (Alike after) (Alike Unseen) ((iterations P fuel).exec r) ((iterations P fuel).exec q) := by
  induction fuel generalizing r q with
  | zero => exact .ok h
  | succ fuel ih =>
    -- The reason to stop is part of the progress, which both runs share.
    by_cases hr : r.progress.reason = .notTerminated
    · have hq : q.progress.reason = .notTerminated := by rw [h.progress]; exact hr
      have hinterrupt : q.session.host.interrupt = r.session.host.interrupt := by rw [h.session]
      rw [exec_iterations_of_running P fuel hr, exec_iterations_of_running P fuel hq, hinterrupt]
      split
      · exact .ok ⟨by rw [h.progress], h.session, h.observers, h.solver⟩
      · rw [Action.exec_bind_eq_resume, Action.exec_bind_eq_resume]
        exact (iterate_sees hP hr h).resume (fun _ _ _ hnext => ih hnext) fun _ _ => id
    · have hstop := ProgressOn.isTerminated_of_stopped hr
      rw [exec_iterations_of_stopped P _ hstop,
        exec_iterations_of_stopped P _ (by rw [h.progress]; exact hstop)]
      exact .ok h

/-- The body of a run. -/
theorem body_sees (hP : P.solver.Sees view after P.setting) (h : Alike view r q) :
    Agree (Alike after) (Alike Unseen) ((body P).exec r) ((body P).exec q) := by
  rw [body_eq, Action.exec_bind_eq_resume, Action.exec_bind_eq_resume]
  refine (opening_sees hP h).resume (fun _ t u htu => ?_) fun _ _ => id
  simp only [Action.exec_bind, Action.exec_get, htu.progress]
  split
  · exact stop_alike htu _
  · exact iterations_sees hP _ htu

/-- **A whole run** sees of the memory what the initialisation of its solver sees. -/
theorem execute_sees (hP : P.solver.Sees view after P.setting) (h : Alike view r q) :
    Agree (Alike after) (Alike Unseen) ((execute P).exec r) ((execute P).exec q) := by
  have hname := hP.name _ _ h.solver
  have hbegun : Alike view (begun P r) (begun P q) := by
    unfold begun
    rw [hname]
    dsimp only
    split
    · exact (h.logged _ _).receive _
    · exact h.logged _ _
  -- A guard hands back the same interrupt, whatever the body has done.
  have hreleased {ι : Type} {seen : σ → ι} {t u : Run σ ω η α} (htu : Alike seen t u) :
      Alike seen (released P r t) (released P q u) := by
    unfold released
    rw [h.session]
    split
    · exact htu.receive _
    · exact htu
  have hbody := body_sees hP hbegun
  rw [exec_execute, exec_execute]
  generalize (body P).exec (begun P r) = x at hbody
  generalize (body P).exec (begun P q) = y at hbody
  cases hbody with
  | ok htu =>
    refine .ok ?_
    unfold finished
    rw [hname, htu.progress]
    exact (hreleased htu).logged _ _
  | error htu =>
    refine .error ?_
    unfold aborted
    rw [hname, htu.progress]
    split
    · exact (hreleased htu).logged _ _
    · exact hreleased htu

/-- **A run inside a step.** -/
theorem nested_sees {S : Solver σ ω α} {A : Setting ω α} (hS : S.Sees view after A)
    (start : RunConfig α → Progress α) : Sees view after (nested S A start) := by
  have hinner : Sees view after (inner S A start) := by
    intro w v hwv
    have hrun := execute_sees (P := nestedPlan S A) hS
      (r := ⟨start (nestedPlan S A).config, w.solver, w.session, []⟩)
      (q := ⟨start (nestedPlan S A).config, v.solver, v.session, []⟩) ⟨rfl, hwv.1, rfl, hwv.2⟩
    rw [exec_inner_eq_resume, exec_inner_eq_resume]
    refine hrun.resume (fun _ t u htu => ?_) fun t u htu => ⟨htu.session, rfl⟩
    rw [htu.progress]
    exact .ok ⟨htu.session, htu.solver⟩
  rw [nested_eq]
  exact hinner.nested

end Run

end Minimization
