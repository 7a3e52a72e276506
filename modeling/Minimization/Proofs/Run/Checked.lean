import Minimization.Proofs.Counts.Recording
import Minimization.Proofs.Run.Finished

namespace Minimization

/-!
# Runs that check themselves

In debug mode a run looks at its cost and at its counters after every iteration, and so do the runs
inside its steps.  Where the checks find nothing they leave no trace.

* `Action.Provided` — one computation succeeds as another one does, under a condition.
* `Plan.checked` — the plan in debug mode.
* `Run.Numbered` — after no iteration of a run its cost is other than a number.
* `Run.iterate_checked_iff` — an iteration in debug mode.
* `Run.Checkable` — what is asked of the parts of a plan; `goes_of_checked`, `checked_of_goes` — then
  many iterations are made in debug mode if the checks find nothing.
* `Run.Checkable.execute_checked_iff` — **a run in debug mode** returns exactly if it does without, its
  cost is a number after every iteration, and its steps succeed in debug mode.
* `Run.nested_provided` — the run inside a step.
-/

variable {σ τ ω η α β γ : Type}

/-! ### Computations that succeed in the same way -/

/-- From `s` on `m'` succeeds exactly if `m` does and `C` holds, and then in the same way. -/
def Action.Provided (m m' : Action σ α β) (s : σ) (C : Prop) : Prop :=
  ∀ b t, m'.exec s = (.ok b, t) ↔ m.exec s = (.ok b, t) ∧ C

namespace Action.Provided

variable {m m' : Action σ α β} {s : σ} {C D : Prop}

theorem refl (m : Action σ α β) (s : σ) : Provided m m s True :=
  fun _ _ => (and_iff_left trivial).symm

theorem of_eq (h : m' = m) : Provided m m' s True := h ▸ refl m' s

/-- The condition matters where the computation succeeds. -/
theorem congr (h : Provided m m' s C) (hC : ∀ b t, m.exec s = (.ok b, t) → (C ↔ D)) :
    Provided m m' s D := by
  intro b t
  rw [h b t]
  exact and_congr_right fun hm => hC b t hm

/-- What comes second is asked for its condition only where what comes first has succeeded. -/
theorem bind {f f' : β → Action σ α γ} {D : β → σ → Prop} (hm : Provided m m' s C)
    (hf : ∀ b t, m.exec s = (.ok b, t) → Provided (f b) (f' b) t (D b t)) :
    Provided (m >>= f) (m' >>= f') s (C ∧ ∀ b t, m.exec s = (.ok b, t) → D b t) := by
  intro c u
  rw [exec_bind_eq_ok_iff, exec_bind_eq_ok_iff]
  -- The condition of the second part speaks of every first part, of which there is only one.
  constructor
  · rintro ⟨b, t, hfirst, hsecond⟩
    obtain ⟨hfirst, hC⟩ := (hm b t).1 hfirst
    obtain ⟨hsecond, hD⟩ := (hf b t hfirst c u).1 hsecond
    refine ⟨⟨b, t, hfirst, hsecond⟩, hC, fun b' t' hfirst' => ?_⟩
    obtain ⟨hb, rfl⟩ := Prod.mk.inj (hfirst.symm.trans hfirst')
    obtain rfl := Except.ok.inj hb
    exact hD
  · rintro ⟨⟨b, t, hfirst, hsecond⟩, hC, hD⟩
    exact ⟨b, t, (hm b t).2 ⟨hfirst, hC⟩, (hf b t hfirst c u).2 ⟨hsecond, hD b t hfirst⟩⟩

/-- What comes first may have a condition. -/
theorem bind_first {f : β → Action σ α γ} (hm : Provided m m' s C) :
    Provided (m >>= f) (m' >>= f) s C :=
  (hm.bind fun b t _ => refl (f b) t).congr fun _ _ _ => and_iff_left fun _ _ _ => trivial

/-- What comes second may have one. -/
theorem bind_second {f f' : β → Action σ α γ} {D : β → σ → Prop}
    (hf : ∀ b t, m.exec s = (.ok b, t) → Provided (f b) (f' b) t (D b t)) :
    Provided (m >>= f) (m >>= f') s (∀ b t, m.exec s = (.ok b, t) → D b t) :=
  ((refl m s).bind hf).congr fun _ _ _ => and_iff_right trivial

/-- What comes second need not have one. -/
theorem bind_always {f f' : β → Action σ α γ} (hf : ∀ b t, Provided (f b) (f' b) t True) :
    Provided (m >>= f) (m >>= f') s True :=
  (bind_second fun b t _ => hf b t).congr fun _ _ _ => ⟨fun _ => trivial, fun _ _ _ _ => trivial⟩

/-- On a part of the state. -/
theorem focus {get : τ → σ} {set : σ → τ → τ} {x : τ} (h : Provided m m' (get x) C) :
    Provided (m.focus get set) (m'.focus get set) x C := by
  intro b y
  simp only [exec_focus, Prod.mk.injEq]
  constructor
  · rintro ⟨hok, rfl⟩
    obtain ⟨hm, hC⟩ := (h b _).1 (Prod.ext hok rfl)
    rw [hm]
    exact ⟨⟨rfl, rfl⟩, hC⟩
  · rintro ⟨⟨hok, rfl⟩, hC⟩
    rw [(h b _).2 ⟨Prod.ext hok rfl, hC⟩]
    exact ⟨rfl, rfl⟩

end Action.Provided

/-! ### Debug mode -/

/-- The setting in debug mode. -/
def Setting.checked (A : Setting ω α) : Setting ω α := { A with debug := true }

/-- The plan in debug mode. -/
def Plan.checked (P : Plan σ ω η α) : Plan σ ω η α := { P with setting := P.setting.checked }

namespace Run

variable [Scalar α] {P : Plan σ ω η α} {r t t' u : Run σ ω η α} {C : Prop} {n : ℕ}

/-- The run completes an iteration after `n` others. -/
def Completes (P : Plan σ ω η α) (r : Run σ ω η α) (n : ℕ) : Prop :=
  ¬ r.progress.maxIters = 0 ∧ Goes P r (n + 1)

/-- After every iteration that the run completes its cost is a number. -/
def Numbered (P : Plan σ ω η α) (r : Run σ ω η α) : Prop :=
  ∀ n, Completes P r n → Scalar.isNaN (stateAfter P r (n + 1)).progress.cost = false

/-- The checks find nothing if the cost is a number and no counter has decreased. -/
theorem finding_eq_ok_iff (S : Solver σ ω α) (before : Counts) (r : Run σ ω η α) :
    finding S before r = .ok () ↔ Scalar.isNaN r.progress.cost = false ∧
      Counts.decreased? before r.session.counts = none := by
  unfold finding
  by_cases hnan : Scalar.isNaN r.progress.cost = true
  · simp [hnan]
  · rw [Bool.not_eq_true] at hnan
    cases Counts.decreased? before r.session.counts <;> simp [hnan]

/-- What is shown of an iteration in debug mode. -/
theorem display_checked_iff (hP : P.setting.debug = false) (before : Counts) (notes : Notes α)
    (isNewBest : Bool) (shown : Run σ ω η α) :
    (display P.checked before notes isNewBest).exec t = (.ok (), shown) ↔
      (display P before notes isNewBest).exec t = (.ok (), shown) ∧
        finding P.solver before t = .ok () := by
  have hoff : inspection P before t = .ok () := by
    unfold inspection
    rw [hP]
    rfl
  have hon : inspection P.checked before t = finding P.solver before t := rfl
  rw [exec_display, exec_display, hoff, hon]
  cases finding P.solver before t with
  | error e => simp
  | ok _ => exact (and_iff_left rfl).symm

/-- **An iteration in debug mode** succeeds exactly if it does without, its step succeeds in debug mode,
    and it leaves a cost that is a number. -/
theorem iterate_checked_iff (hP : P.setting.debug = false)
    (ht : t.progress.reason = .notTerminated)
    (hstep : (P.solver.step P.setting t.progress).Provided
      (P.solver.step P.setting.checked t.progress) ⟨t.solver, t.session⟩ C)
    (hgrows : ∀ report w, (P.solver.step P.setting t.progress).exec ⟨t.solver, t.session⟩ =
      (.ok report, w) → ∃ d, w.session.counts = t.session.counts + d) :
    (iterate P.checked).exec t = (.ok (), t') ↔
      (iterate P).exec t = (.ok (), t') ∧ C ∧ Scalar.isNaN t'.progress.cost = false := by
  -- Of the two checks, counters that only grow never fail, and the cost is a number or is not.
  have hfound {report : Report α} {w : Workspace σ ω} {shown : Run σ ω η α} {own : Reason}
      {v : Workspace σ ω} (hexec : (P.solver.step P.setting t.progress).exec ⟨t.solver, t.session⟩ =
        (.ok report, w))
      (hshow : (display P t.session.counts report.notes (t.progress.update report).2).exec
        (counted t report w) = (.ok (), shown)) :
      finding P.solver t.session.counts (counted t report w) = .ok () ↔
        Scalar.isNaN (ruled P.config shown own v).progress.cost = false := by
    have hcost : (ruled P.config shown own v).progress.cost = (counted t report w).progress.cost :=
      congrArg (·.cost) (display_frame hshow).progress
    obtain ⟨d, hd⟩ := hgrows report w hexec
    have hcounts : (counted t report w).session.counts = t.session.counts + d := hd
    rw [finding_eq_ok_iff, hcost, hcounts]
    exact and_iff_left (Counts.decreased?_add _ _)
  rw [iterate_ok_iff P.checked ht, iterate_ok_iff P ht]
  constructor
  · rintro ⟨report, w, shown, own, v, hexec, hshow, hown, rfl⟩
    obtain ⟨hexec, hC⟩ := (hstep report w).1 hexec
    obtain ⟨hshow, hfinding⟩ := (display_checked_iff hP ..).1 hshow
    exact ⟨⟨report, w, shown, own, v, hexec, hshow, hown, rfl⟩, hC, (hfound hexec hshow).1 hfinding⟩
  · rintro ⟨⟨report, w, shown, own, v, hexec, hshow, hown, rfl⟩, hC, hnumber⟩
    exact ⟨report, w, shown, own, v, (hstep report w).2 ⟨hexec, hC⟩,
      (display_checked_iff hP ..).2 ⟨hshow, (hfound hexec hshow).2 hnumber⟩, hown, rfl⟩

/-- What is asked of the parts of a plan: `C` is the condition under which the step from a state
    succeeds in debug mode. -/
structure Checkable (P : Plan σ ω η α) (r : Run σ ω η α) (C : Run σ ω η α → Prop) : Prop where
  unchecked : P.setting.debug = false
  init : ∀ p, P.solver.init P.setting.checked p = P.solver.init P.setting p
  step : ∀ n, Goes P r n → (P.solver.step P.setting (stateAfter P r n).progress).Provided
    (P.solver.step P.setting.checked (stateAfter P r n).progress)
    ⟨(stateAfter P r n).solver, (stateAfter P r n).session⟩ (C (stateAfter P r n))
  grows : ∀ n, Goes P r n → ∀ report w, (P.solver.step P.setting (stateAfter P r n).progress).exec
      ⟨(stateAfter P r n).solver, (stateAfter P r n).session⟩ = (.ok report, w) →
    ∃ d, w.session.counts = (stateAfter P r n).session.counts + d

namespace Checkable

variable {C : Run σ ω η α → Prop}

/-- The start is not checked. -/
theorem opening_eq (h : Checkable P r C) (t : Run σ ω η α) :
    (opening P.checked).exec t = (opening P).exec t := by
  rw [exec_opening, exec_opening]
  have hinit : P.checked.solver.init P.checked.setting t.progress =
      P.solver.init P.setting t.progress := h.init _
  rw [hinit]
  rfl

theorem stateAfter_zero (h : Checkable P r C) : stateAfter P.checked r 0 = stateAfter P r 0 :=
  congrArg Prod.snd (h.opening_eq (begun P r))

/-- What the checks find in the first `n` iterations of a run: nothing. -/
def Clear (P : Plan σ ω η α) (r : Run σ ω η α) (C : Run σ ω η α → Prop) (n : ℕ) : Prop :=
  ∀ k < n, C (stateAfter P r k) ∧ Scalar.isNaN (stateAfter P r (k + 1)).progress.cost = false

theorem Clear.mono {k : ℕ} (h : Clear P r C n) (hk : k ≤ n) : Clear P r C k :=
  fun i hi => h i (hi.trans_le hk)

/-- **Many iterations in debug mode** are made without it as well, and the checks find nothing. -/
theorem goes_of_checked (h : Checkable P r C) (hn : Goes P.checked r n) :
    Goes P r n ∧ Clear P r C n ∧ stateAfter P.checked r n = stateAfter P r n := by
  induction n with
  -- Step by step the checked run is at the same state as the plain one.
  | zero =>
    refine ⟨.zero ?_, fun k hk => absurd hk (Nat.not_lt_zero k), h.stateAfter_zero⟩
    rw [← h.opening_eq]
    exact hn.opens
  | succ n ih =>
    have hlast := Nat.lt_succ_self n
    obtain ⟨hgoes, hclear, hstate⟩ := ih (hn.mono (Nat.le_succ n))
    have hgo := hn.running n hlast
    have hi := hn.undisturbed n hlast
    have hit := hn.iterate_eq hlast
    rw [hstate] at hgo hi hit
    obtain ⟨hit, hC, hnumber⟩ :=
      (iterate_checked_iff h.unchecked hgo (h.step n hgoes) (h.grows n hgoes)).1 hit
    have hnext : stateAfter P r (n + 1) = stateAfter P.checked r (n + 1) := by
      show ((iterate P).exec (stateAfter P r n)).2 = _
      rw [hit]
    refine ⟨hgoes.next hgo hi (by rw [hit]; rfl), fun k hk => ?_, hnext.symm⟩
    obtain hlt | rfl := Nat.lt_succ_iff_lt_or_eq.1 hk
    · exact hclear k hlt
    · rw [hnext]
      exact ⟨hC, hnumber⟩

/-- Where the checks find nothing, the iterations are made in debug mode. -/
theorem checked_of_goes (h : Checkable P r C) (hn : Goes P r n) (hclear : Clear P r C n) :
    Goes P.checked r n := by
  -- The converse needs that the iterations are clear, and the states are the same by the lemma above.
  induction n with
  | zero =>
    refine .zero ?_
    have hopens := h.opening_eq (begun P r)
    rw [hn.opening_eq] at hopens
    exact congrArg (fun x => x.1.isOk) hopens
  | succ n ih =>
    have hlast := Nat.lt_succ_self n
    have hchecked := ih (hn.mono (Nat.le_succ n)) (hclear.mono (Nat.le_succ n))
    have hstate := (h.goes_of_checked hchecked).2.2
    have hgoes := hn.mono (Nat.le_succ n)
    have hgo := hn.running n hlast
    have hit := (iterate_checked_iff h.unchecked hgo (h.step n hgoes) (h.grows n hgoes)).2
      ⟨hn.iterate_eq hlast, hclear n hlast⟩
    rw [← hstate] at hgo hit
    refine hchecked.next hgo ?_ (by rw [hit]; rfl)
    rw [hstate]
    exact hn.undisturbed n hlast

/-- In front of an iteration that is not made debug mode makes no difference. -/
theorem halts_checked_iff : Halts P.checked t (.ok (), u) ↔ Halts P t (.ok (), u) := by
  rw [halts_ok_iff, halts_ok_iff]
  rfl

/-- **A run in debug mode** returns exactly if it does without debug mode, and the checks find nothing
    after any iteration; it then ends in the same state. -/
theorem execute_checked_iff (h : Checkable P r C) :
    (execute P.checked).exec r = (.ok (), u) ↔ (execute P).exec r = (.ok (), u) ∧
      Numbered P r ∧ ∀ n, Completes P r n → C (stateAfter P r n) := by
  have hend (t : Run σ ω η α) : finished P.checked r t = finished P r t := rfl
  rw [execute_ok_iff, execute_ok_iff]
  constructor
  · rintro ⟨t, hbody, rfl⟩
    obtain ⟨hzero, hcap, hstop⟩ | ⟨n, hn, hcap, hhalts⟩ := body_ok_cases hbody
    · obtain ⟨hplain, -, hstate⟩ := h.goes_of_checked hzero
      rw [hstate, ← hplain.body_of_barred hcap] at hstop
      exact ⟨⟨t, hstop, hend t⟩, fun k hk => absurd hcap hk.1, fun k hk => absurd hcap hk.1⟩
    · -- Without debug mode the run halts after the same iterations.
      obtain ⟨hplain, hclear, hstate⟩ := h.goes_of_checked hn
      rw [hstate, halts_checked_iff] at hhalts
      have hfound (k : ℕ) (hk : Completes P r k) := hclear k (hk.2.le_of_halts hhalts)
      exact ⟨⟨t, hplain.body_eq hcap hhalts, hend t⟩, fun k hk => (hfound k hk).2,
        fun k hk => (hfound k hk).1⟩
  · rintro ⟨⟨t, hbody, rfl⟩, hnumbered, hC⟩
    refine ⟨t, ?_, (hend t).symm⟩
    obtain ⟨hzero, hcap, hstop⟩ | ⟨n, hn, hcap, hhalts⟩ := body_ok_cases hbody
    · have hchecked := h.checked_of_goes hzero fun k hk => absurd hk (Nat.not_lt_zero k)
      rw [hchecked.body_of_barred hcap, h.stateAfter_zero]
      exact hstop
    · have hclear : Clear P r C n := fun k hk =>
        ⟨hC k ⟨hcap, hn.mono hk⟩, hnumbered k ⟨hcap, hn.mono hk⟩⟩
      have hchecked := h.checked_of_goes hn hclear
      refine hchecked.body_eq hcap ?_
      rw [(h.goes_of_checked hchecked).2.2, halts_checked_iff]
      exact hhalts

end Checkable

/-! ### Runs inside a step -/

variable {S : Solver σ ω α} {A : Setting ω α} {start : RunConfig α → Progress α}
  {w v : Workspace σ ω}

/-- The run inside a step, with counts of its own. -/
def inside (S : Solver σ ω α) (A : Setting ω α) (start : RunConfig α → Progress α)
    (w : Workspace σ ω) : Run σ ω Empty α :=
  ⟨start (nestedPlan S A).config, w.solver, { w.session with counts := .zero }, []⟩

/-- It is a step that succeeds if the run returns. -/
theorem nested_ok_iff {p : Progress α} : (nested S A start).exec w = (.ok p, v) ↔
    ∃ q, (execute (nestedPlan S A)).exec (inside S A start w) = (.ok (), q) ∧ q.progress = p ∧
      (⟨q.solver, { q.session with counts := w.session.counts + q.session.counts }⟩ :
        Workspace σ ω) = v := by
  have hinside : inside S A start w = ⟨start (nestedPlan S A).config,
    (w.withCounts .zero).solver, (w.withCounts .zero).session, []⟩ := rfl
  rw [nested_eq, hinside]
  unfold Workspace.nested inner
  rw [Action.exec_ofFun, Action.exec_ofFun]
  -- The nested run starts from the same state under both names.
  rcases (execute (nestedPlan S A)).exec ⟨start (nestedPlan S A).config, (w.withCounts .zero).solver,
    (w.withCounts .zero).session, []⟩ with ⟨e | _, q⟩
  · simp
  · constructor
    · intro h
      obtain ⟨hp, hv⟩ := Prod.mk.inj h
      exact ⟨q, rfl, Except.ok.inj hp, hv⟩
    · rintro ⟨_, hq, rfl, rfl⟩
      obtain rfl := (Prod.mk.inj hq).2
      rfl

/-- **The run inside a step** of a solver that runs no other one is checked for its costs only. -/
theorem nested_provided {S' : Solver σ (ω × Counts) α} (hA : A.debug = false)
    (hS : ∀ n c, S.Follows ((ledger n c).workspace σ) A A.recording S')
    (hinit : ∀ p, S.init A.checked p = S.init A p) (hstep : ∀ p, S.step A.checked p = S.step A p)
    (start : RunConfig α → Progress α) (w : Workspace σ ω) :
    (nested S A start).Provided (nested S A.checked start) w
      (Numbered (nestedPlan S A) (inside S A start w)) := by
  have hchecked : Checkable (nestedPlan S A) (inside S A start w) fun _ => True := {
    unchecked := hA
    init := hinit
    step := fun n _ => .of_eq (hstep _)
    grows := fun n _ report v h => Solver.step_grows hS h }
  intro p v
  have hplan : nestedPlan S A.checked = (nestedPlan S A).checked := rfl
  have hinside : inside S A.checked start w = inside S A start w := rfl
  rw [nested_ok_iff, nested_ok_iff, hplan, hinside]
  constructor
  · rintro ⟨q, hq, hp, hv⟩
    obtain ⟨hplain, hnumbered, -⟩ := hchecked.execute_checked_iff.1 hq
    exact ⟨⟨q, hplain, hp, hv⟩, hnumbered⟩
  · rintro ⟨⟨q, hplain, hp, hv⟩, hnumbered⟩
    exact ⟨q, hchecked.execute_checked_iff.2 ⟨hplain, hnumbered, fun _ _ => trivial⟩, hp, hv⟩

end Run

end Minimization
