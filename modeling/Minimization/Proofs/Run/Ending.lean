import Minimization.Proofs.Contract.Run

namespace Minimization.Run

open Minimization

/-!
# How a call ends

A call of `execute` starts the run, makes some iterations and ends in front of the next one, or it
does not even get there.  The iterations are those of `stateAfter`, so that what a whole call does
is told by the iterations alone.

* `opening_reports` — what the start leaves.
* `Goes.iter_eq`, `Goes.not_full` — a run counts its iterations, and makes at most one more once it
  has as many as it may have.
* `Halts` — why there is no next iteration: the run has stopped, the user has asked it to, or the
  iteration fails.
* `Fate` — how the body of a call ends; `body_fate` — it ends in one of these ways.
* `Goes.body_eq` — which way it is can be told from the iterations.
* `execute_error_iff`, `execute_progress`, `aborted_course`, `exists_stopped_of_ok` — how the whole call
  ends.
-/

variable {σ ω η α : Type} [Scalar α] {P : Plan σ ω η α} {r : Run σ ω η α} {n : ℕ}

/-! ### The start of a call -/

/-- **What the start of a run leaves**: the solver has been initialised, and what it reports has been
    merged.  Observers leave no trace in it. -/
theorem opening_reports {t : Run σ ω η α} (h : (opening P).exec r = (.ok (), t)) :
    ∃ report? w, (P.solver.init P.setting r.progress).exec ⟨r.solver, r.session⟩ =
      (.ok report?, w) ∧ SameCourse (opened r report? w) t := by
  rw [exec_opening] at h
  rcases hinit : (P.solver.init P.setting r.progress).exec ⟨r.solver, r.session⟩ with
    ⟨_ | report?, w⟩
  · simp [hinit] at h
  · simp only [hinit, exec_onWatches] at h
    obtain ⟨-, rfl⟩ := Prod.mk.inj h
    exact ⟨report?, w, rfl, rfl, rfl, rfl, rfl⟩

omit [Scalar α] in
/-- A call begins with the progress, the memory and the counts that it finds. -/
theorem begun_course (P : Plan σ ω η α) (r : Run σ ω η α) :
    (begun P r).progress = r.progress ∧ (begun P r).solver = r.solver ∧
      (begun P r).session.counts = r.session.counts := by
  unfold begun
  by_cases hg : P.config.guarded <;> simp only [hg] <;> exact ⟨rfl, rfl, rfl⟩

/-! ### The iterations of a call -/

/-- The progress after an iteration, as far as it does not depend on the report. -/
theorem iter_iterate {t : Run σ ω η α} (ht : t.progress.reason = .notTerminated) :
    ((iterate P).exec t).2.progress.iter = t.progress.iter +
        (if ((P.solver.step P.setting t.progress).exec ⟨t.solver, t.session⟩).1.isOk then 1 else 0) ∧
      ((iterate P).exec t).2.progress.maxIters = t.progress.maxIters := by
  rcases hit : (iterate P).exec t with ⟨e | _, u⟩
  · obtain ⟨w, hstep, rfl⟩ | ⟨report, w, hstep, hshow | ⟨shown, v, hshow, -, rfl⟩⟩ :=
      iterate_error_cases P ht hit
    · simp [hstep, Except.isOk, Except.toBool]
    · simp [hstep, (display_frame hshow).progress, counted, Except.isOk, Except.toBool]
    · simp [hstep, (display_frame hshow).progress, counted, Except.isOk, Except.toBool]
  · obtain ⟨report, w, shown, own, v, hstep, hshow, -, rfl⟩ := (iterate_ok_iff P ht).1 hit
    simp [hstep, ruled, (display_frame hshow).progress, counted, Except.isOk, Except.toBool]

/-- After an iteration at the cap or beyond it the run has stopped. -/
theorem stopped_of_iterate_full {t u : Run σ ω η α} (ht : t.progress.reason = .notTerminated)
    (h : (iterate P).exec t = (.ok (), u)) (hfull : t.progress.maxIters ≤ t.progress.iter + 1) :
    ¬ u.progress.reason = .notTerminated := by
  obtain ⟨report, w, own, session, v, -, -, hprogress, -⟩ := iterate_reports P ht h
  rw [hprogress]
  intro hreason
  have hbelow := (of_ruling_eq_running hreason).2
  simp only [ProgressOn.iter_increment, ProgressOn.iter_update, ProgressOn.maxIters_increment,
    ProgressOn.maxIters_update] at hbelow
  push_cast at hbelow
  omega

namespace Goes

/-- A run that has made some iterations had made fewer before. -/
theorem mono {k : ℕ} (h : Goes P r n) (hk : k ≤ n) : Goes P r k :=
  ⟨h.opens, fun i hi => h.running i (by omega), fun i hi => h.undisturbed i (by omega),
    fun i hi => h.succeeds i (by omega)⟩

/-- A run whose start succeeds makes no iteration at first. -/
theorem zero (h : ((opening P).exec (begun P r)).1.isOk = true) : Goes P r 0 where
  opens := h
  running _ hi := absurd hi (Nat.not_lt_zero _)
  undisturbed _ hi := absurd hi (Nat.not_lt_zero _)
  succeeds _ hi := absurd hi (Nat.not_lt_zero _)

/-- It makes another one if it has not stopped, nobody has asked it to, and the iteration succeeds. -/
theorem next (h : Goes P r n) (hgo : (stateAfter P r n).progress.reason = .notTerminated)
    (hi : raised P.config (stateAfter P r n).session.host.interrupt = false)
    (hok : ((iterate P).exec (stateAfter P r n)).1.isOk = true) : Goes P r (n + 1) where
  opens := h.opens
  running i hin := by
    -- For earlier iterations this is known; the last one is given.
    obtain hlt | rfl := Nat.lt_succ_iff_lt_or_eq.1 hin
    · exact h.running i hlt
    · exact hgo
  undisturbed i hin := by
    obtain hlt | rfl := Nat.lt_succ_iff_lt_or_eq.1 hin
    · exact h.undisturbed i hlt
    · exact hi
  succeeds i hin := by
    obtain hlt | rfl := Nat.lt_succ_iff_lt_or_eq.1 hin
    · exact h.succeeds i hlt
    · exact hok

/-- Its start has led to its first state. -/
theorem opening_eq (h : Goes P r n) :
    (opening P).exec (begun P r) = (.ok (), stateAfter P r 0) :=
  Action.exec_eq_of_isOk h.opens

/-- Every iteration leads from one of its states to the next. -/
theorem iterate_eq {i : ℕ} (h : Goes P r n) (hi : i < n) :
    (iterate P).exec (stateAfter P r i) = (.ok (), stateAfter P r (i + 1)) :=
  Action.exec_eq_of_isOk (h.succeeds i hi)

/-- The start does not iterate. -/
theorem progress_zero (h : Goes P r n) :
    (stateAfter P r 0).progress.iter = r.progress.iter ∧
      (stateAfter P r 0).progress.maxIters = r.progress.maxIters ∧
      (stateAfter P r 0).progress.reason = r.progress.reason := by
  have hopen := opening_progress h.opening_eq
  rwa [begun_progress] at hopen

/-- The cap stays. -/
theorem maxIters_eq (h : Goes P r n) :
    (stateAfter P r n).progress.maxIters = r.progress.maxIters := by
  induction n with
  | zero => exact h.progress_zero.2.1
  | succ n ih =>
    rw [← ih (h.mono (Nat.le_succ n))]
    exact (iter_iterate (h.running n (Nat.lt_succ_self n))).2

/-- Every iteration is counted. -/
theorem iter_eq (h : Goes P r n) : (stateAfter P r n).progress.iter = r.progress.iter + n := by
  induction n with
  | zero => exact h.progress_zero.1
  | succ n ih =>
    have hlast := Nat.lt_succ_self n
    obtain ⟨report, w, shown, own, v, hstep, -⟩ :=
      (iterate_ok_iff P (h.running n hlast)).1 (h.iterate_eq hlast)
    have hiter := (iter_iterate (P := P) (h.running n hlast)).1
    rw [hstep, ih (h.mono (Nat.le_succ n))] at hiter
    exact hiter

/-- After the last iteration that the cap allows the run has stopped. -/
theorem not_full (h : Goes P r n) (hpos : 0 < n)
    (hgo : (stateAfter P r n).progress.reason = .notTerminated) :
    ((r.progress.iter + n : ℕ) : ℤ) < r.progress.maxIters := by
  by_contra hfull
  obtain ⟨k, rfl⟩ := Nat.exists_eq_add_one.2 hpos
  have hk := h.mono (Nat.le_succ k)
  refine stopped_of_iterate_full (h.running k (Nat.lt_succ_self k))
    (h.iterate_eq (Nat.lt_succ_self k)) ?_ hgo
  rw [hk.maxIters_eq, hk.iter_eq]
  push_cast at hfull ⊢
  omega

/-- No more iterations follow each other than the loop has fuel for. -/
theorem le_iterationsLeft (h : Goes P r n) : n ≤ iterationsLeft r.progress := by
  unfold iterationsLeft
  obtain _ | k := n
  · omega
  obtain rfl | hpos := Nat.eq_zero_or_pos k
  · omega
  have hlast := (h.mono (Nat.le_succ k)).not_full hpos (h.running k (Nat.lt_succ_self k))
  push_cast at hlast
  omega

end Goes

/-- Every state that a run reaches is one of those that can be computed. -/
theorem Reached.exists_goes {t : Run σ ω η α} (h : Reached P r t) :
    ∃ n, Goes P r n ∧ t = stateAfter P r n := by
  induction h with
  | opened h => exact ⟨0, .zero (by rw [h]; rfl), congrArg Prod.snd h.symm⟩
  | iterated ht hgo hi h ih =>
    obtain ⟨n, hn, rfl⟩ := ih
    exact ⟨n + 1, hn.next hgo hi (by rw [h]; rfl), congrArg Prod.snd h.symm⟩

/-! ### In front of the next iteration -/

/-- How the loop ends in front of an iteration from `t`. -/
inductive Halts (P : Plan σ ω η α) (t : Run σ ω η α) :
    Except (Failure α) Unit × Run σ ω η α → Prop
  /-- The run has stopped. -/
  | stopped (h : ¬ t.progress.reason = .notTerminated) : Halts P t (.ok (), t)
  /-- The user has asked it to stop. -/
  | interrupted (hgo : t.progress.reason = .notTerminated)
      (hi : raised P.config t.session.host.interrupt = true) :
      Halts P t (.ok (), { t with progress := { t.progress with reason := .keyboardInterrupt } })
  /-- The iteration fails. -/
  | failed {e : Failure α} {u : Run σ ω η α} (hgo : t.progress.reason = .notTerminated)
      (hi : raised P.config t.session.host.interrupt = false)
      (h : (iterate P).exec t = (.error e, u)) : Halts P t (.error e, u)

/-- The loop ends in front of an iteration, or its fuel runs out. -/
theorem iterations_halts (fuel k : ℕ) (hk : Goes P r k) :
    ∃ n ≤ k + fuel, Goes P r n ∧
      (Halts P (stateAfter P r n) ((iterations P fuel).exec (stateAfter P r k)) ∨
        n = k + fuel ∧ (iterations P fuel).exec (stateAfter P r k) = (.ok (), stateAfter P r n)) := by
  -- On the fuel; the loop stands in front of iteration `k`.
  induction fuel generalizing k with
  | zero => exact ⟨k, le_rfl, hk, .inr ⟨rfl, rfl⟩⟩
  | succ fuel ih =>
    by_cases hgo : (stateAfter P r k).progress.reason = .notTerminated
    · rw [exec_iterations_of_running P fuel hgo]
      by_cases hi : raised P.config (stateAfter P r k).session.host.interrupt
      · rw [if_pos hi]
        exact ⟨k, by omega, hk, .inl (.interrupted hgo hi)⟩
      · rw [if_neg hi, Action.exec_bind]
        rw [Bool.not_eq_true] at hi
        rcases hit : (iterate P).exec (stateAfter P r k) with ⟨e | _, u⟩
        · exact ⟨k, by omega, hk, .inl (.failed hgo hi hit)⟩
        · have hnext : Goes P r (k + 1) := hk.next hgo hi (by rw [hit]; rfl)
          obtain rfl : stateAfter P r (k + 1) = u := congrArg Prod.snd hit
          obtain ⟨n, hn, hgoes, hhalts | ⟨rfl, hend⟩⟩ := ih (k + 1) hnext
          · exact ⟨n, by omega, hgoes, .inl hhalts⟩
          · exact ⟨_, by omega, hgoes, .inr ⟨by omega, hend⟩⟩
    · rw [exec_iterations_of_stopped P _ (ProgressOn.isTerminated_of_stopped hgo)]
      exact ⟨k, by omega, hk, .inl (.stopped hgo)⟩

/-- How the body of a call ends. -/
inductive Fate (P : Plan σ ω η α) (r : Run σ ω η α) :
    Except (Failure α) Unit × Run σ ω η α → Prop
  /-- The start fails. -/
  | unopened {e : Failure α} {t : Run σ ω η α}
      (h : (opening P).exec (begun P r) = (.error e, t)) : Fate P r (.error e, t)
  /-- The cap is zero, so that there is no iteration at all. -/
  | barred (h : Goes P r 0) (hcap : r.progress.maxIters = 0) :
      Fate P r ((stop .maxIters).exec (stateAfter P r 0))
  /-- The loop ends in front of an iteration. -/
  | halted {n : ℕ} {x : Except (Failure α) Unit × Run σ ω η α} (h : Goes P r n)
      (hcap : ¬ r.progress.maxIters = 0) (hx : Halts P (stateAfter P r n) x) : Fate P r x

/-- **The body of a call** ends in one of these ways, whatever state it starts from. -/
theorem body_fate (P : Plan σ ω η α) (r : Run σ ω η α) : Fate P r ((body P).exec (begun P r)) := by
  rw [body_eq, Action.exec_bind]
  rcases hopen : (opening P).exec (begun P r) with ⟨e | _, t⟩
  · exact .unopened hopen
  have hzero : Goes P r 0 := .zero (by rw [hopen]; rfl)
  obtain rfl : stateAfter P r 0 = t := congrArg Prod.snd hopen
  simp only [Action.exec_bind, Action.exec_get]
  obtain ⟨hiter, hmax, -⟩ := hzero.progress_zero
  split
  · next hcap => exact .barred hzero (by rw [← hmax]; exact hcap)
  · next hcap =>
    obtain ⟨n, -, hgoes, hhalts | ⟨hn, hend⟩⟩ := iterations_halts
      (iterationsLeft (stateAfter P r 0).progress) 0 hzero
    · exact .halted hgoes (by rw [← hmax]; exact hcap) hhalts
    · -- When the fuel is used up, the run is at its cap and has stopped.
      have hleft : iterationsLeft (stateAfter P r 0).progress = iterationsLeft r.progress := by
        unfold iterationsLeft
        rw [hiter, hmax]
      have hpos : 0 < n := by
        unfold iterationsLeft at hn
        omega
      rw [hend]
      refine .halted hgoes (by rw [← hmax]; exact hcap) (.stopped fun hgo => ?_)
      have hlast := hgoes.not_full hpos hgo
      rw [hleft] at hn
      unfold iterationsLeft at hn
      push_cast at hlast
      omega

/-! ### Which way it is -/

/-- The loop ends in one way only. -/
theorem Halts.unique {t : Run σ ω η α} {x y : Except (Failure α) Unit × Run σ ω η α}
    (hx : Halts P t x) (hy : Halts P t y) : x = y := by
  -- One way to halt excludes the others: the reason, the interrupt and the outcome decide.
  cases hx with
  | stopped h =>
    cases hy with
    | stopped => rfl
    | interrupted hgo => exact absurd hgo h
    | failed hgo => exact absurd hgo h
  | interrupted hgo hi =>
    cases hy with
    | stopped h => exact absurd hgo h
    | interrupted => rfl
    | failed _ hi' => simp [hi] at hi'
  | failed hgo hi h =>
    cases hy with
    | stopped h => exact absurd hgo h
    | interrupted _ hi' => simp [hi] at hi'
    | failed _ _ h' => exact h.symm.trans h'

/-- A run does not go on where the loop ends. -/
theorem Goes.le_of_halts {k : ℕ} {x : Except (Failure α) Unit × Run σ ω η α} (h : Goes P r n)
    (hx : Halts P (stateAfter P r k) x) : n ≤ k := by
  by_contra hlt
  have hk : k < n := by omega
  cases hx with
  | stopped hstop => exact hstop (h.running k hk)
  | interrupted _ hi => simp [h.undisturbed k hk] at hi
  | failed _ _ hfail =>
    have hok := h.iterate_eq hk
    rw [hfail] at hok
    simp at hok

/-- **What the iterations tell**: if `n` of them follow each other and the loop ends in front of the
    next one, then so does the body. -/
theorem Goes.body_eq {x : Except (Failure α) Unit × Run σ ω η α} (h : Goes P r n)
    (hcap : ¬ r.progress.maxIters = 0) (hx : Halts P (stateAfter P r n) x) :
    (body P).exec (begun P r) = x := by
  have hfate := body_fate P r
  generalize (body P).exec (begun P r) = y at hfate
  cases hfate with
  | unopened hopen => simp [h.opening_eq] at hopen
  | barred _ hzero => exact absurd hzero hcap
  | @halted k _ hk _ hy =>
    obtain rfl : n = k := le_antisymm (h.le_of_halts hy) (hk.le_of_halts hx)
    exact hy.unique hx

/-! ### The whole call -/

omit [Scalar α] in
/-- What becomes of the requests to stop does not change the progress. -/
theorem released_progress (P : Plan σ ω η α) (r t : Run σ ω η α) :
    (released P r t).progress = t.progress := by
  unfold released
  split <;> rfl

omit [Scalar α] in
/-- It does not change the memory of the solver. -/
theorem released_solver (P : Plan σ ω η α) (r t : Run σ ω η α) :
    (released P r t).solver = t.solver := by
  unfold released
  split <;> rfl

/-- A call that fails leaves the progress of its body. -/
theorem aborted_progress (P : Plan σ ω η α) (r : Run σ ω η α) (e : Failure α) (t : Run σ ω η α) :
    (aborted P r e t).progress = t.progress := by
  unfold aborted
  split
  · exact released_progress P r t
  · exact released_progress P r t

omit [Scalar α] in
/-- A call begins with the operator and the observers that it finds. -/
theorem begun_surroundings (P : Plan σ ω η α) (r : Run σ ω η α) :
    (begun P r).session.host.memory = r.session.host.memory ∧ (begun P r).observers = r.observers := by
  unfold begun
  by_cases hg : P.config.guarded <;> simp only [hg] <;> exact ⟨rfl, rfl⟩

/-- A call that fails leaves what its body has left, except for how interrupts are received. -/
theorem aborted_course (P : Plan σ ω η α) (r : Run σ ω η α) (e : Failure α) (t : Run σ ω η α) :
    (aborted P r e t).solver = t.solver ∧ (aborted P r e t).observers = t.observers ∧
      (aborted P r e t).session.host.memory = t.session.host.memory := by
  unfold aborted released
  by_cases he : e.isError <;> by_cases hg : P.config.guarded <;> simp only [he, hg] <;>
    exact ⟨rfl, rfl, rfl⟩

omit [Scalar α] in
/-- When the body of a call begins, the user has not asked it to stop. -/
theorem raised_begun (P : Plan σ ω η α) (r : Run σ ω η α) :
    raised P.config (begun P r).session.host.interrupt = false := by
  unfold begun raised
  by_cases hg : P.config.guarded
  · simp only [hg]
    rfl
  · simp only [hg]
    rfl

/-- A call fails exactly if its body does. -/
theorem execute_error_iff (P : Plan σ ω η α) {r r' : Run σ ω η α} {e : Failure α} :
    (execute P).exec r = (.error e, r') ↔
      ∃ t, (body P).exec (begun P r) = (.error e, t) ∧ r' = aborted P r e t := by
  rw [exec_execute]
  rcases (body P).exec (begun P r) with ⟨e' | _, t⟩
  · constructor
    · intro h
      obtain ⟨he, rfl⟩ := Prod.mk.inj h
      obtain rfl := Except.error.inj he
      exact ⟨t, rfl, rfl⟩
    · rintro ⟨_, hbody, rfl⟩
      obtain ⟨he, rfl⟩ := Prod.mk.inj hbody
      obtain rfl := Except.error.inj he
      rfl
  · simp

/-- The progress at the end of a call is that at the end of its body. -/
theorem execute_progress (P : Plan σ ω η α) (r : Run σ ω η α) :
    ((execute P).exec r).2.progress = ((body P).exec (begun P r)).2.progress := by
  rw [exec_execute]
  rcases (body P).exec (begun P r) with ⟨e | _, t⟩
  · exact aborted_progress P r e t
  · exact finished_progress P r t

/-- A call whose iterations have stopped succeeds. -/
theorem Goes.execute_eq (h : Goes P r n) (hcap : ¬ r.progress.maxIters = 0)
    (hstop : ¬ (stateAfter P r n).progress.reason = .notTerminated) :
    (execute P).exec r = (.ok (), finished P r (stateAfter P r n)) := by
  rw [exec_execute, h.body_eq hcap (.stopped hstop)]

/-- A call that succeeds, and that the user does not ask to stop, stops after some iteration. -/
theorem exists_stopped_of_ok {final : Run σ ω η α} (h : (execute P).exec r = (.ok (), final))
    (hcap : ¬ r.progress.maxIters = 0) (hcalm : ∀ n, Goes P r n →
      raised P.config (stateAfter P r n).session.host.interrupt = false) :
    ∃ n, Goes P r n ∧ ¬ (stateAfter P r n).progress.reason = .notTerminated ∧
      final.progress = (stateAfter P r n).progress ∧ final.solver = (stateAfter P r n).solver := by
  obtain ⟨t, hbody, rfl⟩ := (execute_ok_iff P).1 h
  have hfate := body_fate P r
  -- With a cap and without interrupts there is only one way to succeed.
  rw [hbody] at hfate
  generalize hx : ((.ok (), t) : Except (Failure α) Unit × _) = x at hfate
  cases hfate with
  | unopened hopen => cases hx
  | barred _ hzero => exact absurd hzero hcap
  | @halted n _ hn _ hhalts =>
    cases hhalts with
    | stopped hstop =>
      obtain rfl := (Prod.mk.inj hx).2
      exact ⟨n, hn, hstop, finished_progress P r _, released_solver P r _⟩
    | interrupted _ hi => simp [hcalm n hn] at hi
    | failed => cases hx

end Minimization.Run
