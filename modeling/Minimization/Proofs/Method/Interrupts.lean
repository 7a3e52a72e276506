import Minimization.Proofs.Contract.Uninterrupted
import Minimization.Proofs.Method.Abort
import Minimization.Proofs.Operator.Signals
import Minimization.Proofs.Operator.Sphere

namespace Minimization

/-!
# Interrupts are cooperative

A guarded run of a built-in method looks at requests of the user between its iterations only.  It is
compared with the run in peace, which makes the same evaluations while nobody asks to stop.

* `Run.signals_plan` — the two runs keep to `signals`, step by step.
* `Run.Goes.until_signal` — they come to the same until a request has arrived.
* `Run.Goes.in_peace`, `Run.fails_in_peace` — a run that fails would have failed in peace.
* `ProgressOn.halted`, `Run.Concludes` — what a run comes to that does not go on after an iteration.
* `Run.interrupts_cooperate` — all of it, for requests that arrive during any set of evaluations.
-/

variable {ω η α : Type}

/-- In peace evaluations are not interrupted. -/
theorem Operator.Deaf.abiding {op : Operator ω α} (hop : op.Deaf) (debug : Bool) :
    Abiding ⟨op.signalled ∅, debug⟩ := by
  have hevaluate : ∀ {β : Type} (kind : Capability) (m : Action (Host ω) α β), m.Deaf →
      (Session.evaluate kind (m.signalled ∅)).Uninterrupted := by
    rintro β kind m hm ⟨⟨⟨memory, n⟩, i⟩, counts, logbook⟩
    -- A deaf evaluation never answers that it was interrupted, and no signal arrives to make it.
    obtain ⟨y, after, hy, hexec⟩ := hm.exec_signalled memory n
    rw [Session.ends_evaluate]
    refine .intro (fun _ _ _ => trivial) fun e t herror he => hy ?_
    rw [hexec ∅ i (absurd · (Set.notMem_empty n))] at herror
    rw [(Prod.mk.inj herror).1, he]
  exact ⟨fun x => hevaluate .cost _ (hop.cost x), fun x => hevaluate .gradient _ (hop.gradient x),
    fun x => hevaluate .hessian _ (hop.hessian x)⟩

/-- The progress once the run does not go on: if it has not stopped yet, it is stopped, because it may
    not iterate at all or because the user has asked it to. -/
def ProgressOn.halted {ρ : Type} (p : ProgressOn ρ α) : ProgressOn ρ α :=
  if p.reason = .notTerminated then
    { p with reason := if p.maxIters = 0 then .maxIters else .keyboardInterrupt }
  else p

/-- How often a recorder has been called. -/
def Watcher.sightings : Watcher α → ℕ
  | .recorder seen => seen.length
  | _ => 0

namespace Run

open Bond

/-! ### Side by side -/

/-- What observers are shown does not depend on requests that have been noted down. -/
theorem signals_onWatches {σ : Type} {S : Set ℕ} {k : ℕ} {before : Prop} {I : σ → Prop}
    (m : Action (Watches η) α Unit) :
    ((signals (ω := ω) S k before).run α I fun l l' => l' = l).Related (onWatches m)
      (onWatches m) := by
  intro r q hrq
  -- Observers do not see the host, so the same call runs on both sides.
  have hwatches : (⟨q.observers, q.session.logbook⟩ : Watches η) =
      ⟨r.observers, r.session.logbook⟩ := by
    rw [hrq.observers, hrq.session.logbook_eq]
  rw [exec_onWatches, exec_onWatches, hwatches]
  generalize m.exec ⟨r.observers, r.session.logbook⟩ = x
  have hseen : Beside (Noted S k before) I (fun l l' => l' = l) (watched x.2 r) (watched x.2 q) :=
    ⟨hrq.session.relog x.2.logbook, hrq.memory, rfl, hrq.progress, hrq.solver⟩
  cases x.1 with
  | ok _ => exact .ok hseen
  | error e => exact .error hseen

section
variable {σ : Type} [Scalar α] {I : σ → Prop} {S : Set ℕ} {k n : ℕ} {before : Prop}
  {P₀ P : Plan σ (ω × ℕ) η α} {r t u : Run σ (ω × ℕ) η α}

/-- The states of the run `r` in peace and with requests. -/
abbrev Unshaken (I : σ → Prop) (S : Set ℕ) (r t u : Run σ (ω × ℕ) η α) : Prop :=
  Beside (Noted S r.session.host.memory.2 False) I (fun l l' => l' = l) t u

/-- The plans of the run `r` in peace and with requests, which are noted down. -/
structure Shaken (I : σ → Prop) (S : Set ℕ) (P₀ P : Plan σ (ω × ℕ) η α) (r : Run σ (ω × ℕ) η α) :
    Prop where
  plan : Plan.Bonded I (fun l l' => l' = l) (signals S r.session.host.memory.2 False) P₀ P
  guarded : P.config.guarded = true
  memory : I r.solver

namespace Shaken

/-- Both bodies begin in the same state. -/
theorem begun (h : Shaken I S P₀ P r) : Unshaken I S r (begun P₀ r) (begun P r) := by
  -- Beginning a run looks at the configuration and the name of the solver only, which the two share.
  have hsame : Run.begun P₀ r = Run.begun P r := by
    unfold Run.begun
    rw [h.plan.config, h.plan.solver.name]
  have hinterrupt : (Run.begun P r).session.host.interrupt = .guarded false := by
    unfold Run.begun
    simp only [h.guarded]
    rfl
  obtain ⟨-, hsolver, -⟩ := begun_course P r
  have hmemory := (begun_surroundings P r).1
  rw [hsame]
  generalize Run.begun P r = q at hinterrupt hsolver hmemory
  refine ⟨⟨by rw [hmemory], hinterrupt, false, ?_, ?_⟩, ?_, rfl, rfl, rfl⟩
  · simp [hmemory, not_arrived_self]
  · unfold Session.noting
    rw [← hinterrupt]
  · rw [hsolver]
    exact h.memory

/-- The start of both runs. -/
theorem opening (h : Shaken I S P₀ P r) : Agree (Unshaken I S r) (Unshaken I S r)
    ((opening P₀).exec (Run.begun P₀ r)) ((Run.opening P).exec (Run.begun P r)) :=
  (opening_bonded h.plan.toJoined h.begun).agree (fun _ => id) fun _ => id

/-- An iteration of both runs. -/
theorem iterate (h : Shaken I S P₀ P r) (ht : t.progress.reason = .notTerminated)
    (htu : Unshaken I S r t u) : Agree (Unshaken I S r) (Unshaken I S r) ((iterate P₀).exec t)
      ((Run.iterate P).exec u) :=
  (iterate_bonded h.plan ht htu).agree (fun _ => id) fun _ => id

/-- In peace nobody asks the run to stop. -/
theorem calm (h : Shaken I S P₀ P r) (htu : Unshaken I S r t u) :
    raised P₀.config t.session.host.interrupt = false := by
  rw [← h.plan.config, htu.session.peace]
  simp [raised]

/-- Otherwise the run is asked to stop once a request has arrived. -/
theorem raised_iff (h : Shaken I S P₀ P r) (htu : Unshaken I S r t u) :
    raised P.config u.session.host.interrupt = true ↔
      Arrived S r.session.host.memory.2 t.session.host.memory.2 := by
  rw [htu.session.raised_iff h.guarded, false_or]

/-- **Until a request has arrived** the run comes to what it comes to in peace. -/
theorem goes (h : Shaken I S P₀ P r) (hn : Goes P₀ r n)
    (hquiet : ∀ i < n, ¬ Arrived S r.session.host.memory.2
      (stateAfter P₀ r i).session.host.memory.2) :
    Goes P r n ∧ Unshaken I S r (stateAfter P₀ r n) (stateAfter P r n) := by
  -- On the iterations; the request is looked at before each of them, and there is none yet.
  induction n with
  | zero =>
    have hopening := h.opening
    rw [hn.opening_eq] at hopening
    obtain ⟨q, hq, hstates⟩ := hopening.ok_right
    obtain rfl : stateAfter P r 0 = q := congrArg Prod.snd hq
    exact ⟨.zero (by rw [hq]; rfl), hstates⟩
  | succ n ih =>
    have hlast := Nat.lt_succ_self n
    obtain ⟨hgoes, hstates⟩ := ih (hn.mono (Nat.le_succ n)) fun i hi => hquiet i (by omega)
    have hgo := hn.running n hlast
    have hiterate := h.iterate hgo hstates
    rw [hn.iterate_eq hlast] at hiterate
    obtain ⟨q, hq, hnext⟩ := hiterate.ok_right
    obtain rfl : stateAfter P r (n + 1) = q := congrArg Prod.snd hq
    refine ⟨hgoes.next ?_ ?_ (by rw [hq]; rfl), hnext⟩
    · rw [hstates.progress]
      exact hgo
    · rw [← Bool.not_eq_true, h.raised_iff hstates]
      exact hquiet n hlast

/-- **Whatever the run has come to**, it would have come to in peace. -/
theorem goes_in_peace (h : Shaken I S P₀ P r) (hn : Goes P r n) :
    Goes P₀ r n ∧ Unshaken I S r (stateAfter P₀ r n) (stateAfter P r n) := by
  -- What the run with signals has made, the run without them makes too.
  induction n with
  | zero =>
    have hopening := h.opening
    rw [hn.opening_eq] at hopening
    obtain ⟨q, hq, hstates⟩ := hopening.ok_left
    obtain rfl : stateAfter P₀ r 0 = q := congrArg Prod.snd hq
    exact ⟨.zero (by rw [hq]; rfl), hstates⟩
  | succ n ih =>
    have hlast := Nat.lt_succ_self n
    obtain ⟨hgoes, hstates⟩ := ih (hn.mono (Nat.le_succ n))
    -- The reason is shared, so both runs ask for one more iteration.
    have hgo : (stateAfter P₀ r n).progress.reason = .notTerminated := by
      rw [← hstates.progress]
      exact hn.running n hlast
    have hiterate := h.iterate hgo hstates
    rw [hn.iterate_eq hlast] at hiterate
    obtain ⟨q, hq, hnext⟩ := hiterate.ok_left
    obtain rfl : stateAfter P₀ r (n + 1) = q := congrArg Prod.snd hq
    exact ⟨hgoes.next hgo (h.calm hstates) (by rw [hq]; rfl), hnext⟩

end Shaken

/-! ### Calls that fail -/

/-- A call that may not iterate stops after its start. -/
theorem Goes.body_barred {P : Plan σ ω η α} {r : Run σ ω η α} (h : Goes P r 0)
    (hcap : r.progress.maxIters = 0) :
    (body P).exec (Run.begun P r) = (stop .maxIters).exec (stateAfter P r 0) := by
  rw [Run.body_eq, Action.exec_bind, h.opening_eq]
  simp only [Action.exec_bind, Action.exec_get, h.progress_zero.2.1, hcap, if_true]

omit [Scalar α] in
/-- Stopping a run fails only if it has stopped already. -/
theorem stop_error {σ : Type} {r t : Run σ ω η α} {reason : Reason} {e : Failure α}
    (h : (stop reason).exec r = (.error e, t)) :
    e = .impossible (.alreadyTerminated r.progress.reason.name) := by
  obtain ⟨_, _, hget, h⟩ | hget := (Action.exec_bind_eq_error_iff.1 h).symm
  · cases hget
    obtain hset | ⟨_, _, -, hmodify⟩ := Action.exec_bind_eq_error_iff.1 h
    · unfold ProgressOn.setReason at hset
      split at hset
      · exact (Except.error.inj (Prod.mk.inj hset).1).symm
      · cases (Prod.mk.inj hset).1
    · cases (Prod.mk.inj hmodify).1
  · cases (Prod.mk.inj hget).1

/-- Why a call fails in peace: its start does, or an iteration, or it has stopped already. -/
inductive Fails (I : σ → Prop) (P : Plan σ ω η α) (r : Run σ ω η α) (e : Failure α) : Prop
  | opening {t : Run σ ω η α} (h : (Run.opening P).exec (Run.begun P r) = (.error e, t))
  | iterate {t u : Run σ ω η α} (hmemory : I t.solver) (ht : t.progress.reason = .notTerminated)
      (h : (Run.iterate P).exec t = (.error e, u))
  | stop {reason : String} (h : e = .impossible (.alreadyTerminated reason))

/-- **A call that fails would have failed in peace**, in the same way. -/
theorem Shaken.fails_in_peace (h : Shaken I S P₀ P r) {e : Failure α}
    (hfail : (execute P).exec r = (.error e, t)) :
    ((execute P₀).exec r).1 = .error e ∧ Fails I P₀ r e := by
  have hexecute : ∀ {v}, (body P₀).exec (Run.begun P₀ r) = (.error e, v) →
      ((execute P₀).exec r).1 = .error e := by
    intro v hv
    rw [exec_execute, hv]
  obtain ⟨t, hbody, -⟩ := (execute_error_iff P).1 hfail
  have hfate := body_fate P r
  rw [hbody] at hfate
  generalize hx : ((.error e, t) : Except (Failure α) Unit × _) = x at hfate
  -- The error comes from the opening, from the check of the cap or from an iteration, and in each the
  -- run without signals fails the same way.
  cases hfate with
  | unopened hopen =>
    obtain ⟨he, rfl⟩ := Prod.mk.inj hx
    obtain rfl := Except.error.inj he
    have hopening := h.opening
    rw [hopen] at hopening
    obtain ⟨v, hv, -⟩ := hopening.error_left
    refine ⟨hexecute (v := v) ?_, .opening hv⟩
    rw [body_eq, Action.exec_bind, hv]
  | barred hzero hcap =>
    obtain ⟨hzero₀, hstates⟩ := h.goes_in_peace hzero
    have hstop := (stop_bonded (B := signals S r.session.host.memory.2 False) .maxIters hstates).agree
      (fun _ => id) fun _ => id
    rw [← hx] at hstop
    obtain ⟨v, hv, -⟩ := hstop.error_left
    refine ⟨hexecute (v := v) ?_, ?_⟩
    · rw [hzero₀.body_barred hcap, hv]
    · exact .stop (stop_error hv)
  | @halted n _ hn hcap hhalts =>
    cases hhalts with
    | stopped => cases hx
    | interrupted => cases hx
    | failed hgo hi hiterate =>
      obtain ⟨he, rfl⟩ := Prod.mk.inj hx
      obtain rfl := Except.error.inj he
      obtain ⟨hn₀, hstates⟩ := h.goes_in_peace hn
      have hgo₀ : (stateAfter P₀ r n).progress.reason = .notTerminated := by
        rw [← hstates.progress]
        exact hgo
      have hagree := h.iterate hgo₀ hstates
      rw [hiterate] at hagree
      obtain ⟨v, hv, -⟩ := hagree.error_left
      exact ⟨hexecute (hn₀.body_eq hcap (.failed hgo₀ (h.calm hstates) hv)),
        .iterate hstates.memory hgo₀ hv⟩

/-! ### Calls in which no request arrives -/

/-- **If no request arrives in what is completed**, the call comes to what it comes to in peace. -/
theorem Shaken.body_unheard (h : Shaken I S P₀ P r) (hquiet : ∀ n, Goes P₀ r n →
      ¬ Arrived S r.session.host.memory.2 (stateAfter P₀ r n).session.host.memory.2) :
    Agree (Unshaken I S r) (Unshaken I S r) ((body P₀).exec (Run.begun P₀ r))
      ((body P).exec (Run.begun P r)) := by
  have hfate := body_fate P₀ r
  generalize (body P₀).exec (Run.begun P₀ r) = x at hfate
  -- The run without signals is the one to follow: nothing disturbs it, and the other one comes along.
  cases hfate with
  | unopened hopen =>
    have hopening := h.opening
    rw [hopen] at hopening
    obtain ⟨u, hu, hfailed⟩ := hopening.error_right
    rw [body_eq, Action.exec_bind, hu]
    exact .error hfailed
  | barred hzero hcap =>
    obtain ⟨hgoes, hstates⟩ := h.goes hzero fun i hi => absurd hi (Nat.not_lt_zero i)
    rw [hgoes.body_barred hcap]
    exact (stop_bonded (B := signals S r.session.host.memory.2 False) .maxIters hstates).agree
      (fun _ => id) fun _ => id
  | @halted n _ hn hcap hhalts =>
    obtain ⟨hgoes, hstates⟩ := h.goes hn fun i hi => hquiet i (hn.mono hi.le)
    cases hhalts with
    | stopped hstop =>
      rw [hgoes.body_eq hcap (.stopped (by rwa [hstates.progress]))]
      exact .ok hstates
    | interrupted hgo hi => simp [h.calm hstates] at hi
    | failed hgo hi hiterate =>
      have hagree := h.iterate hgo hstates
      rw [hiterate] at hagree
      obtain ⟨u, hu, hfailed⟩ := hagree.error_right
      have hi' : raised P.config (stateAfter P r n).session.host.interrupt = false := by
        rw [← Bool.not_eq_true, h.raised_iff hstates]
        exact hquiet n hn
      rw [hgoes.body_eq hcap (.failed (by rwa [hstates.progress]) hi' hu)]
      exact .error hfailed

/-- The outcome of a call and the progress at its end are those of its body. -/
theorem Shaken.execute_unheard (h : Shaken I S P₀ P r) (hquiet : ∀ n, Goes P₀ r n →
      ¬ Arrived S r.session.host.memory.2 (stateAfter P₀ r n).session.host.memory.2) :
    ((execute P).exec r).1 = ((execute P₀).exec r).1 ∧
      ((execute P).exec r).2.progress = ((execute P₀).exec r).2.progress := by
  have hbody := h.body_unheard hquiet
  rw [execute_progress, execute_progress, exec_execute, exec_execute]
  generalize (body P₀).exec (Run.begun P₀ r) = x at hbody
  generalize (body P).exec (Run.begun P r) = y at hbody
  cases hbody with
  | ok hstates => exact ⟨rfl, hstates.progress⟩
  | error hfailed => exact ⟨rfl, hfailed.progress⟩

/-! ### Calls that are asked to stop -/

omit [Scalar α] in
/-- Without having stopped before, or for that very reason, a run can be stopped because of its cap. -/
theorem exec_stop_maxIters {σ : Type} {r : Run σ ω η α} (hcap : r.progress.maxIters = 0)
    (hr : r.progress.reason = .notTerminated ∨ r.progress.reason = .maxIters) :
    (stop .maxIters).exec r = (.ok (), { r with progress := r.progress.halted }) := by
  unfold ProgressOn.halted
  obtain hr | hr := hr
  · rw [exec_stop hr, if_pos hr, if_pos hcap]
  -- Stopping again for the same reason is allowed, and changes nothing.
  · have hset : r.progress.setReason .maxIters = .ok r.progress := by
      rw [← hr]
      simp [ProgressOn.setReason]
    rw [if_neg (by rw [hr]; simp)]
    simp only [stop, Action.exec_bind, Action.exec_get, Action.exec_ofExcept, hset, Action.exec_modify]

/-- **A run that has been asked to stop** does not go on. -/
theorem Goes.body_raised {P : Plan σ ω η α} {r : Run σ ω η α} (hn : Goes P r n)
    (hraised : raised P.config (stateAfter P r n).session.host.interrupt = true)
    (hcap : r.progress.maxIters = 0 →
      n = 0 ∧ (r.progress.reason = .notTerminated ∨ r.progress.reason = .maxIters)) :
    (body P).exec (Run.begun P r) = (.ok (), { stateAfter P r n with
      progress := (stateAfter P r n).progress.halted }) := by
  -- A cap of zero is looked at first; with another cap the interrupt is, unless the run has stopped by
  -- itself.
  by_cases hzero : r.progress.maxIters = 0
  · obtain ⟨rfl, hr⟩ := hcap hzero
    obtain ⟨-, hmax, hreason⟩ := hn.progress_zero
    rw [hn.body_barred hzero]
    exact exec_stop_maxIters (hmax.trans hzero) (by rwa [hreason])
  · by_cases hgo : (stateAfter P r n).progress.reason = .notTerminated
    · have hmax : ¬ (stateAfter P r n).progress.maxIters = 0 := by rwa [hn.maxIters_eq]
      rw [hn.body_eq hzero (.interrupted hgo hraised), ProgressOn.halted, if_pos hgo, if_neg hmax]
    · rw [hn.body_eq hzero (.stopped hgo), ProgressOn.halted, if_neg hgo]

/-- The run `r` has ended in `final` after `n` iterations, as it has come to them in peace: they are
    complete, with all that observers have seen, and nothing is evaluated after them. -/
structure Concludes (P₀ P : Plan σ ω η α) (r : Run σ ω η α) (n : ℕ) (final : Run σ ω η α) : Prop where
  goes : Goes P r n
  progress : final.progress = (stateAfter P₀ r n).progress.halted
  solver : final.solver = (stateAfter P₀ r n).solver
  observers : final.observers = (stateAfter P₀ r n).observers
  memory : final.session.host.memory = (stateAfter P₀ r n).session.host.memory
  counts : final.session.counts = (stateAfter P₀ r n).session.counts

omit [Scalar α] in
/-- The end of a call leaves all but loggers and the way in which interrupts are received. -/
theorem released_course (P : Plan σ ω η α) (r t : Run σ ω η α) :
    (released P r t).observers = t.observers ∧
      (released P r t).session.host.memory = t.session.host.memory ∧
      (released P r t).session.counts = t.session.counts := by
  unfold released
  split <;> exact ⟨rfl, rfl, rfl⟩

/-- **The iteration in which the first request arrives** is the last one, and it is completed. -/
theorem Shaken.concludes (h : Shaken I S P₀ P r) (hn : Goes P₀ r n)
    (hcap : r.progress.maxIters = 0 →
      n = 0 ∧ (r.progress.reason = .notTerminated ∨ r.progress.reason = .maxIters))
    (hquiet : ∀ i < n, ¬ Arrived S r.session.host.memory.2
      (stateAfter P₀ r i).session.host.memory.2)
    (hnow : Arrived S r.session.host.memory.2 (stateAfter P₀ r n).session.host.memory.2) :
    ∃ final, (execute P).exec r = (.ok (), final) ∧ Concludes P₀ P r n final := by
  -- Up to the signal the two runs are beside each other, and at the signal this one stops.
  obtain ⟨hgoes, hstates⟩ := h.goes hn hquiet
  have hbody := hgoes.body_raised ((h.raised_iff hstates).2 hnow) hcap
  obtain ⟨hobservers, hmemory, hcounts⟩ := released_course P r { stateAfter P r n with
    progress := (stateAfter P r n).progress.halted }
  refine ⟨_, (execute_ok_iff P).2 ⟨_, hbody, rfl⟩, hgoes, ?_, ?_, ?_, ?_, ?_⟩
  · rw [finished_progress, hstates.progress]
  · exact (released_solver P r _).trans hstates.solver
  · exact hobservers.trans hstates.observers
  · exact hmemory.trans hstates.session.memory_eq
  · exact hcounts.trans hstates.session.counts_eq

end

/-! ### Built-in methods -/

section
variable [Scalar α] {op : Operator ω α} {S : Set ℕ} [DecidablePred (· ∈ S)] {O : Observer η α}
  {c : RunConfig α} {r : Run (Method α) (ω × ℕ) η α}

/-- **Every part of the two runs** comes to the same. -/
theorem shaken_plan (hop : op.Deaf) (S : Set ℕ) [DecidablePred (· ∈ S)] (O : Observer η α)
    (debug : Bool) (hc : c.guarded = true) (hm : r.solver.BuiltIn) :
    Shaken Method.BuiltIn S (plan ⟨op.signalled ∅, debug⟩ O c) (plan ⟨op.signalled S, debug⟩ O c) r where
  plan :=
    { hosts := signals_hosts hop debug
      solver := Method.joined (signals_hosts hop debug).toAbreast
      introduced := fun _ _ => signals_onWatches _
      shown := fun _ _ _ => signals_onWatches _
      config := rfl
      step := (Method.bonded (signals_hosts hop debug).toAbreast signals_nests
        (signals_hosts hop debug)).step }
  guarded := hc
  memory := hm

/-- In peace no call fails as if it had been interrupted. -/
theorem Fails.uninterrupted {A : Setting ω α} {r : Run (Method α) ω η α} {e : Failure α}
    (h : Fails Method.BuiltIn (plan A O c) r e) (hA : Abiding A) (hO : O.FailsWith (· ≠ .interrupted))
    (hm : r.solver.BuiltIn) : e ≠ .interrupted := by
  have hcontract := Method.uninterrupted_contract hA hO c
  -- Neither the operator nor the observers raise an interrupt, so the contract of the run excludes it.
  cases h with
  | opening h => exact (hcontract.opening_begun (Method.uninterrupted_inits hA O c hm)).of_error h
  | iterate hmemory ht h => exact (hcontract.iterate ht hmemory).of_error h
  | stop h =>
    rw [h]
    exact nofun

/-- After a guarded run, whether it has failed or not, interrupts are received as before. -/
theorem interrupt_execute {P : Plan (Method α) ω η α} (hc : P.config.guarded = true)
    (r : Run (Method α) ω η α) :
    ((execute P).exec r).2.session.host.interrupt = r.session.host.interrupt := by
  rw [exec_execute]
  rcases (body P).exec (begun P r) with ⟨e | _, t⟩
  · show (aborted P r e t).session.host.interrupt = _
    rw [host_aborted]
    exact interrupt_released hc r t
  · exact interrupt_released hc r t

/-- **Interrupts are cooperative.**  While a guarded run of a built-in method carries out the evaluations
    with a number in `S`, the user asks to stop.

    * If the first request arrives in an iteration (or in the start) in which nothing fails in peace,
      then this iteration is completed as in peace, and it is the last one.  The run stops because of
      the request, unless that iteration has stopped it, it had stopped before, or its cap is zero.
    * If no request arrives in what is completed, the call comes to what it comes to in peace.
    * A call that fails would have failed in peace, in the same way, and not as if it had been
      interrupted.
    * After the call interrupts are received as before.
    * Runs inside a step, of line searches and of the dogleg method, do not act on requests and leave
      them to the run around them. -/
theorem interrupts_cooperate (hop : op.Deaf) (S : Set ℕ) [DecidablePred (· ∈ S)]
    (hO : O.FailsWith (· ≠ .interrupted)) (debug : Bool) (hc : c.guarded = true)
    (hm : r.solver.BuiltIn) :
    let P₀ := plan ⟨op.signalled ∅, debug⟩ O c
    let P := plan ⟨op.signalled S, debug⟩ O c
    let arrived (n : ℕ) :=
      Arrived S r.session.host.memory.2 (stateAfter P₀ r n).session.host.memory.2
    (∀ n, Goes P₀ r n → (r.progress.maxIters = 0 →
          n = 0 ∧ (r.progress.reason = .notTerminated ∨ r.progress.reason = .maxIters)) →
        (∀ i < n, ¬ arrived i) → arrived n →
        ∃ final, (execute P).exec r = (.ok (), final) ∧ Concludes P₀ P r n final) ∧
      ((∀ n, Goes P₀ r n → ¬ arrived n) → ((execute P).exec r).1 = ((execute P₀).exec r).1 ∧
        ((execute P).exec r).2.progress = ((execute P₀).exec r).2.progress) ∧
      (∀ e left, (execute P).exec r = (.error e, left) →
        e ≠ .interrupted ∧ ((execute P₀).exec r).1 = .error e) ∧
      ((execute P).exec r).2.session.host.interrupt = r.session.host.interrupt ∧
      (∀ x direction cost? gradient?,
        Unheeded S (LineSearch.run ⟨op.signalled ∅, debug⟩ x direction cost? gradient?)
          (LineSearch.run ⟨op.signalled S, debug⟩ x direction cost? gradient?)) ∧
      ∀ x gradient hessian,
        Unheeded S (TrustRegion.subproblemStep ⟨op.signalled ∅, debug⟩ x gradient hessian)
          (TrustRegion.subproblemStep ⟨op.signalled S, debug⟩ x gradient hessian) := by
  intro P₀ P arrived
  have h : Shaken Method.BuiltIn S P₀ P r := shaken_plan hop S O debug hc hm
  refine ⟨fun n hn hcap hquiet hnow => h.concludes hn hcap hquiet hnow,
    fun hquiet => h.execute_unheard hquiet, fun e left hfail => ?_, interrupt_execute hc r,
    fun x direction cost? gradient? => ?_, fun x gradient hessian => ?_⟩
  · obtain ⟨hexec, hfails⟩ := h.fails_in_peace hfail
    exact ⟨hfails.uninterrupted (hop.abiding debug) hO hm, hexec⟩
  · exact .of_related fun k before => .forget fun l₀ =>
      LineSearch.run_bonded signals_nests (signals_hosts hop debug) l₀ x direction cost? gradient?
  · exact .of_related fun k before =>
      TrustRegion.subproblemStep_bonded signals_nests (signals_hosts hop debug) x gradient hessian

end

/-- The evaluations of the sphere function do not touch anything. -/
theorem sphereOperator_deaf : (sphereOperator : Operator Unit (Exact ℚ)).Deaf where
  cost x _ := ⟨.ok (sphere x), (), nofun, fun _ => rfl⟩
  gradient x _ := ⟨.ok (sphereGradient x), (), nofun, fun _ => rfl⟩
  hessian _ _ := ⟨.error (.unsupported "Problem" .hessian), (), nofun, fun _ => rfl⟩

/-- Steepest descent on the sphere function, while whose evaluations with a number in `S` the user asks
    to stop. -/
def shakenPlan (S : Set ℕ) [DecidablePred (· ∈ S)] :
    Plan (Method (Exact ℚ)) (Unit × ℕ) (Watcher (Exact ℚ)) (Exact ℚ) :=
  plan ⟨sphereOperator.signalled S, true⟩ Watcher.observer ⟨5, -1.0, true⟩

/-- From three on, with a recorder and a search that has to shorten its step. -/
def shakenStart : Run (Method (Exact ℚ)) (Unit × ℕ) (Watcher (Exact ℚ)) (Exact ℚ) :=
  fresh (shakenPlan ∅) (.vector .array [3.0]) none none none
    (.steepestDescent (.backtracking ⟨⟨none, 1.0, 10, 0, none, none⟩, 0.25, 0.75, 1.0⟩))
    (.start ((), 0)) [⟨.always, .recorder []⟩]

/-- The request arrives in the second trial of the search in the first iteration. -/
theorem interrupts_cooperate_search : ∃ final,
    (execute (shakenPlan {3})).exec shakenStart = (.ok (), final) ∧
      Concludes (shakenPlan ∅) (shakenPlan {3}) shakenStart 1 final ∧
      final.progress.reason = .keyboardInterrupt ∧ final.progress.iter = 1 := by
  have hgoes : Goes (shakenPlan ∅) shakenStart 1 :=
    ⟨by decide +kernel, by decide +kernel, by decide +kernel, by decide +kernel⟩
  -- The signal belongs to the evaluation with the number 3, which is made in the first iteration.
  have hfirst : (stateAfter (shakenPlan ∅) shakenStart 0).session.host.memory.2 = 0 := by
    decide +kernel
  have hsecond : 3 < (stateAfter (shakenPlan ∅) shakenStart 1).session.host.memory.2 := by
    decide +kernel
  have hrunning : (stateAfter (shakenPlan ∅) shakenStart 1).progress.halted.reason =
      .keyboardInterrupt := by decide +kernel
  have hiter : (stateAfter (shakenPlan ∅) shakenStart 1).progress.halted.iter = 1 := by decide +kernel
  obtain ⟨hcompletes, -⟩ := interrupts_cooperate sphereOperator_deaf {3} Watcher.observer_uninterrupted
    true (c := ⟨5, -1.0, true⟩) rfl (r := shakenStart) trivial
  obtain ⟨final, hexec, hfinal⟩ := hcompletes 1 hgoes (fun hcap => by cases hcap) (fun i hi harrived => by
      obtain rfl : i = 0 := by omega
      exact not_arrived_self {3} 0 (hfirst ▸ harrived)) ⟨3, rfl, Nat.zero_le 3, hsecond⟩
  exact ⟨final, hexec, hfinal, (congrArg (·.reason) hfinal.progress).trans hrunning,
    (congrArg (·.iter) hfinal.progress).trans hiter⟩

/-- Gradient steps on the sphere function from one on, where the cost is said to be no number.  The
    user asks to stop while the first gradient is computed. -/
def unknownPlan : Plan (Method (Exact ℚ)) (Unit × ℕ) (Watcher (Exact ℚ)) (Exact ℚ) :=
  plan ⟨sphereOperator.signalled {0}, true⟩ Watcher.observer ⟨5, -Scalar.infinity, true⟩

/-- With a recorder. -/
def unknownStart : Run (Method (Exact ℚ)) (Unit × ℕ) (Watcher (Exact ℚ)) (Exact ℚ) :=
  fresh unknownPlan (.vector .array [1.0]) (some Scalar.notANumber) none none
    (.landweber ⟨0.25, false⟩) (.start ((), 0)) [⟨.always, .recorder []⟩]

/-- **No evaluation fails, and still the iteration in which the request arrives is not completed**: the
    checks of debug mode end it before any observer is called, and the run does not stop for a
    reason. -/
theorem interrupted_iteration_fails :
    (∀ x host, ((sphereOperator.gradient x).exec host : Except (Failure (Exact ℚ)) _ × Host Unit).1 =
        .ok (sphereGradient x)) ∧
      ((execute unknownPlan).exec unknownStart).1 =
        .error (.numerical (.undefinedCost Landweber.name 1)) ∧
      ((execute unknownPlan).exec unknownStart).2.session.counts = ⟨0, 1, 0, 0⟩ ∧
      ((execute unknownPlan).exec unknownStart).2.progress.reason = .notTerminated ∧
      (((execute unknownPlan).exec unknownStart).2.observers.map fun w => w.memory.sightings) = [1] := by
  refine ⟨fun _ _ => rfl, ?_, ?_, ?_, ?_⟩ <;> decide +kernel

end Run

end Minimization
