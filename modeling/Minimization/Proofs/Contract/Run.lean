import Minimization.Proofs.Contract.Ends
import Minimization.Proofs.Run.Stopping

namespace Minimization.Run

open Minimization

/-!
# Contracts of runs

What the parts of a solver promise of progress and memory holds in every state that a run reaches,
and what they promise of their failures holds of the failure of the run.

* `Reached` — the states that a run reaches: after its start, and after every completed iteration.
* `Iterates`, `Consecutive` — one iteration from such a state, and several of them in a row.
* `stateAfter`, `Goes` — the states of a run that makes so many iterations, which can be computed.
* `execute_reached` — a run ends in such a state, or fails on its way from one.
* `ends_iterate_watched`, `ends_opening_watched` — what an iteration and the start end in, told by the
  parts of the solver and the observers; `ends_iterate`, `ends_opening` — by the parts of the solver.
* `Contract` — what a solver promises of its parts: an iteration that starts with `K` ends with `J`
  before its stopping rule has been asked, and with `K` afterwards; no part fails other than with
  `E`.
* `Contract.reached`, `Contract.execute` — what this means for the states that a run reaches, and
  for a whole run.
-/

variable {σ ω η α : Type} [Scalar α]

/-! ### The states that a run reaches -/

/-- The states that the run `r` reaches: after its start and after every completed iteration. -/
inductive Reached (P : Plan σ ω η α) (r : Run σ ω η α) : Run σ ω η α → Prop
  | opened {t : Run σ ω η α} (h : (opening P).exec (begun P r) = (.ok (), t)) : Reached P r t
  | iterated {t t' : Run σ ω η α} (ht : Reached P r t) (hgo : t.progress.reason = .notTerminated)
      (hi : raised P.config t.session.host.interrupt = false)
      (h : (iterate P).exec t = (.ok (), t')) : Reached P r t'

/-- An iteration of a run that goes on. -/
structure Iterates (P : Plan σ ω η α) (t t' : Run σ ω η α) : Prop where
  running : t.progress.reason = .notTerminated
  undisturbed : raised P.config t.session.host.interrupt = false
  succeeds : (iterate P).exec t = (.ok (), t')

/-- The states `u 0`, …, `u n` follow each other. -/
def Consecutive (P : Plan σ ω η α) (u : ℕ → Run σ ω η α) (n : ℕ) : Prop :=
  ∀ i < n, Iterates P (u i) (u (i + 1))

/-- One iteration further on. -/
theorem Reached.next {P : Plan σ ω η α} {r t t' : Run σ ω η α} (ht : Reached P r t)
    (h : Iterates P t t') : Reached P r t' :=
  ht.iterated h.running h.undisturbed h.succeeds

/-- The states that follow one that a run reaches are reached as well. -/
theorem Consecutive.reached {P : Plan σ ω η α} {r : Run σ ω η α} {u : ℕ → Run σ ω η α} {n : ℕ}
    (h : Consecutive P u n) (hu : Reached P r (u 0)) : ∀ i ≤ n, Reached P r (u i) := by
  intro i hi
  induction i with
  | zero => exact hu
  | succ i ih => exact (ih (by omega)).next (h i (by omega))

/-- The state after the start of a run and so many iterations, if none of them fails. -/
def stateAfter (P : Plan σ ω η α) (r : Run σ ω η α) : ℕ → Run σ ω η α
  | 0 => ((opening P).exec (begun P r)).2
  | i + 1 => ((iterate P).exec (stateAfter P r i)).2

/-- The run starts and makes `n` iterations. -/
structure Goes (P : Plan σ ω η α) (r : Run σ ω η α) (n : ℕ) : Prop where
  opens : ((opening P).exec (begun P r)).1.isOk = true
  running : ∀ i < n, (stateAfter P r i).progress.reason = .notTerminated
  undisturbed : ∀ i < n, raised P.config (stateAfter P r i).session.host.interrupt = false
  succeeds : ∀ i < n, ((iterate P).exec (stateAfter P r i)).1.isOk = true

/-- A run that goes on has been opened. -/
theorem Goes.reached {P : Plan σ ω η α} {r : Run σ ω η α} {n : ℕ} (h : Goes P r n) :
    Reached P r (stateAfter P r 0) :=
  .opened (Action.exec_eq_of_isOk h.opens)

/-- Its states follow one another. -/
theorem Goes.consecutive {P : Plan σ ω η α} {r : Run σ ω η α} {n : ℕ} (h : Goes P r n) :
    Consecutive P (stateAfter P r) n :=
  fun i hi => ⟨h.running i hi, h.undisturbed i hi, Action.exec_eq_of_isOk (h.succeeds i hi)⟩

/-- A run that has come to `t` ends as `t'`: it has stopped, or it is stopped now because its cap is
    zero or the user has asked it to. -/
def Leaves (P : Plan σ ω η α) (t t' : Run σ ω η α) : Prop :=
  t'.solver = t.solver ∧ (t'.progress = t.progress ∨
    (t.progress.maxIters = 0 ∨ P.config.guarded = true) ∧
      ∃ reason, t'.progress = { t.progress with reason := reason })

/-- The loop ends in a state that the run reaches, or fails in an iteration from one. -/
theorem iterations_reached (P : Plan σ ω η α) {r t u : Run σ ω η α} (fuel : Nat)
    {outcome : Except (Failure α) Unit} (ht : Reached P r t)
    (h : (iterations P fuel).exec t = (outcome, u)) :
    ∃ v, Reached P r v ∧ (outcome = .ok () ∧ Leaves P v u ∨
      ∃ e, outcome = .error e ∧ v.progress.reason = .notTerminated ∧
        (iterate P).exec v = (.error e, u)) := by
  -- On the fuel; the state before the next iteration is always one that the run reaches.
  induction fuel generalizing t with
  | zero =>
    obtain ⟨rfl, rfl⟩ := Prod.mk.inj h
    exact ⟨t, ht, .inl ⟨rfl, rfl, .inl rfl⟩⟩
  | succ fuel ih =>
    by_cases hgo : t.progress.reason = .notTerminated
    · rw [exec_iterations_of_running P fuel hgo] at h
      by_cases hi : raised P.config t.session.host.interrupt
      · -- The user has asked to stop, which only a guarded run notices.
        rw [if_pos hi] at h
        obtain ⟨rfl, rfl⟩ := Prod.mk.inj h
        have hguarded : P.config.guarded = true := by
          unfold raised at hi
          simp only [Bool.and_eq_true] at hi
          exact hi.1
        exact ⟨t, ht, .inl ⟨rfl, rfl, .inr ⟨.inr hguarded, .keyboardInterrupt, rfl⟩⟩⟩
      · rw [if_neg hi, Action.exec_bind] at h
        rcases hit : (iterate P).exec t with ⟨e | _, next⟩
        · rw [hit] at h
          obtain ⟨rfl, rfl⟩ := Prod.mk.inj h
          exact ⟨t, ht, .inr ⟨e, rfl, hgo, hit⟩⟩
        · rw [hit] at h
          exact ih (ht.iterated hgo (by simpa using hi) hit) h
    · rw [exec_iterations_of_stopped P _ (ProgressOn.isTerminated_of_stopped hgo)] at h
      obtain ⟨rfl, rfl⟩ := Prod.mk.inj h
      exact ⟨t, ht, .inl ⟨rfl, rfl, .inl rfl⟩⟩

/-- **A run ends in a state that it reaches**, up to the reason to stop, or it fails: in its start,
    or in an iteration from a state that it reaches. -/
theorem execute_reached (P : Plan σ ω η α) {r r' : Run σ ω η α}
    {outcome : Except (Failure α) Unit} (hr : r.progress.reason = .notTerminated)
    (h : (execute P).exec r = (outcome, r')) :
    (outcome = .ok () ∧ ∃ t, Reached P r t ∧ Leaves P t r') ∨
      ∃ e, outcome = .error e ∧ ((∃ t, (opening P).exec (begun P r) = (.error e, t)) ∨
        ∃ t u, Reached P r t ∧ t.progress.reason = .notTerminated ∧
          (iterate P).exec t = (.error e, u)) := by
  rw [exec_execute] at h
  have hbody : (body P).exec (begun P r) = (do
      opening P
      let p := (← get).progress
      if p.maxIters = 0 then stop .maxIters else iterations P (iterationsLeft p) :
        Action (Run σ ω η α) α Unit).exec (begun P r) := by rw [body_eq]
  rw [Action.exec_bind] at hbody
  rcases hopen : (opening P).exec (begun P r) with ⟨e | _, t⟩
  · rw [hopen] at hbody
    rw [hbody] at h
    obtain ⟨rfl, -⟩ := Prod.mk.inj h
    exact .inr ⟨e, rfl, .inl ⟨t, rfl⟩⟩
  -- What comes after the body changes neither progress nor memory.
  have ht : Reached P r t := .opened hopen
  have hleaves {v u : Run σ ω η α} (hvu : Leaves P v u) : Leaves P v (finished P r u) := by
    have hsolver : (finished P r u).solver = u.solver := by
      unfold finished released
      split <;> rfl
    unfold Leaves
    rw [hsolver, finished_progress]
    exact hvu
  rw [hopen] at hbody
  simp only [Action.exec_bind, Action.exec_get] at hbody
  split at hbody
  · next hcap =>
    have hrun : t.progress.reason = .notTerminated := by
      rw [(opening_progress hopen).2.2, begun_progress, hr]
    rw [exec_stop hrun] at hbody
    rw [hbody] at h
    obtain ⟨rfl, rfl⟩ := Prod.mk.inj h
    exact .inl ⟨rfl, t, ht, hleaves ⟨rfl, .inr ⟨.inl hcap, .maxIters, rfl⟩⟩⟩
  · rcases hloop : (iterations P (iterationsLeft t.progress)).exec t with ⟨e | _, u⟩
    · rw [hloop] at hbody
      rw [hbody] at h
      obtain ⟨rfl, -⟩ := Prod.mk.inj h
      obtain ⟨v, hv, ⟨hok, -⟩ | ⟨e', he, hgo, hit⟩⟩ := iterations_reached P _ ht hloop
      · simp at hok
      · obtain rfl := Except.error.inj he
        exact .inr ⟨e, rfl, .inr ⟨v, u, hv, hgo, hit⟩⟩
    · rw [hloop] at hbody
      rw [hbody] at h
      obtain ⟨rfl, rfl⟩ := Prod.mk.inj h
      obtain ⟨v, hv, ⟨-, hsame⟩ | ⟨e', he, -⟩⟩ := iterations_reached P _ ht hloop
      · exact .inl ⟨rfl, v, hv, hleaves hsame⟩
      · simp at he

/-! ### Starts and stopping rules -/

/-- A run that the stopping rules let go on: the solver does not stop it, and the cap is not
    reached. -/
theorem of_ruling_eq_running {c : RunConfig α} {p : Progress α} {own : Reason}
    (h : ruling c p own = .notTerminated) :
    own = .notTerminated ∧ (p.iter : Int) < p.maxIters := by
  unfold ruling at h
  split at h
  · next hown => simp [h, Reason.isTerminal] at hown
  · next hown =>
    split at h
    · simp at h
    · next hcap => exact ⟨by simpa using hown, by omega⟩

/-- The progress after a solver has been initialised. -/
def started (p : Progress α) (report? : Option (Report α)) : Progress α :=
  match report? with
  | some report => (p.update report).1
  | none => p

/-- The start of a run shows its point, what is known there, and no best cost. -/
theorem seeded_fields (x : Tensor α) (maxIters : Int) (cost? : Option α)
    (gradient? hessian? : Option (Tensor α)) :
    (seeded x maxIters cost? gradient? hessian?).param = x ∧
      (seeded x maxIters cost? gradient? hessian?).cost = cost?.getD Scalar.infinity ∧
      (seeded x maxIters cost? gradient? hessian?).gradient = gradient? ∧
      (seeded x maxIters cost? gradient? hessian?).bestCost = Scalar.infinity := by
  cases cost? <;> cases gradient? <;> cases hessian? <;> exact ⟨rfl, rfl, rfl, rfl⟩

/-! ### From the parts to the whole -/

section
variable {P : Plan σ ω η α} {r : Run σ ω η α} {E : Failure α → Prop}

/-- What an iteration ends in, told by its step, the solver's own stopping rule and the observers, with
    what the host and the counts have come to. -/
theorem ends_iterate_watched {Q : Progress α → σ → Host ω → Counts → Prop}
    {W : List (Watch η) → Prop} (hr : r.progress.reason = .notTerminated)
    (hstep : (P.solver.step P.setting r.progress).Ends ⟨r.solver, r.session⟩ (fun report w =>
      (∀ e, inspection P r.session.counts (counted r report w) = .error e → E e) ∧
      ∀ session : Session ω, session.host = w.session.host → session.counts = w.session.counts →
        (P.solver.terminate (r.progress.update report).1.increment).Ends ⟨w.solver, session⟩
          (fun own v => Q { (r.progress.update report).1.increment with
            reason := ruling P.config (r.progress.update report).1.increment own }
            v.solver v.session.host v.session.counts) E) E)
    (hwatched : ∀ p notes isNewBest b, (Watches.iteration P.observer p notes isNewBest).Ends
      ⟨r.observers, b⟩ (fun _ ws => W ws.list) E) :
    (iterate P).Ends r (fun _ r' => Q r'.progress r'.solver r'.session.host r'.session.counts ∧
      W r'.observers) E := by
  -- The checks fail, or the observers are called.
  have hdisplay {report : Report α} {w : Workspace σ ω}
      (hfound : ∀ e, inspection P r.session.counts (counted r report w) = .error e → E e) :
      (display P r.session.counts report.notes (r.progress.update report).2).Ends (counted r report w)
        (fun _ shown => W shown.observers) E := by
    refine .intro ?_ ?_
    · rintro ⟨⟩ shown hshow
      rw [exec_display] at hshow
      split at hshow
      · cases hshow
      · rw [exec_onWatches] at hshow
        obtain ⟨hok, rfl⟩ := Prod.mk.inj hshow
        exact (hwatched _ _ _ _).of_ok (Prod.ext hok rfl)
    · intro e shown hshow
      rw [exec_display] at hshow
      split at hshow
      · next hinspected =>
        obtain ⟨he, -⟩ := Prod.mk.inj hshow
        obtain rfl := Except.error.inj he
        exact hfound _ hinspected
      · rw [exec_onWatches] at hshow
        exact (hwatched _ _ _ _).of_error (Prod.ext (Prod.mk.inj hshow).1 rfl)
  refine .intro ?_ ?_
  · rintro ⟨⟩ r' hok
    obtain ⟨report, w, shown, own, v, hexec, hshow, hown, rfl⟩ := (iterate_ok_iff P hr).1 hok
    -- What is shown does not change what the step has left.
    have hframe := display_frame hshow
    obtain ⟨hfound, hends⟩ := hstep.of_ok hexec
    have hended := hends shown.session hframe.host hframe.counts
    have hobservers : W shown.observers := (hdisplay hfound).of_ok hshow
    rw [hframe.progress, hframe.solver] at hown
    unfold ruled
    rw [hframe.progress]
    exact ⟨hended.of_ok hown, hobservers⟩
  · intro e r' herror
    obtain ⟨w, hexec, -⟩ | ⟨report, w, hexec, hshow | ⟨shown, v, hshow, hown, -⟩⟩ :=
      iterate_error_cases P hr herror
    · exact hstep.of_error hexec
    · exact (hdisplay (hstep.of_ok hexec).1).of_error hshow
    · have hframe := display_frame hshow
      rw [hframe.progress, hframe.solver] at hown
      exact ((hstep.of_ok hexec).2 shown.session hframe.host hframe.counts).of_error hown

/-- The same where nothing is said of the observers. -/
theorem ends_iterate_hosted {Q : Progress α → σ → Host ω → Counts → Prop}
    (hr : r.progress.reason = .notTerminated)
    (hstep : (P.solver.step P.setting r.progress).Ends ⟨r.solver, r.session⟩ (fun report w =>
      (∀ e, inspection P r.session.counts (counted r report w) = .error e → E e) ∧
      ∀ session : Session ω, session.host = w.session.host → session.counts = w.session.counts →
        (P.solver.terminate (r.progress.update report).1.increment).Ends ⟨w.solver, session⟩
          (fun own v => Q { (r.progress.update report).1.increment with
            reason := ruling P.config (r.progress.update report).1.increment own }
            v.solver v.session.host v.session.counts) E) E)
    (hwatched : ∀ p notes isNewBest ws,
      (Watches.iteration P.observer p notes isNewBest).Ends ws (fun _ _ => True) E) :
    (iterate P).Ends r (fun _ r' => Q r'.progress r'.solver r'.session.host r'.session.counts) E :=
  (ends_iterate_watched (W := fun _ => True) hr hstep fun p notes isNewBest _ =>
    hwatched p notes isNewBest _).mono fun _ _ h => h.1

/-- What the start of a run ends in, told by the initialisation of the solver and by the observers. -/
theorem ends_opening_watched {Q : Progress α → σ → Host ω → Counts → Prop}
    {W : List (Watch η) → Prop}
    (hinit : (P.solver.init P.setting r.progress).Ends ⟨r.solver, r.session⟩
      (fun report? w => Q (started r.progress report?) w.solver w.session.host w.session.counts) E)
    (hintroduced : ∀ name notes b,
      (Watches.init P.observer name notes).Ends ⟨r.observers, b⟩ (fun _ ws => W ws.list) E) :
    (opening P).Ends r (fun _ r' => Q r'.progress r'.solver r'.session.host r'.session.counts ∧
      W r'.observers) E := by
  refine .intro ?_ ?_
  -- If the opening succeeds, then both of its parts have.
  · rintro ⟨⟩ r' hok
    rw [exec_opening] at hok
    rcases hexec : (P.solver.init P.setting r.progress).exec ⟨r.solver, r.session⟩ with
      ⟨_ | report?, w⟩
    · simp [hexec] at hok
    · rw [hexec] at hok
      simp only [exec_onWatches] at hok
      obtain ⟨hshown, rfl⟩ := Prod.mk.inj hok
      exact ⟨hinit.of_ok hexec, (hintroduced _ _ _).of_ok (Prod.ext hshown rfl)⟩
  -- If it fails, then in one of them.
  · intro e r' herror
    rw [exec_opening] at herror
    rcases hexec : (P.solver.init P.setting r.progress).exec ⟨r.solver, r.session⟩ with
      ⟨e' | report?, w⟩
    · rw [hexec] at herror
      obtain rfl := Except.error.inj (Prod.mk.inj herror).1
      exact hinit.of_error hexec
    · rw [hexec] at herror
      simp only [exec_onWatches] at herror
      exact (hintroduced _ _ _).of_error (Prod.ext (Prod.mk.inj herror).1 rfl)

/-- The same where nothing is said of the observers. -/
theorem ends_opening_hosted {Q : Progress α → σ → Host ω → Counts → Prop}
    (hinit : (P.solver.init P.setting r.progress).Ends ⟨r.solver, r.session⟩
      (fun report? w => Q (started r.progress report?) w.solver w.session.host w.session.counts) E)
    (hintroduced : ∀ name notes ws,
      (Watches.init P.observer name notes).Ends ws (fun _ _ => True) E) :
    (opening P).Ends r (fun _ r' => Q r'.progress r'.solver r'.session.host r'.session.counts) E :=
  (ends_opening_watched (W := fun _ => True) hinit fun name notes _ =>
    hintroduced name notes _).mono fun _ _ h => h.1

variable {Q : Progress α → σ → Counts → Prop}

/-- The same where nothing is said of the host. -/
theorem ends_iterate (hr : r.progress.reason = .notTerminated)
    (hstep : (P.solver.step P.setting r.progress).Ends ⟨r.solver, r.session⟩ (fun report w =>
      (∀ e, inspection P r.session.counts (counted r report w) = .error e → E e) ∧
      ∀ session : Session ω, session.counts = w.session.counts →
        (P.solver.terminate (r.progress.update report).1.increment).Ends ⟨w.solver, session⟩
          (fun own v => Q { (r.progress.update report).1.increment with
            reason := ruling P.config (r.progress.update report).1.increment own }
            v.solver v.session.counts) E) E)
    (hwatched : ∀ p notes isNewBest ws,
      (Watches.iteration P.observer p notes isNewBest).Ends ws (fun _ _ => True) E) :
    (iterate P).Ends r (fun _ r' => Q r'.progress r'.solver r'.session.counts) E :=
  ends_iterate_hosted (Q := fun p s _ counts => Q p s counts) hr
    (hstep.mono fun _ _ h => ⟨h.1, fun session _ hcounts => h.2 session hcounts⟩) hwatched

/-- **The start of a run** ends as the initialisation of its solver does, unless an observer fails. -/
theorem ends_opening (hinit : (P.solver.init P.setting r.progress).Ends ⟨r.solver, r.session⟩
      (fun report? w => Q (started r.progress report?) w.solver w.session.counts) E)
    (hintroduced : ∀ name notes ws,
      (Watches.init P.observer name notes).Ends ws (fun _ _ => True) E) :
    (opening P).Ends r (fun _ r' => Q r'.progress r'.solver r'.session.counts) E :=
  ends_opening_hosted (Q := fun p s _ counts => Q p s counts) hinit hintroduced

end

/-! ### Contracts -/

/-- What the parts of a run promise. -/
structure Contract (P : Plan σ ω η α) (J K : Progress α → σ → Prop) (E : Failure α → Prop) :
    Prop where
  /-- Stopping for a reason that does not come from an iteration. -/
  stopped : ∀ {p s reason}, p.maxIters = 0 ∨ P.config.guarded = true → K p s →
    K { p with reason := reason } s
  step : ∀ {p s} (session : Session ω), K p s → p.reason = .notTerminated →
    (P.solver.step P.setting p).Ends ⟨s, session⟩
      (fun report w => J (p.update report).1.increment w.solver) E
  /-- What debug mode finds after a step. -/
  inspected : ∀ {r : Run σ ω η α} {report w e}, K r.progress r.solver →
    r.progress.reason = .notTerminated →
    (P.solver.step P.setting r.progress).exec ⟨r.solver, r.session⟩ = (.ok report, w) →
    inspection P r.session.counts (counted r report w) = .error e → E e
  terminate : ∀ {p s} (session : Session ω), J p s →
    (P.solver.terminate p).Ends ⟨s, session⟩
      (fun own w => K { p with reason := ruling P.config p own } w.solver) E
  introduced : ∀ name notes ws,
    (Watches.init P.observer name notes).Ends ws (fun _ _ => True) E
  watched : ∀ p notes isNewBest ws,
    (Watches.iteration P.observer p notes isNewBest).Ends ws (fun _ _ => True) E

namespace Contract

variable {P : Plan σ ω η α} {J K : Progress α → σ → Prop} {E : Failure α → Prop}

/-- An iteration. -/
theorem iterate (h : Contract P J K E) {r : Run σ ω η α}
    (hr : r.progress.reason = .notTerminated) (hK : K r.progress r.solver) :
    (iterate P).Ends r (fun _ r' => K r'.progress r'.solver) E := by
  refine ends_iterate (Q := fun p s _ => K p s) hr ?_ h.watched
  refine (h.step r.session hK hr).executed.mono fun report w hw => ?_
  exact ⟨fun e he => h.inspected hK hr hw.1 he, fun session _ => h.terminate session hw.2⟩

/-- What the solver promises of its initialisation holds after the start of a run. -/
theorem opening (h : Contract P J K E) {r : Run σ ω η α}
    (hinit : (P.solver.init P.setting r.progress).Ends ⟨r.solver, r.session⟩
      (fun report? w => K (started r.progress report?) w.solver) E) :
    (opening P).Ends r (fun _ r' => K r'.progress r'.solver) E :=
  ends_opening (Q := fun p s _ => K p s) hinit h.introduced

/-- What the solver promises of its initialisation, when the body of a run begins. -/
def Inits (P : Plan σ ω η α) (r : Run σ ω η α) (K : Progress α → σ → Prop)
    (E : Failure α → Prop) : Prop :=
  ∀ session, (P.solver.init P.setting r.progress).Ends ⟨r.solver, session⟩
    (fun report? w => K (started r.progress report?) w.solver) E

/-- So a run that keeps a contract starts where it holds. -/
theorem opening_begun (h : Contract P J K E) {r : Run σ ω η α} (hinit : Inits P r K E) :
    (Run.opening P).Ends (begun P r) (fun _ r' => K r'.progress r'.solver) E := by
  have hsolver : (begun P r).solver = r.solver := by
    unfold begun
    by_cases hg : P.config.guarded <;> simp only [hg] <;> rfl
  refine h.opening ?_
  rw [begun_progress, hsolver]
  exact hinit _

/-- **Every state that a run reaches** keeps what the solver promises. -/
theorem reached (h : Contract P J K E) {r t : Run σ ω η α} (hinit : Inits P r K E)
    (ht : Reached P r t) : K t.progress t.solver := by
  induction ht with
  | opened hopen => exact (h.opening_begun hinit).of_ok hopen
  | iterated _ hgo _ hit ih => exact (h.iterate hgo ih).of_ok hit

/-- **A whole run** keeps what the solver promises, and fails only as its parts may. -/
theorem execute (h : Contract P J K E) {r : Run σ ω η α} (hr : r.progress.reason = .notTerminated)
    (hinit : Inits P r K E) : (execute P).Ends r (fun _ r' => K r'.progress r'.solver) E := by
  refine .intro ?_ ?_
  · rintro ⟨⟩ r' hok
    obtain ⟨-, t, ht, hsolver, hprogress⟩ | ⟨e, he, -⟩ := execute_reached P hr hok
    -- The last state is the one reached last, apart from the reason to stop.
    · have hK := h.reached hinit ht
      rw [hsolver]
      obtain hsame | ⟨hstop, reason, hsame⟩ := hprogress
      · rw [hsame]
        exact hK
      · rw [hsame]
        exact h.stopped hstop hK
    · simp at he
  · intro e r' herror
    obtain ⟨hok, -⟩ | ⟨e', he, ⟨t, hopen⟩ | ⟨t, u, ht, hgo, hit⟩⟩ := execute_reached P hr herror
    · simp at hok
    · obtain rfl := Except.error.inj he
      exact (h.opening_begun hinit).of_error hopen
    · obtain rfl := Except.error.inj he
      exact (h.iterate hgo (h.reached hinit ht)).of_error hit

end Contract

end Minimization.Run
