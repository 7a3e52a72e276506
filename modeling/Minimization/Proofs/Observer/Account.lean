import Minimization.Observer.Kinds
import Minimization.Proofs.Method.Coherence
import Minimization.Proofs.Observer.Rounds
import Minimization.Proofs.Progress.Summary
import Minimization.Proofs.Run.Finished

namespace Minimization

/-!
# What the observers of a run are told

What a run tells its observers follows from what its solver reports.

* `Chronicle.isRecord` — whether a report would set a new best, told by what was reported before.
* `Account` — what a solver says in the course of a run: its name and its reports.
* `Account.progress` — the progress when so many iterations are complete; `Account.diary` — what an
  observer is told, page by page, depending on its mode.
* `Run.Introduction`, `Run.Round` — the start of a run and an iteration, with the observers told one
  after another.
* `Run.Attended` — what is told and in which order, from the start of a run to its end.
* `Run.observers_attend` — it is so in every run that returns.
-/

variable {σ ω η α : Type}

/-! ### The account of a run -/

/-- The report would set a new best: its cost lies below infinity and below every number that has been
    reported as a cost. -/
def Chronicle.isRecord [Scalar α] (log : Chronicle α) (report : Report α) : Bool :=
  report.cost.any fun c =>
    Scalar.lt c Scalar.infinity && log.costs.all fun d => Scalar.isNaN d || Scalar.lt c d

/-- The merge tells whether a report sets a new best. -/
theorem Chronicle.Summary.update_eq [Scalar α] [Scalar.Ordered α] {x : Tensor α} {maxIters : Int}
    {cost? : Option α} {gradient? hessian? : Option (Tensor α)} {log : Chronicle α} {p : Progress α}
    (h : Summary x maxIters cost? gradient? hessian? log p) (report : Report α) :
    (p.update report).2 = log.isRecord report := by
  rw [Bool.eq_iff_iff, h.update_iff report]
  simp [isRecord, Option.any_eq_true, or_iff_not_imp_left]

/-- What a solver says in the course of a run. -/
structure Account (α : Type) where
  /-- The name under which it is introduced. -/
  solver : String
  /-- What it reports of its initialisation, if anything. -/
  initial : Option (Report α)
  /-- What it reports of the iterations, in order. -/
  reports : List (Report α)

namespace Account

/-- What goes with the introduction. -/
def notes (a : Account α) : Notes α := (a.initial.map (·.notes)).getD []

/-- What has happened to the progress when `k` iterations are complete. -/
def log (a : Account α) (k : ℕ) : Chronicle α :=
  a.initial.toList.map .report ++
    (a.reports.take k).flatMap fun report => [.report report, .increment]

variable [Scalar α]

/-- The progress when `k` iterations are complete. -/
def progress (a : Account α) (start : Progress α) (k : ℕ) : Progress α := start.after (a.log k)

/-- The iteration behind the first `k` is shown to the observers of a mode. -/
def listens (a : Account α) (k : ℕ) (report : Report α) (mode : ObserverMode) : Bool :=
  mode.picks (k + 1) ((a.log k).isRecord report)

/-- **What an observer is told**: unless it is switched off the introduction, and then the iterations
    that its mode picks, each with the progress that it has led to. -/
def diary (a : Account α) (start : Progress α) (mode : ObserverMode) : List (Page α) :=
  (if mode.introduced then [.start a.solver a.notes] else []) ++
    a.reports.zipIdx.filterMap fun (report, k) =>
      if a.listens k report mode then some (.iteration (a.progress start (k + 1)) report.notes)
      else none

variable {a : Account α} {k : ℕ} {report : Report α}

omit [Scalar α] in
/-- An iteration is a merge and an increment. -/
theorem log_succ (h : a.reports[k]? = some report) :
    a.log (k + 1) = a.log k ++ [.report report, .increment] := by
  simp [log, List.take_add_one, h]

/-- The next iteration merges its report, and is counted. -/
theorem progress_succ (start : Progress α) (h : a.reports[k]? = some report) :
    a.progress start (k + 1) = ((a.progress start k).update report).1.increment := by
  unfold progress Progress.after
  rw [log_succ h, List.foldl_append]
  rfl

end Account

namespace Run

variable [Scalar α] {P : Plan σ ω η α} {r u : Run σ ω η α} {n : ℕ}

/-- What the solver reports of an iteration from `t`. -/
def reported (P : Plan σ ω η α) (t : Run σ ω η α) : Report α :=
  match (P.solver.step P.setting t.progress).exec ⟨t.solver, t.session⟩ with
  | (.ok report, _) => report
  | (.error _, _) => {}

/-- What the solver says in the start of a run and the first `n` iterations. -/
def account (P : Plan σ ω η α) (r : Run σ ω η α) (n : ℕ) : Account α :=
  let reports := (List.range n).map fun k => reported P (stateAfter P r k)
  match (P.solver.init P.setting r.progress).exec ⟨r.solver, (begun P r).session⟩ with
  | (.ok initial, w) => ⟨P.solver.name w.solver, initial, reports⟩
  | (.error _, w) => ⟨P.solver.name w.solver, none, reports⟩

/-- The reports of an account are those of the iterations, in turn. -/
theorem reports_account (P : Plan σ ω η α) (r : Run σ ω η α) (n : ℕ) :
    (account P r n).reports = (List.range n).map fun k => reported P (stateAfter P r k) := by
  unfold account
  split <;> rfl

/-- The report of an iteration is in the place of its number. -/
theorem getElem_reports_account {k : ℕ} (hk : k < n) :
    (account P r n).reports[k]? = some (reported P (stateAfter P r k)) := by
  rw [reports_account, List.getElem?_map, List.getElem?_range hk]
  rfl

/-! ### The run along its account -/

/-- The start of a run, from `t` to `t'`: the solver is initialised, and the observers are told one after
    another. -/
def Introduction (P : Plan σ ω η α) (a : Account α) (t t' : Run σ ω η α) : Prop :=
  ∃ w after, (P.solver.init P.setting t.progress).exec ⟨t.solver, t.session⟩ = (.ok a.initial, w) ∧
    a.solver = P.solver.name w.solver ∧
    ((Watches.listeners ObserverMode.introduced t.observers).forM
      (Watches.tell P.observer (.start a.solver a.notes))).exec ⟨t.observers, w.session.logbook⟩ =
        (.ok (), after) ∧
    t' = ⟨a.progress t.progress 0, w.solver, { w.session with logbook := after.logbook }, after.list⟩

/-- An iteration from `t` to `t'`: the solver reports, what it reports is merged and counted, the
    observers that listen are told one after another, and the stopping rules are asked. -/
def Round (P : Plan σ ω η α) (report : Report α) (listens : ObserverMode → Bool)
    (t t' : Run σ ω η α) : Prop :=
  ∃ w after own v, (P.solver.step P.setting t.progress).exec ⟨t.solver, t.session⟩ = (.ok report, w) ∧
    ((Watches.listeners listens t.observers).forM
      (Watches.tell P.observer (.iteration (t.progress.update report).1.increment report.notes))).exec
        ⟨t.observers, w.session.logbook.emit debugLevel Logbook.runLogger fun _ =>
          iterationLine (P.solver.name w.solver) (t.progress.update report).1.increment⟩ =
        (.ok (), after) ∧
    (P.solver.terminate (t.progress.update report).1.increment).exec
      ⟨w.solver, { w.session with logbook := after.logbook }⟩ = (.ok own, v) ∧
    t' = ruled P.config ⟨(t.progress.update report).1.increment, w.solver,
      { w.session with logbook := after.logbook }, after.list⟩ own v

/-- **A run from `r` to `u` and those who watch it**, told by the account that the solver gives. -/
structure Attended (P : Plan σ ω η α) (r u : Run σ ω η α) (a : Account α) : Prop where
  /-- Observers that keep a diary have been told what the account says. -/
  diaries : (execute P.diarised).exec (r.diarised fun _ => []) =
    (.ok (), u.diarised (a.diary r.progress))
  /-- They were all introduced to the solver before the first iteration, … -/
  introduction : Introduction P a (begun P r) (stateAfter P r 0)
  /-- … and each iteration ends in the progress that the account says … -/
  progress : ∀ k < a.reports.length, (stateAfter P r k).progress = a.progress r.progress k
  /-- … and is shown to those who listen, in the order in which they were added. -/
  rounds : ∀ k report, a.reports[k]? = some report →
    Round P report (a.listens k report) (stateAfter P r k) (stateAfter P r (k + 1))
  /-- The run has made these iterations, and after the last one no observer was called. -/
  iter : u.progress.iter = a.reports.length
  observers : u.observers = (stateAfter P r a.reports.length).observers

/-! ### Start, iterations and end -/

/-- The start of a run succeeds only if its parts do. -/
theorem opening_parts {t : Run σ ω η α} (h : (opening P).exec r = (.ok (), t)) :
    ∃ report? w after,
      (P.solver.init P.setting r.progress).exec ⟨r.solver, r.session⟩ = (.ok report?, w) ∧
      (Watches.init P.observer (P.solver.name w.solver) ((report?.map (·.notes)).getD [])).exec
        ⟨r.observers, w.session.logbook⟩ = (.ok (), after) ∧
      t = watched after (opened r report? w) := by
  -- The initialisation either fails or hands its report to the observers.
  rw [exec_opening] at h
  rcases hinit : (P.solver.init P.setting r.progress).exec ⟨r.solver, r.session⟩ with
    ⟨_ | report?, w⟩
  · simp [hinit] at h
  · simp only [hinit, exec_onWatches] at h
    obtain ⟨hok, rfl⟩ := Prod.mk.inj h
    exact ⟨report?, w, _, rfl, Prod.ext hok rfl, rfl⟩

/-- The start of a run introduces its observers to the solver. -/
theorem Goes.introduction (h : Goes P r n) :
    Introduction P (account P r n) (begun P r) (stateAfter P r 0) := by
  obtain ⟨report?, w, after, hinit, hshown, hfirst⟩ := opening_parts h.opening_eq
  -- The account is made from the same initialisation.
  have haccount : account P r n = ⟨P.solver.name w.solver, report?, (account P r n).reports⟩ := by
    rw [reports_account]
    unfold account
    rw [← (begun_course P r).1, ← (begun_course P r).2.1, hinit]
  rw [Watches.init_eq_tell] at hshown
  rw [haccount, hfirst]
  refine ⟨w, after, hinit, rfl, hshown, ?_⟩
  cases report? <;> rfl

/-- An iteration that succeeds. -/
theorem round_of_iterate {t t' : Run σ ω η α} {k : ℕ} {isRecord : Bool}
    (hgo : t.progress.reason = .notTerminated) (hiter : t.progress.iter = k)
    (hrecord : (t.progress.update (reported P t)).2 = isRecord)
    (h : (iterate P).exec t = (.ok (), t')) :
    Round P (reported P t) (fun mode => mode.picks (k + 1) isRecord) t t' := by
  obtain ⟨report, w, shown, own, v, hstep, hshow, hown, rfl⟩ := (iterate_ok_iff P hgo).1 h
  have hreported : reported P t = report := by
    unfold reported
    rw [hstep]
  rw [hreported] at hrecord ⊢
  rw [exec_display] at hshow
  split at hshow
  · cases hshow
  · rw [exec_onWatches] at hshow
    obtain ⟨hok, rfl⟩ := Prod.mk.inj hshow
    have htold := Watches.iteration_eq_tell (Prod.ext hok rfl)
    -- An observer listens to an iteration where its mode picks it: by its number, or because the cost is
    -- a record.
    have hlistens (mode : ObserverMode) : mode.shown α
        (counted t report w).progress.iter (t.progress.update report).2 =
          mode.picks (k + 1) isRecord := by
      rw [hrecord, ← ObserverMode.shown_eq_picks (α := α)]
      congr 1
      simp [counted, hiter]
    simp only [hlistens] at htold
    exact ⟨w, _, own, v, hstep, htold, hown, rfl⟩

/-! ### Runs from a fresh start -/

section
variable [Scalar.Ordered α] {x : Tensor α} {maxIters : Int} {cost? : Option α}
  {gradient? hessian? : Option (Tensor α)}

omit [Scalar α] [Scalar.Ordered α] in
/-- The reason is nothing that tells apart two runs that go on. -/
theorem progress_eq_of_running {p q : Progress α} {reason : Reason}
    (h : p = { q with reason := reason }) (hp : p.reason = .notTerminated)
    (hq : q.reason = .notTerminated) : p = q := by
  rw [h] at hp ⊢
  obtain rfl : reason = .notTerminated := hp
  rw [← hq]

/-- The progress after every iteration is what the account says, up to the reason to stop. -/
theorem Goes.progress_account (hr : r.progress = seeded x maxIters cost? gradient? hessian?)
    (h : Goes P r n) {k : ℕ} (hk : k ≤ n) : ∃ reason, (stateAfter P r k).progress =
      { (account P r n).progress r.progress k with reason := reason } := by
  -- The reason is left open: the termination test assigns it, which the account does not follow.
  induction k with
  | zero =>
    obtain ⟨w, after, -, -, -, hfirst⟩ := h.introduction
    refine ⟨((account P r n).progress r.progress 0).reason, ?_⟩
    rw [hfirst, (begun_course P r).1]
  | succ k ih =>
    obtain ⟨reason, hprogress⟩ := ih (Nat.le_of_succ_le hk)
    have hgo := h.running k hk
    -- A run that goes on has no reason yet, so its progress is that of the account.
    have hsame := progress_eq_of_running hprogress hgo
      (by rw [hr]; exact (Chronicle.Summary.after ..).reason)
    obtain ⟨report, w, own, session, v, hstep, -, hnext, -⟩ :=
      iterate_reports P hgo (h.iterate_eq hk)
    have hreported : reported P (stateAfter P r k) = report := by
      unfold reported
      rw [hstep]
    rw [hsame, ← hreported, ← Account.progress_succ _ (getElem_reports_account hk)] at hnext
    exact ⟨_, hnext⟩

/-- As long as the run goes on there is no reason to stop. -/
theorem Goes.progress_account_of_lt (hr : r.progress = seeded x maxIters cost? gradient? hessian?)
    (h : Goes P r n) {k : ℕ} (hk : k < n) :
    (stateAfter P r k).progress = (account P r n).progress r.progress k := by
  obtain ⟨reason, hprogress⟩ := h.progress_account hr hk.le
  exact progress_eq_of_running hprogress (h.running k hk)
    (by rw [hr]; exact (Chronicle.Summary.after ..).reason)

/-- The merge of an iteration sets a new best if its report is a record. -/
theorem Goes.isNewBest_account (hr : r.progress = seeded x maxIters cost? gradient? hessian?)
    (h : Goes P r n) {k : ℕ} (hk : k < n) (report : Report α) :
    ((stateAfter P r k).progress.update report).2 = ((account P r n).log k).isRecord report := by
  rw [h.progress_account_of_lt hr hk, hr]
  exact (Chronicle.Summary.after x maxIters cost? gradient? hessian? _).update_eq report

/-- The iterations are counted from zero on. -/
theorem Goes.iter_account (hr : r.progress = seeded x maxIters cost? gradient? hessian?)
    (h : Goes P r n) {k : ℕ} (hk : k ≤ n) : (stateAfter P r k).progress.iter = k := by
  have hzero : r.progress.iter = 0 := by
    rw [hr]
    exact (Chronicle.Summary.seeded x maxIters cost? gradient? hessian?).iter
  rw [(h.mono hk).iter_eq, hzero, Nat.zero_add]

/-- An iteration is shown to those who listen. -/
theorem Goes.round (hr : r.progress = seeded x maxIters cost? gradient? hessian?)
    (h : Goes P r n) {k : ℕ} {report : Report α} (hk : (account P r n).reports[k]? = some report) :
    Round P report ((account P r n).listens k report) (stateAfter P r k) (stateAfter P r (k + 1)) := by
  have hlt : k < n := by
    have hbound := (List.getElem?_eq_some_iff.1 hk).1
    rwa [reports_account, List.length_map, List.length_range] at hbound
  obtain rfl : reported P (stateAfter P r k) = report :=
    Option.some.inj ((getElem_reports_account hlt).symm.trans hk)
  exact round_of_iterate (h.running k hlt) (h.iter_account hr hlt.le)
    (h.isNewBest_account hr hlt _) (h.iterate_eq hlt)

/-- What an iteration adds to a diary. -/
theorem Goes.iterationPages_account (hr : r.progress = seeded x maxIters cost? gradient? hessian?)
    (h : Goes P r n) {k : ℕ} (hk : k < n) (mode : ObserverMode) :
    iterationPages P (stateAfter P r k) mode =
      (if (account P r n).listens k (reported P (stateAfter P r k)) mode then
        some (Page.iteration ((account P r n).progress r.progress (k + 1))
          (reported P (stateAfter P r k)).notes)
      else none).toList := by
  -- The step of this iteration is the one whose report the account keeps.
  obtain ⟨report, w, shown, own, v, hstep, -⟩ :=
    (iterate_ok_iff P (h.running k hk)).1 (h.iterate_eq hk)
  have hreported : reported P (stateAfter P r k) = report := by
    unfold reported
    rw [hstep]
  have hnext : (account P r n).progress r.progress (k + 1) =
      ((stateAfter P r k).progress.update report).1.increment := by
    rw [Account.progress_succ _ (getElem_reports_account hk), hreported,
      h.progress_account_of_lt hr hk]
  have hiter : ((((stateAfter P r k).progress.update report).1.increment.iter : ℕ) : ℤ) =
      ((k + 1 : ℕ) : ℤ) := by
    simp [h.iter_account hr hk.le]
  unfold iterationPages Account.listens
  rw [hstep, hreported, hnext]
  simp only [hiter, ObserverMode.shown_eq_picks, h.isNewBest_account hr hk]
  split <;> rfl

/-- **The diaries of a run** are those of its account. -/
theorem Goes.diary_account (hr : r.progress = seeded x maxIters cost? gradient? hessian?)
    (h : Goes P r n) : diary P r n = (account P r n).diary r.progress := by
  funext mode
  -- First the page of the start, then one page for each iteration that the mode picks.
  have hstart : startPages P (begun P r) mode = if mode.introduced then
      [.start (account P r n).solver (account P r n).notes] else [] := by
    obtain ⟨w, after, hinit, hname, -⟩ := h.introduction
    unfold startPages
    rw [hinit, hname]
    rfl
  -- The account numbers its reports; the diary goes by the number of the iteration.
  have hindexed : (account P r n).reports.zipIdx =
      (List.range n).map fun k => (reported P (stateAfter P r k), k) := by
    rw [reports_account]
    refine List.ext_getElem (by simp) fun k _ _ => ?_
    simp
  unfold diary Account.diary
  rw [hstart, hindexed, List.filterMap_map, List.filterMap_eq_flatMap_toList]
  congr 1
  refine List.flatMap_congr fun k hk => ?_
  exact h.iterationPages_account hr (List.mem_range.1 hk) mode

end

/-! ### The end of a run -/

omit [Scalar α] in
/-- Stopping does not look at the observers. -/
theorem stop_diarised (reason : Reason) (D : ObserverMode → List (Page α)) {t t' : Run σ ω η α}
    (h : (stop reason).exec t = (.ok (), t')) :
    (stop reason).exec (t.diarised D) = (.ok (), t'.diarised D) := by
  unfold stop at h ⊢
  simp only [Action.exec_bind, Action.exec_get, Action.exec_ofExcept] at h ⊢
  have hsame : (t.diarised D).progress = t.progress := rfl
  rw [hsame]
  cases hset : t.progress.setReason reason with
  | error e =>
    rw [hset] at h
    cases (Prod.mk.inj h).1
  | ok p =>
    rw [hset] at h
    obtain ⟨-, rfl⟩ := Prod.mk.inj h
    rfl

/-- The loop ends for observers with diaries as it does without. -/
theorem Halts.diarised {t t' : Run σ ω η α} (D : ObserverMode → List (Page α))
    (h : Halts P t (.ok (), t')) : Halts P.diarised (t.diarised D) (.ok (), t'.diarised D) := by
  rw [halts_ok_iff] at h ⊢
  obtain ⟨hstop, rfl⟩ | ⟨hgo, hi, rfl⟩ := h
  · exact .inl ⟨hstop, rfl⟩
  · exact .inr ⟨hgo, hi, rfl⟩

/-- The diaries at the end of a body that succeeds. -/
theorem body_diarised {t : Run σ ω η α} (h : (body P).exec (begun P r) = (.ok (), t)) :
    ∃ n, Goes P r n ∧ t.progress.iter = (stateAfter P r n).progress.iter ∧
      t.observers = (stateAfter P r n).observers ∧
      (body P.diarised).exec (begun P.diarised (r.diarised fun _ => [])) =
        (.ok (), t.diarised (diary P r n)) := by
  obtain ⟨hzero, hcap, hstop⟩ | ⟨n, hn, hcap, hhalts⟩ := body_ok_cases h
  -- Barred by a cap of zero, the run stops with nothing but its introduction.
  · obtain ⟨hgoes, hstate⟩ := hzero.diarised
    have hdiarised := stop_diarised .maxIters (diary P r 0) hstop
    rw [← hstate, ← hgoes.body_of_barred hcap] at hdiarised
    obtain rfl := stop_ok hstop
    exact ⟨0, hzero, rfl, rfl, hdiarised⟩
  · obtain ⟨hgoes, hstate⟩ := hn.diarised
    have hend := hhalts.diarised (diary P r n)
    rw [← hstate] at hend
    refine ⟨n, hn, ?_, ?_, hgoes.body_eq hcap hend⟩
    · obtain ⟨-, rfl⟩ | ⟨-, -, rfl⟩ := halts_ok_iff.1 hhalts <;> rfl
    · obtain ⟨-, rfl⟩ | ⟨-, -, rfl⟩ := halts_ok_iff.1 hhalts <;> rfl

/-- What comes after a body that succeeds adds nothing. -/
theorem finished_diarised (P : Plan σ ω η α) (r t : Run σ ω η α)
    (D D' : ObserverMode → List (Page α)) :
    finished P.diarised (r.diarised D) (t.diarised D') = (finished P r t).diarised D' := by
  unfold finished released
  have hguarded : P.diarised.config.guarded = P.config.guarded := rfl
  rw [hguarded]
  split <;> rfl

/-- **What the observers of a run are told.**  In every run that returns from a fresh start they are
    told what the account of the solver says, one after another in the order in which they were added:
    their introduction, and then the iterations that their mode picks. -/
theorem observers_attend [Scalar.Ordered α] (P : Plan σ ω η α) (r u : Run σ ω η α) (x : Tensor α)
    (maxIters : Int) (cost? : Option α) (gradient? hessian? : Option (Tensor α))
    (hr : r.progress = seeded x maxIters cost? gradient? hessian?)
    (h : (execute P).exec r = (.ok (), u)) :
    Attended P r u (account P r u.progress.iter) := by
  obtain ⟨t, hbody, rfl⟩ := (execute_ok_iff P).1 h
  obtain ⟨n, hn, hiter, hobservers, hdiaries⟩ := body_diarised hbody
  obtain ⟨hprogress, -, hsame, -⟩ := finished_course P r t
  -- The seeded progress begins at zero, so the counter is the number of iterations made.
  have hcount : (finished P r t).progress.iter = n := by
    rw [hprogress, hiter, hn.iter_account hr le_rfl]
  have hlength : (account P r n).reports.length = n := by simp [reports_account]
  rw [hcount]
  exact {
    diaries := by
      rw [← hn.diary_account hr]
      exact (execute_ok_iff P.diarised).2
        ⟨_, hdiaries, (finished_diarised P r t _ (diary P r n)).symm⟩
    introduction := hn.introduction
    progress := fun k hk => hn.progress_account_of_lt hr (hlength ▸ hk)
    rounds := fun k report hk => hn.round hr hk
    iter := by rw [hcount, hlength]
    observers := by rw [hlength, hsame, hobservers] }

/-- Steepest descent on the sphere, in front of an audience. -/
def audiencePlan : Plan (LineSearch (Exact ℚ)) Unit (Watcher (Exact ℚ)) (Exact ℚ) :=
  ⟨SteepestDescent.solver, Watcher.observer, ⟨curvedSphere, true⟩, ⟨3, -1.0, true⟩⟩

/-- From a point with a wrong cost on, for four who count iterations. -/
def audienceStart : Run (LineSearch (Exact ℚ)) Unit (Watcher (Exact ℚ)) (Exact ℚ) :=
  ⟨seeded (.ofVec .array ![3, 4]) 3 (some 0.0) none none, halvedSteps, .start (),
    [⟨.newBest, .counter []⟩, ⟨.never, .counter []⟩, ⟨⟨.every, 2⟩, .counter []⟩,
      ⟨.always, .counter []⟩]⟩

/-- Three iterations, and who is shown which. -/
theorem observers_attend_sphere :
    Scalar.Ordered (Exact ℚ) ∧
      (execute audiencePlan).exec audienceStart =
        (.ok (), ((execute audiencePlan).exec audienceStart).2) ∧
      Attended audiencePlan audienceStart ((execute audiencePlan).exec audienceStart).2
        (account audiencePlan audienceStart 3) ∧
      (((execute audiencePlan).exec audienceStart).2.observers.map fun w =>
        match w.memory with
        | .counter seen => seen
        | _ => []) = [[1], [], [2], [1, 2, 3]] := by
  have hok : (execute audiencePlan).exec audienceStart =
      (.ok (), ((execute audiencePlan).exec audienceStart).2) :=
    Action.exec_eq_of_isOk (by decide +kernel)
  have hiter : ((execute audiencePlan).exec audienceStart).2.progress.iter = 3 := by decide +kernel
  have hattended := observers_attend audiencePlan audienceStart _ (.ofVec .array ![3, 4]) 3 (some 0.0)
    none none rfl hok
  rw [hiter] at hattended
  exact ⟨inferInstance, hok, hattended, by decide +kernel⟩

end Run

end Minimization
