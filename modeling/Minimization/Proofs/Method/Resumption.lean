import Minimization.Proofs.Contract.Leaves
import Minimization.Proofs.Method.Fuse
import Minimization.Proofs.Method.Reopening
import Minimization.Proofs.Observer.Quiet

namespace Minimization

/-!
# Taking up a run after a failure

Beside the run of a built-in method there is one whose operator fails once.  Whatever the method, it
fails in its initialisation or in a step, and another call takes the run up from there if the method
can still do what it would have done.

* `Run.Goes.beside`, `Run.Goes.follow` — the iterations of two runs that keep to a bond.
* `Run.Escorted`, `Run.transience_bonded` — a run with such a failure beside one without.
* `Run.iterate_broken`, `Run.opening_broken` — where the failure strikes; `Run.Broken`,
  `Run.broken_of_error` — and what it leaves of the first call.
* `Method.Resumes` — a method that can do in another call what it would have done.
* `Run.Resumed`, `Run.resumed_opening`, `Run.resumed_iteration` — the iterations of the second call, from
  where the first one has started and from where it has come to.
* `Run.resumes_opening`, `Run.resumes_iteration` — how the second call ends.
-/

variable {ω ω' η η' α : Type}

namespace Run

open Bond

/-! ### Two runs that keep to a bond -/

section
variable {σ : Type} [Scalar α] {I : σ → Prop} {V : List (Watch η) → List (Watch η') → Prop}
  {B : Bond (Session ω) (Session ω')} {P : Plan σ ω η α} {P' : Plan σ ω' η' α} {r : Run σ ω η α}
  {q : Run σ ω' η' α} {m n k : ℕ}

/-- The states of two runs that both go on. -/
theorem Goes.beside (h : Plan.Bonded I V B P P')
    (hbegun : Beside B.states I V (begun P r) (begun P' q)) (hn : Goes P r n) (hn' : Goes P' q n) :
    Beside B.states I V (stateAfter P r n) (stateAfter P' q n) := by
  -- Both runs have made these iterations, so each of them succeeded on both sides.
  induction n with
  | zero =>
    have hopening := opening_bonded h.toJoined hbegun
    rw [hn.opening_eq, hn'.opening_eq] at hopening
    exact hopening.of_ok.2
  | succ n ih =>
    have hlast := Nat.lt_succ_self n
    have hiterate := iterate_bonded h (hn.running n hlast)
      (ih (hn.mono (Nat.le_succ n)) (hn'.mono (Nat.le_succ n)))
    rw [hn.iterate_eq hlast, hn'.iterate_eq hlast] at hiterate
    exact hiterate.of_ok.2

/-- A run that has come beside one that goes on goes on as well, if it cannot fail alone. -/
theorem Goes.follow (h : Plan.Bonded I V B P P') (hsecond : ∀ t, ¬ B.second t)
    (hcalm : ∀ ⦃s t⦄, B.states s t → raised P'.config t.host.interrupt = false)
    (hq : Goes P' q k) (hbeside : Beside B.states I V (stateAfter P r m) (stateAfter P' q k))
    (hn : Goes P r (m + n)) :
    Goes P' q (k + n) ∧ Beside B.states I V (stateAfter P r (m + n)) (stateAfter P' q (k + n)) := by
  -- On the number of iterations that follow: the second run cannot fail in any of them.
  induction n with
  | zero => exact ⟨hq, hbeside⟩
  | succ n ih =>
    have hlast : m + n < m + (n + 1) := by omega
    obtain ⟨hgoes, hstates⟩ := ih (hn.mono (by omega))
    have hgo := hn.running (m + n) hlast
    have hiterate := iterate_bonded h hgo hstates
    rw [hn.iterate_eq hlast] at hiterate
    obtain ⟨u, hu, hnext⟩ := hiterate.ok_of_ok fun t => hsecond t.session
    obtain rfl : stateAfter P' q (k + n + 1) = u := congrArg Prod.snd hu
    refine ⟨hgoes.next ?_ (hcalm hstates.session) (by rw [hu]; rfl), hnext⟩
    rw [hstates.progress]
    exact hgo

end

/-! ### A run with a failure beside one without -/

variable [Scalar α] {op : Operator ω α} {op' : Operator ω' α} {spent : ω' → Prop} {Q : η' → Prop}
  {F : Tensor α → Except (Failure α) α} {G H : Tensor α → Except (Failure α) (Tensor α)}
  {O : Observer η α} {O' : Observer η' α} {debug : Bool} {c : RunConfig α} {past : Prop}
  {i j : Interrupt} {d e : Counts} {I : Method α → Prop}

/-- Runs with the same progress and memory, of methods of one class.  Their sessions keep to a bond, and
    the observers of the second one do not fail. -/
abbrev Escorted (I : Method α → Prop) (Q : η' → Prop) (B : Bond (Session ω) (Session ω'))
    (r : Run (Method α) ω η α) (q : Run (Method α) ω' η' α) : Prop :=
  Beside B.states I (fun _ l => Watches.Attentive Q l) r q

omit [Scalar α] in
/-- Observers that do not fail have seen what is shown to them. -/
theorem exec_onWatches_quiet {σ : Type} {m : Action (Watches η') α Unit}
    (h : ∀ ws, Watches.Attentive Q ws.list →
      m.Ends ws (fun _ after => Watches.Attentive Q after.list) fun _ => False)
    {q : Run σ ω' η' α} (hq : Watches.Attentive Q q.observers) :
    ∃ after, (onWatches m).exec q = (.ok (), watched after q) ∧ Watches.Attentive Q after.list := by
  obtain ⟨⟨⟩, after, hexec, hafter⟩ := (h ⟨q.observers, q.session.logbook⟩ hq).exists_ok
  refine ⟨after, ?_, hafter⟩
  rw [exec_onWatches, hexec]

omit [Scalar α] in
/-- What is shown to them does not end the second run. -/
theorem onWatches_quiet {σ : Type} {I : σ → Prop} {m : Action (Watches η) α Unit}
    {m' : Action (Watches η') α Unit}
    (h : ∀ ws, Watches.Attentive Q ws.list →
      m'.Ends ws (fun _ after => Watches.Attentive Q after.list) fun _ => False) :
    ((transience spent past i j d e).run α I fun _ l => Watches.Attentive Q l).Related
      (onWatches (ω := ω) m) (onWatches (ω := ω') m') := by
  intro r q hrq
  -- The observers of the second side call through. Where those of the first side raise, there is nothing
  -- to show: only runs that succeed there are followed.
  obtain ⟨after, hexec, hafter⟩ := exec_onWatches_quiet h hrq.observers
  rw [exec_onWatches, hexec]
  cases (m.exec ⟨r.observers, r.session.logbook⟩).1 with
  | error e => exact .first trivial
  | ok _ => exact .ok ⟨hrq.session, hrq.memory, hafter, hrq.progress, hrq.solver⟩

/-- The plans of a run without the failure and of one with it. -/
theorem transience_bonded (hI : Method.Lasting I) (hop : op.Pointwise F G H)
    (hop' : op'.Transient spent F G H) (hO : O'.Quiet Q) :
    Plan.Bonded I (fun _ l => Watches.Attentive Q l) (transience spent past i j d e)
      (plan ⟨op, debug⟩ O c) (plan ⟨op', debug⟩ O' c) where
  hosts := transience_hosts hop hop' debug
  solver := (hI.bonded (transience_hosts hop hop' debug).toAbreast transience_nests
    (transience_hosts hop hop' debug)).toJoined
  introduced name notes := onWatches_quiet fun _ => hO.ends_init name notes
  shown p notes isNewBest := onWatches_quiet fun _ => hO.ends_iteration p notes isNewBest
  config := rfl
  step := (hI.bonded (transience_hosts hop hop' debug).toAbreast transience_nests
    (transience_hosts hop hop' debug)).step

/-- The sessions of two calls. -/
abbrev alongside (spent : ω' → Prop) (P : Plan (Method α) ω η α) (P' : Plan (Method α) ω' η' α)
    (r : Run (Method α) ω η α) (q : Run (Method α) ω' η' α) : Bond (Session ω) (Session ω') :=
  transience spent (spent q.session.host.memory) (begun P r).session.host.interrupt
    (begun P' q).session.host.interrupt r.session.counts q.session.counts

omit [Scalar α] in
/-- The states in which the bodies of two calls begin. -/
theorem begun_beside (spent : ω' → Prop) (P : Plan (Method α) ω η α) (P' : Plan (Method α) ω' η' α)
    {r : Run (Method α) ω η α} {q : Run (Method α) ω' η' α} (hprogress : q.progress = r.progress)
    (hsolver : q.solver = r.solver) (hm : I r.solver) (hq : Watches.Attentive Q q.observers) :
    Escorted I Q (alongside spent P P' r q) (begun P r) (begun P' q) := by
  obtain ⟨hp, hs, hcounts⟩ := begun_course P r
  obtain ⟨hp', hs', hcounts'⟩ := begun_course P' q
  -- Both runs begin with fresh counts, from the same progress and solver.
  obtain ⟨hmemory, hobservers⟩ := begun_surroundings P' q
  refine ⟨⟨by rw [hmemory], rfl, rfl, .zero, ?_, ?_⟩, ?_, ?_, ?_, ?_⟩
  · rw [hcounts, Counts.add_zero]
  · rw [hcounts', Counts.add_zero]
  · rw [hs]
    exact hm
  · rw [hobservers]
    exact hq
  · rw [hp, hp', hprogress]
  · rw [hs, hs', hsolver]

omit [Scalar α] in
/-- The user stops neither of two calls. -/
theorem alongside_calm (P : Plan (Method α) ω η α) (P' : Plan (Method α) ω' η' α)
    (h : P'.config = P.config) {r : Run (Method α) ω η α} {q : Run (Method α) ω' η' α} ⦃s : Session ω⦄
    ⦃t : Session ω'⦄ (hst : (alongside spent P P' r q).states s t) :
    raised P.config s.host.interrupt = false ∧ raised P.config t.host.interrupt = false := by
  obtain ⟨-, hi, hj, -⟩ := hst
  rw [hi, hj]
  refine ⟨raised_begun P r, ?_⟩
  rw [← h]
  exact raised_begun P' q

/-! ### The first call -/

/-- An iteration that fails where it succeeds without the failure fails in its step. -/
theorem iterate_broken (hI : Method.Lasting I) (hop : op.Pointwise F G H)
    (hop' : op'.Transient spent F G H) (hO : O'.Quiet Q) {r u : Run (Method α) ω η α}
    {q t : Run (Method α) ω' η' α} {f : Failure α} (hr : r.progress.reason = .notTerminated)
    (hrq : Escorted I Q (transience spent past i j d e) r q)
    (hok : (iterate (plan ⟨op, debug⟩ O c)).exec r = (.ok (), u))
    (hfail : (iterate (plan ⟨op', debug⟩ O' c)).exec q = (.error f, t)) :
    t.progress = r.progress ∧ t.observers = q.observers ∧ spent t.session.host.memory ∧
      ∃ w, (Method.solver.step ⟨op', debug⟩ r.progress).exec ⟨r.solver, q.session⟩ = (.error f, w) ∧
        t.solver = w.solver := by
  have hplan : Plan.Bonded I (fun _ l => Watches.Attentive Q l) (transience spent past i j d e)
      (plan ⟨op, debug⟩ O c) (plan ⟨op', debug⟩ O' c) := transience_bonded hI hop hop' hO
  have hiterate := iterate_bonded hplan hr hrq
  rw [hok, hfail] at hiterate
  obtain ⟨hpast, hspent⟩ := hiterate.second_of_ok
  have hq : q.progress.reason = .notTerminated := by
    rw [hrq.progress]
    exact hr
  rcases hstep : (Method.solver.step ⟨op', debug⟩ q.progress).exec ⟨q.solver, q.session⟩ with
    ⟨f' | report, w⟩
  · rw [exec_iterate_of_step_failed _ hq hstep] at hfail
    obtain ⟨houtcome, rfl⟩ := Prod.mk.inj hfail
    obtain rfl := Except.error.inj houtcome
    rw [hrq.progress, hrq.solver] at hstep
    exact ⟨hrq.progress, rfl, hspent, w, hstep, rfl⟩
  · -- The operator is not asked after the step, so it is not spent.
    exfalso
    obtain ⟨report₀, w₀, -, -, -, hstep₀, -⟩ := (iterate_ok_iff _ hr).1 hok
    have hsteps := hplan.step r.progress (s := ⟨r.solver, r.session⟩) (t := ⟨q.solver, q.session⟩)
      hrq.workspace
    have hstep' : ((plan ⟨op', debug⟩ O' c).solver.step (plan ⟨op', debug⟩ O' c).setting
        r.progress).exec ⟨q.solver, q.session⟩ = (.ok report, w) := by
      rw [← hrq.progress]
      exact hstep
    rw [hstep₀, hstep'] at hsteps
    have hstates := hsteps.of_ok.2
    have hw : w.solver.BuiltIn := by
      rw [hstates.2.2]
      exact hI.builtIn hstates.2.1
    have hhost := host_iterate (O := O') (c := c) hq hw hstep
    rw [hfail] at hhost
    have hhost : t.session.host = w.session.host := hhost
    rw [hhost] at hspent
    exact hpast (hstates.1.1.1 hspent)

/-- The start of a call that fails where it succeeds without the failure fails in the initialisation. -/
theorem opening_broken (hI : Method.Lasting I) (hop : op.Pointwise F G H)
    (hop' : op'.Transient spent F G H) (hO : O'.Quiet Q) {r u : Run (Method α) ω η α}
    {q t : Run (Method α) ω' η' α} {f : Failure α}
    (hrq : Escorted I Q (transience spent past i j d e) r q)
    (hok : (opening (plan ⟨op, debug⟩ O c)).exec r = (.ok (), u))
    (hfail : (opening (plan ⟨op', debug⟩ O' c)).exec q = (.error f, t)) :
    t.progress = q.progress ∧ t.observers = q.observers ∧ spent t.session.host.memory ∧
      ∃ w, (Method.solver.init ⟨op', debug⟩ q.progress).exec ⟨q.solver, q.session⟩ = (.error f, w) ∧
        t.solver = w.solver := by
  have hplan : Plan.Bonded I (fun _ l => Watches.Attentive Q l) (transience spent past i j d e)
      (plan ⟨op, debug⟩ O c) (plan ⟨op', debug⟩ O' c) := transience_bonded hI hop hop' hO
  -- The failure is one of the second side alone, so it is spent.
  have hopening := opening_bonded hplan.toJoined hrq
  rw [hok, hfail] at hopening
  obtain ⟨-, hspent⟩ := hopening.second_of_ok
  rw [exec_opening] at hfail
  -- Of the two parts of the opening, only the initialisation can fail: the observers are quiet.
  rcases hinit : (Method.solver.init ⟨op', debug⟩ q.progress).exec ⟨q.solver, q.session⟩ with
    ⟨f' | report?, w⟩
  · have hinit' : ((plan ⟨op', debug⟩ O' c).solver.init (plan ⟨op', debug⟩ O' c).setting
        q.progress).exec ⟨q.solver, q.session⟩ = (.error f', w) := hinit
    rw [hinit'] at hfail
    obtain ⟨houtcome, rfl⟩ := Prod.mk.inj hfail
    obtain rfl := Except.error.inj houtcome
    exact ⟨rfl, rfl, hspent, w, rfl, rfl⟩
  · have hinit' : ((plan ⟨op', debug⟩ O' c).solver.init (plan ⟨op', debug⟩ O' c).setting
        q.progress).exec ⟨q.solver, q.session⟩ = (.ok report?, w) := hinit
    rw [hinit'] at hfail
    have hquiet : Watches.Attentive Q (opened q report? w).observers := hrq.observers
    obtain ⟨after, hexec, -⟩ := exec_onWatches_quiet (m := Watches.init O'
      ((plan ⟨op', debug⟩ O' c).solver.name w.solver) ((report?.map (·.notes)).getD []))
      (fun _ => hO.ends_init _ _) hquiet
    cases hexec.symm.trans hfail

/-- What the call `q` leaves where the failure strikes it, beside the run `r` without the failure: the
    progress with which both have started and what the initialisation leaves, or the progress that both
    have come to after some iterations, which is not the end of `r`, and what the next step of `q`
    leaves. -/
inductive Broken (P : Plan (Method α) ω η α) (P' : Plan (Method α) ω' η' α) (r : Run (Method α) ω η α)
    (q : Run (Method α) ω' η' α) (f : Failure α) : Progress α → Method α → Prop
  | opening {w : Workspace (Method α) ω'}
      (h : (Method.solver.init P'.setting r.progress).exec ⟨r.solver, (begun P' q).session⟩ =
        (.error f, w)) :
      Broken P P' r q f r.progress w.solver
  | iteration {n : ℕ} {w : Workspace (Method α) ω'} (hn : Goes P r (n + 1))
      (hcap : ¬ r.progress.maxIters = 0)
      (hsolver : (stateAfter P' q n).solver = (stateAfter P r n).solver)
      (h : (Method.solver.step P'.setting (stateAfter P r n).progress).exec
        ⟨(stateAfter P r n).solver, (stateAfter P' q n).session⟩ = (.error f, w)) :
      Broken P P' r q f (stateAfter P r n).progress w.solver

section
variable {r final : Run (Method α) ω η α} {q left : Run (Method α) ω' η' α} {f : Failure α}

/-- Without a failure the user does not stop the run. -/
theorem calm_of_pointwise (hop : op.Pointwise F G H) (hm : r.solver.BuiltIn) {n : ℕ}
    (hn : Goes (plan ⟨op, debug⟩ O c) r n) :
    raised c (stateAfter (plan ⟨op, debug⟩ O c) r n).session.host.interrupt = false := by
  obtain ⟨hinterrupt, -⟩ := stateAfter_kept (A := ⟨op, debug⟩)
    (hop.keeps (begun (plan ⟨op, debug⟩ O c) r).session.host.interrupt) hm rfl hn
  rw [hinterrupt]
  exact raised_begun (plan ⟨op, debug⟩ O c) r

/-- **What the first call leaves**, if it fails where it succeeds without the failure. -/
theorem broken_of_error (hI : Method.Lasting I) (hop : op.Pointwise F G H)
    (hop' : op'.Transient spent F G H) (hO : O'.Quiet Q) (hprogress : q.progress = r.progress)
    (hsolver : q.solver = r.solver) (hm : I r.solver) (hq : Watches.Attentive Q q.observers)
    (hr : r.progress.reason = .notTerminated)
    (hok : (execute (plan ⟨op, debug⟩ O c)).exec r = (.ok (), final))
    (hfail : (execute (plan ⟨op', debug⟩ O' c)).exec q = (.error f, left)) :
    Broken (plan ⟨op, debug⟩ O c) (plan ⟨op', debug⟩ O' c) r q f left.progress left.solver ∧
      spent left.session.host.memory ∧ Watches.Attentive Q left.observers := by
  obtain ⟨t, hbody', rfl⟩ := (execute_error_iff _).1 hfail
  obtain ⟨haborted, hwatches, hmemory⟩ := aborted_course (plan ⟨op', debug⟩ O' c) q f t
  rw [aborted_progress, haborted, hwatches, hmemory]
  have hbegun := begun_beside spent (plan ⟨op, debug⟩ O c) (plan ⟨op', debug⟩ O' c) hprogress hsolver
    hm hq
  obtain ⟨u, hbody, -⟩ := (execute_ok_iff _).1 hok
  have hfate := body_fate (plan ⟨op', debug⟩ O' c) q
  rw [hbody'] at hfate
  generalize hx : ((.error f, t) : Except (Failure α) Unit × _) = x at hfate
  cases hfate with
  | unopened hopen =>
    -- The initialisation fails, and nothing has been merged yet.
    obtain ⟨houtcome, rfl⟩ := Prod.mk.inj hx
    obtain rfl := Except.error.inj houtcome
    rw [body_eq] at hbody
    obtain ⟨_, v, hclean, -⟩ := Action.exec_bind_eq_ok_iff.1 hbody
    obtain ⟨hp, ho, hspent, w, hinit, hs⟩ := opening_broken hI hop hop' hO hbegun hclean hopen
    obtain ⟨hp', hs', -⟩ := begun_course (plan ⟨op', debug⟩ O' c) q
    rw [hp', hs', hprogress, hsolver] at hinit
    rw [hp, hs, ho, hp', hprogress, (begun_surroundings _ q).2]
    exact ⟨.opening hinit, hspent, hq⟩
  | barred hn hcap =>
    -- A cap of zero stops the run, which is no failure.
    rw [exec_stop (by rw [hn.progress_zero.2.2, hprogress, hr])] at hx
    cases hx
  | @halted n _ hn hcap hhalts =>
    cases hhalts with
    | stopped => cases hx
    | interrupted => cases hx
    | failed hgo hi hiterate' =>
      obtain ⟨houtcome, rfl⟩ := Prod.mk.inj hx
      obtain rfl := Except.error.inj houtcome
      rw [hprogress] at hcap
      obtain ⟨N, hN, hstop, -, -⟩ := exists_stopped_of_ok hok hcap fun _ hn =>
        calm_of_pointwise hop (hI.builtIn hm) hn
      -- The run without the failure has not stopped where the other one still runs.
      have hlt : n < N := by
        by_contra hle
        have hbeside := Goes.beside (transience_bonded hI hop hop' hO) hbegun hN (hn.mono (by omega))
        refine hstop ?_
        rw [← hbeside.progress]
        obtain hlt | rfl : N < n ∨ N = n := by omega
        · exact hn.running N hlt
        · exact hgo
      have hbeside := Goes.beside (transience_bonded hI hop hop' hO) hbegun (hN.mono hlt.le) hn
      obtain ⟨hp, ho, hspent, w, hstep, hs⟩ := iterate_broken hI hop hop' hO (hN.running n hlt) hbeside
        (hN.iterate_eq hlt) hiterate'
      rw [hp, hs, ho]
      exact ⟨.iteration (hN.mono hlt) hcap hbeside.solver hstep, hspent, hbeside.observers⟩

end

end Run

/-! ### The second call -/

/-- From the progress `p` the method `m'` does what `m` does, on an operator that does not fail any
    more: it can be initialised, which does not show in the next step, and this step is the one that
    `m` makes if it succeeds. -/
structure Method.Resumes [Scalar α] (A : Setting ω α) (spent : ω → Prop) (p : Progress α)
    (m m' : Method α) : Prop where
  builtIn : m'.BuiltIn
  init : ∀ t : Session ω, spent t.host.memory → ∃ report? t',
    (Method.solver.init A p).exec ⟨m', t⟩ = (.ok report?, ⟨m', t'⟩) ∧
      Method.Alike A m' p (Run.started p report?)
  step : ∀ {t : Session ω} {report v}, (Method.solver.step A p).exec ⟨m, t⟩ = (.ok report, v) →
    (Method.solver.step A p).exec ⟨m', t⟩ = (.ok report, v)

namespace Run

open Bond

variable [Scalar α] {op : Operator ω α} {op' : Operator ω' α} {spent : ω' → Prop} {Q : η' → Prop}
  {F : Tensor α → Except (Failure α) α} {G H : Tensor α → Except (Failure α) (Tensor α)}
  {O : Observer η α} {O' : Observer η' α} {debug : Bool} {c : RunConfig α} {I : Method α → Prop}
  {r final : Run (Method α) ω η α} {left : Run (Method α) ω' η' α}

/-- From its first iteration on, the second call is where the run without the failure is after its first
    `n` iterations: progress and method are the same, iteration by iteration. -/
def Resumed (P : Plan (Method α) ω η α) (P' : Plan (Method α) ω' η' α) (r : Run (Method α) ω η α)
    (left : Run (Method α) ω' η' α) (n : ℕ) : Prop :=
  ∀ k, Goes P r (n + 1 + k) → Goes P' left (1 + k) ∧
    (stateAfter P' left (1 + k)).progress = (stateAfter P r (n + 1 + k)).progress ∧
    (stateAfter P' left (1 + k)).solver = (stateAfter P r (n + 1 + k)).solver

/-- From where the first call has started, the second one does what the run without the failure does. -/
theorem resumes_opening (hI : Method.Lasting I) (hop : op.Pointwise F G H)
    (hop' : op'.Transient spent F G H) (hO : O'.Quiet Q) (hm : I r.solver)
    (hok : (execute (plan ⟨op, debug⟩ O c)).exec r = (.ok (), final))
    (hprogress : left.progress = r.progress) (hsolver : left.solver = r.solver)
    (hspent : spent left.session.host.memory) (hleft : Watches.Attentive Q left.observers) :
    ∃ final', (execute (plan ⟨op', debug⟩ O' c)).exec left = (.ok (), final') ∧
      final'.progress = final.progress ∧ final'.solver = final.solver := by
  -- The failure is spent, so nothing is left that sets the two runs apart.
  obtain ⟨u, hbody, rfl⟩ := (execute_ok_iff _).1 hok
  have hbody' := body_bonded (transience_bonded hI hop hop' hO)
    (alongside_calm (plan ⟨op, debug⟩ O c) (plan ⟨op', debug⟩ O' c) rfl)
    (begun_beside spent (plan ⟨op, debug⟩ O c) (plan ⟨op', debug⟩ O' c) hprogress hsolver hm hleft)
  rw [hbody] at hbody'
  obtain ⟨u', hu', hstates⟩ := hbody'.ok_of_ok fun t ht => ht.1 hspent
  refine ⟨_, (execute_ok_iff _).2 ⟨u', hu', rfl⟩, ?_, ?_⟩
  · rw [finished_progress, finished_progress, hstates.progress]
  · exact (released_solver _ _ _).trans (hstates.solver.trans (released_solver _ _ _).symm)

/-- It does so iteration by iteration. -/
theorem resumed_opening (hI : Method.Lasting I) (hop : op.Pointwise F G H)
    (hop' : op'.Transient spent F G H) (hO : O'.Quiet Q) (hm : I r.solver)
    (hprogress : left.progress = r.progress) (hsolver : left.solver = r.solver)
    (hspent : spent left.session.host.memory) (hleft : Watches.Attentive Q left.observers) :
    Resumed (plan ⟨op, debug⟩ O c) (plan ⟨op', debug⟩ O' c) r left 0 := by
  intro k hk
  have hbonded : Plan.Bonded I (fun _ l => Watches.Attentive Q l)
      (alongside spent (plan ⟨op, debug⟩ O c) (plan ⟨op', debug⟩ O' c) r left)
      (plan ⟨op, debug⟩ O c) (plan ⟨op', debug⟩ O' c) := transience_bonded hI hop hop' hO
  -- First the openings, then the iterations; the only failure there could be is one that is spent
  -- already.
  have hopening := opening_bonded hbonded.toJoined (begun_beside spent (plan ⟨op, debug⟩ O c)
    (plan ⟨op', debug⟩ O' c) hprogress hsolver hm hleft)
  rw [hk.opening_eq] at hopening
  obtain ⟨t, hopen, hbeside⟩ := hopening.ok_of_ok fun t ht => ht.1 hspent
  have hzero : Goes (plan ⟨op', debug⟩ O' c) left 0 := .zero (by rw [hopen]; rfl)
  obtain rfl : stateAfter (plan ⟨op', debug⟩ O' c) left 0 = t := congrArg Prod.snd hopen
  have hcalm : ∀ ⦃s t⦄,
      (alongside spent (plan ⟨op, debug⟩ O c) (plan ⟨op', debug⟩ O' c) r left).states s t →
        raised (plan ⟨op', debug⟩ O' c).config t.host.interrupt = false := fun s t hst =>
    (alongside_calm (plan ⟨op, debug⟩ O c) (plan ⟨op', debug⟩ O' c) rfl hst).2
  have hfollow := Goes.follow (n := 1 + k) hbonded (fun t ht => ht.1 hspent) hcalm hzero hbeside
    (by rwa [Nat.zero_add] at hk ⊢)
  rw [Nat.zero_add] at hfollow ⊢
  exact ⟨hfollow.1, hfollow.2.progress, hfollow.2.solver⟩

/-- The start of the second call succeeds and does not show in the next step. -/
theorem reopening (hop' : op'.Transient spent F G H) (hO : O'.Quiet Q) (c : RunConfig α)
    {m : Method α} (hm : Method.Resumes ⟨op', debug⟩ spent left.progress m left.solver)
    (hspent : spent left.session.host.memory) (hleft : Watches.Attentive Q left.observers) :
    ∃ t, (opening (plan ⟨op', debug⟩ O' c)).exec (begun (plan ⟨op', debug⟩ O' c) left) = (.ok (), t) ∧
      t.solver = left.solver ∧ Method.Alike ⟨op', debug⟩ left.solver left.progress t.progress ∧
      spent t.session.host.memory ∧
      t.session.host.interrupt = (begun (plan ⟨op', debug⟩ O' c) left).session.host.interrupt ∧
      Watches.Attentive Q t.observers := by
  obtain ⟨hprogress, hsolver, -⟩ := begun_course (plan ⟨op', debug⟩ O' c) left
  obtain ⟨hmemory, hobservers⟩ := begun_surroundings (plan ⟨op', debug⟩ O' c) left
  generalize begun (plan ⟨op', debug⟩ O' c) left = q at hprogress hsolver hmemory hobservers
  rw [← hmemory] at hspent
  rw [← hobservers] at hleft
  obtain ⟨report?, t, hinit, halike⟩ := hm.init q.session hspent
  have hkept := Method.init_kept (A := ⟨op', debug⟩) (hop'.keeps q.session.host.interrupt)
    left.progress (w := ⟨left.solver, q.session⟩) ⟨hspent, rfl⟩ hm.builtIn
  rw [hinit] at hkept
  have hinit' : ((plan ⟨op', debug⟩ O' c).solver.init (plan ⟨op', debug⟩ O' c).setting
      q.progress).exec ⟨q.solver, q.session⟩ = (.ok report?, ⟨left.solver, t⟩) := by
    rw [hprogress, hsolver]
    exact hinit
  have hopened : opened q report? ⟨left.solver, t⟩ =
      ⟨started left.progress report?, left.solver, t, q.observers⟩ := by
    rw [← hprogress]
    rfl
  have hquiet : Watches.Attentive Q (opened q report? ⟨left.solver, t⟩).observers := hleft
  -- The observers are introduced once more, which does not touch progress or method.
  obtain ⟨after, hexec, hafter⟩ := exec_onWatches_quiet (m := Watches.init O'
    ((plan ⟨op', debug⟩ O' c).solver.name left.solver) ((report?.map (·.notes)).getD []))
    (fun _ => hO.ends_init _ _) hquiet
  have hopening : (opening (plan ⟨op', debug⟩ O' c)).exec q =
      (.ok (), watched after (opened q report? ⟨left.solver, t⟩)) := by
    rw [exec_opening, hinit']
    exact hexec
  rw [hopening, hopened]
  exact ⟨_, rfl, rfl, halike, hkept.1.1, hkept.1.2, hafter⟩

/-- **An iteration made again**: it comes to what the iteration without the failure has come to. -/
theorem iterate_again (hI : Method.Lasting I) (hop : op.Pointwise F G H)
    (hop' : op'.Transient spent F G H) (hO : O'.Quiet Q) {s u : Run (Method α) ω η α}
    {t : Run (Method α) ω' η' α} (hs : s.progress.reason = .notTerminated) (hms : I s.solver)
    (hok : (iterate (plan ⟨op, debug⟩ O c)).exec s = (.ok (), u))
    (hresumes : Method.Resumes ⟨op', debug⟩ spent s.progress s.solver t.solver)
    (halike : Method.Alike ⟨op', debug⟩ t.solver s.progress t.progress)
    (hspent : spent t.session.host.memory) (ht : Watches.Attentive Q t.observers) :
    ∃ v, (iterate (plan ⟨op', debug⟩ O' c)).exec t = (.ok (), v) ∧
      Escorted I Q (transience spent True s.session.host.interrupt t.session.host.interrupt
        s.session.counts t.session.counts) u v := by
  have hplan : Plan.Bonded I (fun _ l => Watches.Attentive Q l) (transience spent True
      s.session.host.interrupt t.session.host.interrupt s.session.counts t.session.counts)
      (plan ⟨op, debug⟩ O c) (plan ⟨op', debug⟩ O' c) := transience_bonded hI hop hop' hO
  have hstates : (transience spent True s.session.host.interrupt t.session.host.interrupt
      s.session.counts t.session.counts).states s.session t.session :=
    ⟨iff_of_true hspent trivial, rfl, rfl, .zero, (Counts.add_zero _).symm, (Counts.add_zero _).symm⟩
  obtain ⟨report, w, -, -, -, hstep, -⟩ := (iterate_ok_iff _ hs).1 hok
  -- The step is first made with the memory of the run without the failure.
  have hsteps := hplan.step s.progress (s := ⟨s.solver, s.session⟩) (t := ⟨s.solver, t.session⟩)
    ⟨hstates, hms, rfl⟩
  rw [hstep] at hsteps
  obtain ⟨v, hstep', hwv⟩ := hsteps.ok_of_ok fun _ hsecond => hsecond.1 trivial
  have hagain : (Method.solver.step ⟨op', debug⟩ s.progress).exec ⟨t.solver, t.session⟩ =
      (.ok report, v) := hresumes.step hstep'
  have hown : ((plan ⟨op', debug⟩ O' c).solver.step (plan ⟨op', debug⟩ O' c).setting
      t.progress).exec ⟨t.solver, t.session⟩ = (.ok report, v) :=
    (halike.step t.session).trans hagain
  have hrest := rest_bonded hplan.toJoined hstates ht (halike.update hagain) hwv
  have hiterate : (iterate (plan ⟨op, debug⟩ O c)).exec s = rest (plan ⟨op, debug⟩ O c) s report w := by
    rw [exec_iterate_eq_resume _ hs, hstep]
    rfl
  have hiterate' : (iterate (plan ⟨op', debug⟩ O' c)).exec t =
      rest (plan ⟨op', debug⟩ O' c) t report v := by
    rw [exec_iterate_eq_resume _ (halike.reason.trans hs), hown]
    rfl
  rw [← hiterate, ← hiterate', hok] at hrest
  exact hrest.ok_of_ok fun _ hsecond => hsecond.1 trivial

/-- In the course of a run the method stays in its class. -/
theorem Goes.lasts (hI : Method.Lasting I) {A : Setting ω α} {n : ℕ} (hm : I r.solver)
    (hn : Goes (plan A O c) r n) : I (stateAfter (plan A O c) r n).solver := by
  induction n with
  -- The dispatch of the opening and of each iteration keeps what lasts.
  | zero =>
    refine leaves_opening (fun w hw => hI.dispatch (fun S => S.init A _) w hw) ?_
    rw [(begun_course (plan A O c) r).2.1]
    exact hm
  | succ n ih =>
    exact leaves_iterate (fun w hw => hI.dispatch (fun S => S.step A _) w hw)
      (fun p w hw => hI.dispatch (fun S => S.terminate p) w hw) (hn.running n (Nat.lt_succ_self n))
      (ih (hn.mono (Nat.le_succ n)))

/-- **The second call takes up the run** after the iteration that the first one has come to. -/
theorem resumed_iteration (hI : Method.Lasting I) (hop : op.Pointwise F G H)
    (hop' : op'.Transient spent F G H) (hO : O'.Quiet Q) (hm : I r.solver) {n : ℕ}
    (hn : Goes (plan ⟨op, debug⟩ O c) r (n + 1))
    (hprogress : left.progress = (stateAfter (plan ⟨op, debug⟩ O c) r n).progress)
    (hresumes : Method.Resumes ⟨op', debug⟩ spent left.progress
      (stateAfter (plan ⟨op, debug⟩ O c) r n).solver left.solver)
    (hspent : spent left.session.host.memory) (hleft : Watches.Attentive Q left.observers) :
    Resumed (plan ⟨op, debug⟩ O c) (plan ⟨op', debug⟩ O' c) r left n := by
  intro k hk
  obtain ⟨t, hopen, hsolver, halike, htspent, hinterrupt, hobservers⟩ :=
    reopening hop' hO c hresumes hspent hleft
  have hzero : Goes (plan ⟨op', debug⟩ O' c) left 0 := .zero (by rw [hopen]; rfl)
  obtain rfl : stateAfter (plan ⟨op', debug⟩ O' c) left 0 = t := congrArg Prod.snd hopen
  have hlast := Nat.lt_succ_self n
  have hgo := hn.running n hlast
  rw [hprogress, ← hsolver] at hresumes halike
  obtain ⟨v, hiterate, hbeside⟩ := iterate_again hI hop hop' hO hgo ((hn.mono hlast.le).lasts hI hm)
    (hn.iterate_eq hlast) hresumes halike htspent hobservers
  have hcalm : raised (plan ⟨op', debug⟩ O' c).config
      (stateAfter (plan ⟨op', debug⟩ O' c) left 0).session.host.interrupt = false := by
    rw [hinterrupt]
    exact raised_begun (plan ⟨op', debug⟩ O' c) left
  have hone : Goes (plan ⟨op', debug⟩ O' c) left 1 :=
    hzero.next (halike.reason.trans hgo) hcalm (by rw [hiterate]; rfl)
  obtain rfl : stateAfter (plan ⟨op', debug⟩ O' c) left 1 = v := congrArg Prod.snd hiterate
  -- From here on the two runs stay side by side.
  obtain ⟨hgoes, hstates⟩ := Goes.follow (transience_bonded hI hop hop' hO)
    (fun _ hsecond => hsecond.1 trivial)
    (fun s t hst => by
      rw [hst.2.2.1]
      exact hcalm) hone hbeside hk
  exact ⟨hgoes, hstates.progress, hstates.solver⟩

/-- So it ends as the run without the failure does. -/
theorem resumes_iteration (hI : Method.Lasting I) (hop : op.Pointwise F G H)
    (hop' : op'.Transient spent F G H) (hO : O'.Quiet Q) (hm : I r.solver)
    (hok : (execute (plan ⟨op, debug⟩ O c)).exec r = (.ok (), final)) {n : ℕ}
    (hn : Goes (plan ⟨op, debug⟩ O c) r (n + 1)) (hcap : ¬ r.progress.maxIters = 0)
    (hprogress : left.progress = (stateAfter (plan ⟨op, debug⟩ O c) r n).progress)
    (hresumes : Method.Resumes ⟨op', debug⟩ spent left.progress
      (stateAfter (plan ⟨op, debug⟩ O c) r n).solver left.solver)
    (hspent : spent left.session.host.memory) (hleft : Watches.Attentive Q left.observers) :
    ∃ final', (execute (plan ⟨op', debug⟩ O' c)).exec left = (.ok (), final') ∧
      final'.progress = final.progress ∧ final'.solver = final.solver := by
  -- The run without the failure stops somewhere, and the resumed one is on its way there.
  obtain ⟨N, hN, hstop, hfinal, hmemory⟩ := exists_stopped_of_ok hok hcap fun _ hn =>
    calm_of_pointwise hop (hI.builtIn hm) hn
  obtain ⟨k, rfl⟩ := Nat.exists_eq_add_of_le (hn.le_of_halts (.stopped hstop))
  obtain ⟨hgoes, hsame, hsolver⟩ :=
    resumed_iteration hI hop hop' hO hm hn hprogress hresumes hspent hleft k hN
  rw [← hsame] at hstop hfinal
  rw [← hsolver] at hmemory
  -- The cap has not changed, so it still allows an iteration.
  have hcap' : ¬ left.progress.maxIters = 0 := by
    rw [hprogress, (hn.mono (Nat.le_succ n)).maxIters_eq]
    exact hcap
  refine ⟨_, hgoes.execute_eq hcap' hstop, ?_, ?_⟩
  · rw [finished_progress, hfinal]
  · exact (released_solver _ _ _).trans hmemory.symm

end Run

end Minimization
