import Minimization.Proofs.Contract.Nested
import Minimization.Proofs.LineSearch.Conduct
import Minimization.Proofs.LineSearch.Renewal
import Minimization.Proofs.Progress.Merge
import Minimization.Proofs.Scalar.Order
import Minimization.Proofs.Tensor.Shaped

namespace Minimization

/-!
# Searches end

A search counts its trials and stops at its cap, whatever the costs are that it sees.  The run that
it is made in has no cap of its own that would matter.

* `Operator.Replies` — an operator that answers wherever it is asked.
* `LineSearch.Trying` — a search between two trials; `LineSearch.Ended` — one that has stopped, and
  why.
* `LineSearch.Trying.ends_iterate` — one trial, and what it evaluates.
* `LineSearch.Still` — a search along a direction of length zero.
* `LineSearch.ends_opening_ready` — the start of a search, and what it evaluates.
* `LineSearch.Trying.goes` — what any number of trials comes to.
-/

variable {ω α : Type} [Scalar α]

/-! ### Operators that answer -/

/-- On the points of `D` the operator answers, whatever it remembers: with costs for which `C` holds,
    and with gradients that are in `D` as well. -/
structure Operator.Replies (op : Operator ω α) (D : Tensor α → Prop) (C : α → Prop) : Prop where
  cost : ∀ x host, D x → (op.cost x).Ends host (fun c _ => C c) fun _ => False
  gradient : ∀ x host, D x → (op.gradient x).Ends host (fun v _ => D v) fun _ => False

variable {A : Setting ω α} {C : α → Prop} {E : Failure α → Prop} {p : Progress α} {b : Backend}
  {shape : List ℕ} {d : Tensor α} {l : Line α}

namespace Operator.Replies

variable {D : Tensor α → Prop} {x : Tensor α} {t : Session ω}

omit [Scalar α] in
/-- Counted evaluations. -/
theorem ends_cost (hA : A.operator.Replies D C) (hx : D x) : (Session.cost A.operator x).Ends t
    (fun c u => C c ∧ u.counts = t.counts.tick .cost) E := by
  refine (Session.ends_evaluate ..).2 (((hA.cost x t.host hx).expecting nofun).mono ?_)
  exact fun c host hc => ⟨hc, rfl⟩

omit [Scalar α] in
/-- An evaluation of the gradient costs one, and fails as the operator may. -/
theorem ends_gradient (hA : A.operator.Replies D C) (hx : D x) :
    (Session.gradient A.operator x).Ends t
      (fun v u => D v ∧ u.counts = t.counts.tick .gradient) E := by
  refine (Session.ends_evaluate ..).2 (((hA.gradient x t.host hx).expecting nofun).mono ?_)
  exact fun v host hv => ⟨hv, rfl⟩

end Operator.Replies

/-- Where all shapes fit, a search can start. -/
theorem Line.Footing.of_shaped (hA : A.operator.Replies (Tensor.Shaped b shape) C)
    (hb : b.Multiplies α shape) (hx : p.param.Shaped b shape) (hd : d.Shaped b shape)
    (hgradient : ∀ v, p.gradient = some v → v.Shaped b shape) : Line.Footing A p d C E where
  cost t := hA.ends_cost hx
  gradient t := by
    refine (hA.ends_gradient hx).mono fun v u hv => ⟨fun e he => ?_, hv.2⟩
    obtain ⟨c, hc⟩ := hb hv.1 hd
    rw [hx.backend, hc] at he
    cases he
  known v hv e he := by
    obtain ⟨c, hc⟩ := hb (hgradient v hv) hd
    rw [hx.backend, hc] at he
    cases he
  norm e he := by
    rw [hx.backend, hd.norm_eq] at he
    cases he

/-- Where all shapes fit, no trial fails. -/
theorem Line.Ground.of_shaped (hA : A.operator.Replies (Tensor.Shaped b shape) C)
    (hb : b.Multiplies α shape) {start : LineStart α} (hstart : l.start = some start)
    (horigin : start.origin.Shaped b shape) (hdirection : l.direction = some d)
    (hd : d.Shaped b shape) : Line.Ground A l C E := by
  have hpoint (step : α) : l.point step = b.scaledAdd start.origin step d := by
    unfold Line.point requireStart
    rw [hstart, hdirection, ← horigin.backend]
    rfl
  have hslope (v : Tensor α) : l.slopeOf v = b.dot v d := by
    unfold slopeOf requireStart
    rw [hstart, hdirection, ← horigin.backend]
    rfl
  -- The points of the line are all of the shape.
  have hshaped {step : α} {x : Tensor α} (hx : l.point step = .ok x) : x.Shaped b shape := by
    obtain ⟨z, hz, hshaped⟩ := horigin.exists_scaledAdd hd step
    rw [hpoint, hz] at hx
    obtain rfl := Except.ok.inj hx
    exact hshaped
  constructor
  · intro step e he
    obtain ⟨z, hz, -⟩ := horigin.exists_scaledAdd hd step
    rw [hpoint, hz] at he
    cases he
  · exact fun step x hx t => hA.ends_cost (hshaped hx)
  · intro step x hx t
    refine (hA.ends_gradient (hshaped hx)).mono fun v u hv => ⟨fun e he => ?_, hv.2⟩
    obtain ⟨c, hc⟩ := hb hv.1 hd
    rw [hslope, hc] at he
    cases he

namespace LineSearch

/-! ### Between two trials -/

/-- The trials that the search has made. -/
def trials {α : Type} (m : LineSearch α) : ℕ := (m.line?.map Line.trials).getD 0

omit [Scalar α] in
/-- The trials of a search are those of its line. -/
theorem trials_eq {m : LineSearch α} (hm : m.line? = some l) : m.trials = l.trials := by
  unfold trials
  rw [hm]
  rfl

/-- A search that goes on, and that may make `cap` trials: it has made as many as the run has made
    iterations. -/
structure Trying (A : Setting ω α) (C : α → Prop) (E : Failure α → Prop) (strong : Bool) (cap : ℕ)
    (p : Progress α) (m : LineSearch α) : Prop where
  running : p.reason = .notTerminated
  maxIters : p.maxIters = RunConfig.defaultMaxIters
  below : p.iter < RunConfig.defaultMaxIters
  isStrong : m.isStrong = strong
  bracketed : m.Bracketed C
  exists_line : ∃ l, m.line? = some l ∧ Line.Ground A l C E ∧ l.done = none ∧ l.maxTrials = cap ∧
    l.trials < cap ∧ l.trials = p.iter

/-- A search that has ended after a trial.  It has met its conditions or halved its bracket to the
    end, or it has made all of its trials; or a cost was as low as any may be. -/
structure Ended (C : α → Prop) (strong : Bool) (cap : ℕ) (p : Progress α) (m : LineSearch α) :
    Prop where
  reason : p.reason = .lineSearchCondition ∨ (strong = true ∧ p.reason = .targetTolerance) ∨
    (p.reason = .maxIters ∧ p.iter = min cap RunConfig.defaultMaxIters) ∨
    (p.reason = .targetCost ∧ ∃ c, C c ∧ Scalar.le c (-Scalar.infinity) = true)
  exists_line : ∃ l, m.line? = some l ∧ l.maxTrials = cap ∧ l.trials ≤ cap ∧ l.trials = p.iter

/-- A search that has ended gives a reason. -/
theorem Ended.stopped {strong : Bool} {cap : ℕ} {m : LineSearch α}
    (h : Ended C strong cap p m) : ¬ p.reason = .notTerminated := by
  obtain hreason | ⟨-, hreason⟩ | ⟨hreason, -⟩ | ⟨hreason, -⟩ := h.reason <;> rw [hreason] <;> nofun

/-- Either search asks the rules of a run that has no target. -/
theorem ruling_cases {c : α} (hcost : p.cost = c) (own : Reason) :
    Run.ruling (Run.nestedPlan solver A).config p own =
      if own.isTerminal then own else if p.maxIters ≤ (p.iter : ℤ) then .maxIters
      else if Scalar.le c (-Scalar.infinity) then .targetCost else .notTerminated := by
  rw [← hcost]
  rfl

/-- What the rules make of a search that goes on by itself. -/
theorem ruling_open {cap : ℕ} {c : α} (hcost : p.cost = c)
    (hmax : p.maxIters = RunConfig.defaultMaxIters) (hdone : l.done = none) (hcap : l.maxTrials = cap)
    (htrials : l.trials = p.iter) : Run.ruling (Run.nestedPlan solver A).config p l.reason =
      if min cap RunConfig.defaultMaxIters ≤ p.iter then .maxIters
      else if Scalar.le c (-Scalar.infinity) then .targetCost else .notTerminated := by
  have hreason : l.reason = if cap ≤ p.iter then .maxIters else .notTerminated := by
    unfold Line.reason
    rw [hdone, hcap, htrials]
  rw [ruling_cases hcost, hreason, hmax]
  -- The cap of the search and the one of its run are both counted by the iterations.
  by_cases hspent : cap ≤ p.iter
  · rw [if_pos hspent, if_pos (min_le_of_left_le hspent)]
    rfl
  · have hiff : min cap RunConfig.defaultMaxIters ≤ p.iter ↔
        (RunConfig.defaultMaxIters : ℤ) ≤ (p.iter : ℤ) := by
      rw [Int.ofNat_le, min_le_iff]
      exact ⟨fun h => h.resolve_left hspent, .inr⟩
    simp only [if_neg hspent, Reason.isTerminal, Bool.false_eq_true, if_false, hiff]

/-- What the rules make of a search after a trial. -/
theorem Trying.ruled {strong : Bool} {cap : ℕ} {m m' : LineSearch α} {l' : Line α} {n : ℕ} {c : α}
    (h : Trying A C E strong cap p m) (hm : m.line? = some l) (hadv : Advances C m m' l n)
    (hm' : m'.line? = some l') {q : Progress α} (hiter : q.iter = p.iter + 1)
    (hmax : q.maxIters = p.maxIters) (hc : C c) (hcost : q.cost = c)
    (hreason : q.reason = Run.ruling (Run.nestedPlan solver A).config q l'.reason) :
    Trying A C E strong cap q m' ∨ Ended C strong cap q m' := by
  obtain ⟨l₀, hl₀, hground, -, hcap, hbelow, htrials⟩ := h.exists_line
  obtain rfl := Option.some.inj (hl₀.symm.trans hm)
  obtain ⟨done, hl', hdone⟩ := hadv.line
  obtain rfl := Option.some.inj (hm'.symm.trans hl')
  have hmax' := hmax.trans h.maxIters
  have hroom := h.below
  have hcount : l₀.trials + 1 = q.iter := by rw [hiter, htrials]
  have hline : ∃ l, m'.line? = some l ∧ l.maxTrials = cap ∧ l.trials ≤ cap ∧ l.trials = q.iter :=
    ⟨_, hm', hcap, hbelow, hcount⟩
  obtain rfl | rfl | ⟨hstrong, rfl⟩ := hdone
  · -- The search goes on, unless that was its last trial, or the last iteration of its run.
    rw [ruling_open (l := { l₀.countTrial with done := none }) hcost hmax' rfl hcap hcount] at hreason
    by_cases hfull : min cap RunConfig.defaultMaxIters ≤ q.iter
    · have hlast : q.iter = min cap RunConfig.defaultMaxIters := by omega
      exact .inr ⟨.inr (.inr (.inl ⟨hreason.trans (if_pos hfull), hlast⟩)), hline⟩
    · rw [if_neg hfull] at hreason
      have hleft : q.iter < cap ∧ q.iter < RunConfig.defaultMaxIters := by omega
      split at hreason
      · next htarget => exact .inr ⟨.inr (.inr (.inr ⟨hreason, c, hc, htarget⟩)), hline⟩
      · exact .inl ⟨hreason, hmax', hleft.2, hadv.isStrong.trans h.isStrong, hadv.bracketed, _, hm',
          hground.congr rfl rfl, rfl, hcap, hcount.trans_lt hleft.1, hcount⟩
  · rw [ruling_cases hcost] at hreason
    exact .inr ⟨.inl hreason, hline⟩
  · rw [ruling_cases hcost] at hreason
    exact .inr ⟨.inr (.inl ⟨h.isStrong.symm.trans hstrong, hreason⟩), hline⟩

/-- In debug mode the run of a search may fail in other ways than the search. -/
theorem inspection_error (hquiet : A.debug = false ∨ ∀ e, E e) {before : Counts}
    {r : Run (LineSearch α) ω Empty α} {e : Failure α}
    (h : Run.inspection (Run.nestedPlan solver A) before r = .error e) : E e := by
  obtain hdebug | hall := hquiet
  · unfold Run.inspection at h
    have hoff : (Run.nestedPlan (LineSearch.solver (ω := ω) (α := α)) A).setting.debug = false := hdebug
    rw [hoff] at h
    cases h
  · exact hall e

/-- **One trial** evaluates one cost and at most one gradient, and the search goes on or has ended. -/
theorem Trying.ends_iterate {strong : Bool} {cap : ℕ} {r : Run (LineSearch α) ω Empty α}
    (hquiet : A.debug = false ∨ ∀ e, E e)
    (h : Trying A C E strong cap r.progress r.solver) :
    (Run.iterate (Run.nestedPlan solver A)).Ends r (fun _ r' =>
      (∃ n ≤ 1, (strong = false → n = 0) ∧ r'.session.counts = r.session.counts + ⟨1, n, 0, 0⟩) ∧
      (Trying A C E strong cap r'.progress r'.solver ∨
        Ended C strong cap r'.progress r'.solver)) E := by
  obtain ⟨l, hl, hground, hopen, -⟩ := h.exists_line
  -- What is asked of the iteration: its counts, and that the search goes on or has ended.
  refine Run.ends_iterate (Q := fun p m counts => (∃ n ≤ 1, (strong = false → n = 0) ∧
      counts = r.session.counts + ⟨1, n, 0, 0⟩) ∧
    (Trying A C E strong cap p m ∨ Ended C strong cap p m)) h.running ?_
    fun p notes isNewBest ws => Run.noObserver_watched p notes isNewBest ws E
  refine (ends_step_advances hground hl hopen h.bracketed).mono ?_
  rintro report w ⟨c, n, hreport, hc, hadv, hcounts⟩
  refine ⟨fun e he => inspection_error hquiet he, fun session hsession => ?_⟩
  -- The line gives its reason, and the run follows it or stops for a rule of its own.
  obtain ⟨done, hl', -⟩ := hadv.line
  refine (ends_terminate_line hl').mono ?_
  rintro own v ⟨rfl, rfl⟩
  refine ⟨⟨n, hadv.gradients, fun hweak => hadv.gradientFree (h.isStrong.trans hweak),
    hsession.trans hcounts⟩, h.ruled hl hadv hl' (by simp) (by simp) hc ?_ rfl⟩
  show (r.progress.update report).1.increment.cost = c
  rw [ProgressOn.cost_increment, ProgressOn.cost_update, hreport]
  rfl

/-! ### Along no direction -/

/-- A search along a direction of length zero, before the only iteration of its run. -/
structure Still (A : Setting ω α) (C : α → Prop) (E : Failure α → Prop) (cap : ℕ) (p : Progress α)
    (m : LineSearch α) : Prop where
  running : p.reason = .notTerminated
  start : p.iter = 0
  bracketed : m.Bracketed C
  exists_line : ∃ l, m.line? = some l ∧ Line.Ground A l C E ∧ l.done = some .lineSearchCondition ∧
    l.maxTrials = cap ∧ l.trials = 0

/-- **Along no direction** one iteration is made, and nothing is evaluated in it. -/
theorem Still.ends_iterate {cap : ℕ} {r : Run (LineSearch α) ω Empty α}
    (hquiet : A.debug = false ∨ ∀ e, E e) (h : Still A C E cap r.progress r.solver) :
    (Run.iterate (Run.nestedPlan solver A)).Ends r (fun _ r' =>
      r'.session.counts = r.session.counts ∧ r'.progress.reason = .lineSearchCondition ∧
      r'.solver = r.solver) E := by
  obtain ⟨l, hl, hground, hover, -⟩ := h.exists_line
  refine Run.ends_iterate (Q := fun p m counts => counts = r.session.counts ∧
      p.reason = .lineSearchCondition ∧ m = r.solver) h.running ?_
    fun p notes isNewBest ws => Run.noObserver_watched p notes isNewBest ws E
  refine (ends_step_over hground hl (by rw [hover]; nofun) h.bracketed).mono ?_
  rintro report w ⟨-, rfl⟩
  refine ⟨fun e he => inspection_error hquiet he, fun session hsession => ?_⟩
  refine (ends_terminate_line hl).mono ?_
  rintro own v ⟨rfl, rfl⟩
  -- The start has set the reason already, so that the first iteration reports it.
  have hown : l.reason = .lineSearchCondition := by
    unfold Line.reason
    rw [hover]
  rw [hown]
  exact ⟨hsession, rfl, rfl⟩

/-! ### The start of a search -/

/-- A search stays of its kind when it begins. -/
theorem isStrong_begun (m : LineSearch α) (l : Line α) (c : α) (v : Tensor α) :
    (m.begun l c v).isStrong = m.isStrong := by
  cases m <;> rfl

/-- Its line is the one it begins with. -/
theorem line?_begun {m : LineSearch α} (hm : m.line?.isSome = true) (l : Line α) (c : α)
    (v : Tensor α) : (m.begun l c v).line? = some l := by
  cases m with
  | backtracking s => rfl
  | strongWolfe s => rfl
  | unsuited text => cases hm

/-- Its first bracket has the cost at the start. -/
theorem bracketed_begun (m : LineSearch α) (l : Line α) {c : α} (hc : C c) (v : Tensor α) :
    (m.begun l c v).Bracketed C := by
  cases m with
  | backtracking s => trivial
  | strongWolfe s => exact ⟨_, rfl, hc⟩
  | unsuited text => trivial

/-- The search can be asked for its first trial, which comes to nothing along no direction. -/
def Ready (A : Setting ω α) (C : α → Prop) (E : Failure α → Prop) (strong : Bool) (cap : ℕ)
    (still : Bool) (p : Progress α) (m : LineSearch α) : Prop :=
  if still then Still A C E cap p m else Trying A C E strong cap p m

/-- **The start of a search** evaluates what is not known there.  It may fail where no trial does. -/
theorem ends_opening_ready {E' : Failure α → Prop} {r : Run (LineSearch α) ω Empty α}
    (hl : r.solver.line? = some l) (hd : l.direction = some d) (hcap : 1 ≤ l.maxTrials)
    (hfoot : Line.Footing A r.progress d C E')
    (hdown : ∀ v slope length, Line.Uphill r.progress d v slope length → E' (.invalid .notDescent))
    (hground : ∀ l' start, l'.direction = some d → l'.start = some start →
      start.origin = r.progress.param → Line.Ground A l' C E)
    (hknown : Scalar.isInfinite r.progress.cost = false → C r.progress.cost)
    (hiter : r.progress.iter = 0) (hmax : r.progress.maxIters = RunConfig.defaultMaxIters)
    (hreason : r.progress.reason = .notTerminated) :
    (Run.opening (Run.nestedPlan solver A)).Ends r (fun _ r' =>
      r'.session.counts = r.session.counts + Line.openingCounts r.progress ∧
      ∃ length, r.progress.param.backend.norm d = .ok length ∧
        Ready A C E r.solver.isStrong l.maxTrials (Scalar.eq length 0.0) r'.progress r'.solver) E' := by
  -- Initialisation and introduction are the two parts of the opening.
  refine Run.ends_opening (Q := fun p m counts => counts = r.session.counts +
      Line.openingCounts r.progress ∧ ∃ length, r.progress.param.backend.norm d = .ok length ∧
        Ready A C E r.solver.isStrong l.maxTrials (Scalar.eq length 0.0) p m) ?_
    fun name notes ws => Run.noObserver_introduced name notes ws E'
  refine (ends_init_begun hfoot hl hd hdown).mono ?_
  rintro report? w ⟨c, v, l', slope, length, hopens, rfl, hC, hsame, hcounts, hw⟩
  refine ⟨hcounts, length, hopens.norm, ?_⟩
  -- The cost at the start was handed over or evaluated; either way it is a cost to start with.
  have hc : C c := by
    cases hinfinite : Scalar.isInfinite r.progress.cost with
    | true => exact hC hinfinite
    | false =>
      rw [hsame hinfinite]
      exact hknown hinfinite
  have hsome : r.solver.line?.isSome = true := by rw [hl]; rfl
  have hline : w.solver.line? = some l' := by rw [hw, line?_begun hsome]
  have hl' := hopens.line
  have hground' : Line.Ground A l' C E := by
    rw [hl']
    exact hground _ _ hd rfl rfl
  have hbracketed : w.solver.Bracketed C := by
    rw [hw]
    exact bracketed_begun _ _ hc _
  have hstarted := ProgressOn.iter_update r.progress
    { param := some r.progress.param, cost := some c, gradient := some v }
  unfold Ready
  -- A direction of length zero ends the search before its first trial.
  by_cases hstill : Scalar.eq length 0.0 = true
  · rw [if_pos hstill]
    rw [if_pos hstill] at hl'
    refine ⟨?_, ?_, hbracketed, l', hline, hground', by rw [hl'], by rw [hl'], by rw [hl']⟩
    · exact (ProgressOn.reason_update _ _).trans hreason
    · exact hstarted.trans hiter
  · rw [if_neg hstill]
    rw [if_neg hstill] at hl'
    refine ⟨(ProgressOn.reason_update _ _).trans hreason,
      (ProgressOn.maxIters_update _ _).trans hmax, ?_, ?_, hbracketed, l', hline, hground',
      by rw [hl'], by rw [hl'], ?_, ?_⟩
    · show (r.progress.update _).1.iter < _
      rw [hstarted, hiter]
      decide
    · rw [hw, isStrong_begun]
    · rw [hl']
      exact hcap
    · rw [hl']
      exact (hstarted.trans hiter).symm

/-! ### Any number of trials -/

/-- **A search along no direction** makes one iteration. -/
theorem Still.goes {cap n : ℕ} {r : Run (LineSearch α) ω Empty α}
    (hquiet : A.debug = false ∨ ∀ e, E e) (hn : Run.Goes (Run.nestedPlan solver A) r n)
    (h : Still A C E cap (Run.stateAfter (Run.nestedPlan solver A) r 0).progress
      (Run.stateAfter (Run.nestedPlan solver A) r 0).solver) :
    n = 0 ∨ (n = 1 ∧
      (Run.stateAfter (Run.nestedPlan solver A) r 1).session.counts =
        (Run.stateAfter (Run.nestedPlan solver A) r 0).session.counts ∧
      (Run.stateAfter (Run.nestedPlan solver A) r 1).progress.reason = .lineSearchCondition ∧
      (Run.stateAfter (Run.nestedPlan solver A) r 1).solver =
        (Run.stateAfter (Run.nestedPlan solver A) r 0).solver) := by
  obtain rfl | hpos := Nat.eq_zero_or_pos n
  · exact .inl rfl
  have hfirst := (h.ends_iterate hquiet).of_ok (hn.iterate_eq hpos)
  refine .inr ⟨?_, hfirst⟩
  -- After the first iteration there is a reason to stop, so there cannot be another one.
  by_contra hmore
  have hgo := hn.running 1 (by omega)
  rw [hfirst.2.1] at hgo
  cases hgo

/-- **A search after any number of trials** goes on or has ended. -/
theorem Trying.goes {strong : Bool} {cap n : ℕ} {r : Run (LineSearch α) ω Empty α}
    (hquiet : A.debug = false ∨ ∀ e, E e) (hn : Run.Goes (Run.nestedPlan solver A) r n)
    (h : Trying A C E strong cap (Run.stateAfter (Run.nestedPlan solver A) r 0).progress
      (Run.stateAfter (Run.nestedPlan solver A) r 0).solver) :
    Trying A C E strong cap (Run.stateAfter (Run.nestedPlan solver A) r n).progress
        (Run.stateAfter (Run.nestedPlan solver A) r n).solver ∨
      (0 < n ∧ Ended C strong cap (Run.stateAfter (Run.nestedPlan solver A) r n).progress
        (Run.stateAfter (Run.nestedPlan solver A) r n).solver) := by
  induction n with
  | zero => exact .inl h
  | succ n ih =>
    -- A search that has ended makes no further trial.
    have hlast := Nat.lt_succ_self n
    obtain hgo | ⟨-, hend⟩ := ih (hn.mono (Nat.le_succ n))
    · obtain ⟨-, hnext⟩ := (hgo.ends_iterate hquiet).of_ok (hn.iterate_eq hlast)
      exact hnext.imp_right fun hended => ⟨Nat.succ_pos n, hended⟩
    · exact absurd (hn.running n hlast) hend.stopped

/-! ### The run of a search -/

section
variable {m : LineSearch α} {x way : Tensor α} {cost? : Option α} {gradient? : Option (Tensor α)}
  {t : Session ω}

/-- The run that a search from `x` along `way` is made in, with counts of its own. -/
def launched (A : Setting ω α) (m : LineSearch α) (x way : Tensor α) (cost? : Option α)
    (gradient? : Option (Tensor α)) (t : Session ω) : Run (LineSearch α) ω Empty α :=
  Run.fresh (Run.nestedPlan solver A) x cost? gradient? none (m.aimed way) { t with counts := .zero } []

/-- A search yields what its run ends in.  Its counts are added to the outer ones if it succeeds, and
    are lost if it fails. -/
theorem exec_run_launched (A : Setting ω α) (hm : m.line?.isSome = true) (x way : Tensor α)
    (cost? : Option α) (gradient? : Option (Tensor α)) (t : Session ω) :
    (run A x (some way) cost? gradient?).exec ⟨m, t⟩ =
      match (Run.execute (Run.nestedPlan solver A)).exec (launched A m x way cost? gradient? t) with
      | (.ok _, r) => (.ok r.progress,
          ⟨r.solver, { r.session with counts := t.counts + r.session.counts }⟩)
      | (.error e, r) => (.error e, ⟨r.solver, { r.session with counts := t.counts }⟩) := by
  -- The direction is set first, and nothing else of the memory is touched before the run.
  have hlaunched : launched A m x way cost? gradient? t = ⟨Run.seeded x
      (Run.nestedPlan (solver (ω := ω) (α := α)) A).config.maxIters cost? gradient? none,
        (Workspace.withCounts ⟨m.aimed way, t⟩ .zero).solver,
        (Workspace.withCounts ⟨m.aimed way, t⟩ .zero).session, []⟩ := rfl
  rw [exec_run, setDirection_eq hm, hlaunched]
  dsimp only
  rw [Run.nested_eq]
  unfold Workspace.nested Run.inner
  rw [Action.exec_ofFun, Action.exec_ofFun]
  rcases (Run.execute (Run.nestedPlan solver A)).exec ⟨Run.seeded x
    (Run.nestedPlan (solver (ω := ω) (α := α)) A).config.maxIters cost? gradient? none,
      (Workspace.withCounts ⟨m.aimed way, t⟩ .zero).solver,
      (Workspace.withCounts ⟨m.aimed way, t⟩ .zero).session, []⟩ with ⟨_ | _, r⟩
  · rfl
  · rfl

/-- What is known where the run starts. -/
theorem launched_progress (A : Setting ω α) (m : LineSearch α) (x way : Tensor α) (cost? : Option α)
    (gradient? : Option (Tensor α)) (t : Session ω) :
    (launched A m x way cost? gradient? t).progress.param = x ∧
      (launched A m x way cost? gradient? t).progress.cost = cost?.getD Scalar.infinity ∧
      (launched A m x way cost? gradient? t).progress.gradient = gradient? ∧
      (launched A m x way cost? gradient? t).progress.iter = 0 ∧
      (launched A m x way cost? gradient? t).progress.maxIters = RunConfig.defaultMaxIters ∧
      (launched A m x way cost? gradient? t).progress.reason = .notTerminated := by
  obtain ⟨hparam, hcost, hgradient, -⟩ :=
    Run.seeded_fields x (RunConfig.defaultMaxIters : ℤ) cost? gradient? none
  exact ⟨hparam, hcost, hgradient,
    Run.seeded_unstarted x (RunConfig.defaultMaxIters : ℤ) cost? gradient? none⟩

/-- The start of this run. -/
theorem ends_launched_ready {E' : Failure α → Prop} (hl : m.line? = some l) (hcap : 1 ≤ l.maxTrials)
    (hfoot : Line.Footing A (launched A m x way cost? gradient? t).progress way C E')
    (hdown : ∀ v slope length, Line.Uphill (launched A m x way cost? gradient? t).progress way v
      slope length → E' (.invalid .notDescent))
    (hground : ∀ l' start, l'.direction = some way → l'.start = some start → start.origin = x →
      Line.Ground A l' C E)
    (hknown : Scalar.isInfinite (cost?.getD Scalar.infinity) = false →
      C (cost?.getD Scalar.infinity)) :
    (Run.opening (Run.nestedPlan solver A)).Ends
      (Run.begun (Run.nestedPlan solver A) (launched A m x way cost? gradient? t)) (fun _ r' =>
        r'.session.counts =
          Line.openingCounts (launched A m x way cost? gradient? t).progress ∧
        ∃ length, x.backend.norm way = .ok length ∧
          Ready A C E m.isStrong l.maxTrials (Scalar.eq length 0.0) r'.progress r'.solver) E' := by
  obtain ⟨hparam, hcost, hgradient, hiter, hmax, hreason⟩ :=
    launched_progress A m x way cost? gradient? t
  obtain ⟨hprogress, hsolver, hcounts⟩ := Run.begun_course (Run.nestedPlan solver A)
    (launched A m x way cost? gradient? t)
  have haimed : (m.aimed way).line? = some { l with direction := some way } := by
    rw [line?_aimed, hl]
    rfl
  -- The start line of a run changes neither progress nor memory.
  rw [← hprogress] at hparam hcost hiter hmax hreason hfoot hdown ⊢
  refine (ends_opening_ready (E := E) (l := { l with direction := some way }) (d := way) ?_ rfl hcap
    hfoot hdown ?_ ?_ hiter hmax hreason).mono ?_
  · rw [hsolver]
    exact haimed
  · rw [hparam]
    exact hground
  · rw [hcost]
    exact hknown
  · rintro _ r' ⟨hspent, hready⟩
    rw [hsolver, hparam] at hready
    have hstrong : (launched A m x way cost? gradient? t).solver.isStrong = m.isStrong :=
      isStrong_aimed way m
    rw [hstrong] at hready
    refine ⟨hspent.trans ?_, hready⟩
    rw [hcounts]
    exact Counts.zero_add _

end

end LineSearch

end Minimization
