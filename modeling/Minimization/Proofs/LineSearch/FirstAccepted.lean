import Minimization.Proofs.LineSearch.Backtracking
import Minimization.Proofs.LineSearch.Bounded
import Minimization.Proofs.Operator.Sphere

namespace Minimization

/-!
# Backtracking finds the first acceptable step

A search by backtracking tries shorter and shorter steps, and ends at the first one that decreases
sufficiently, or at the last one that it may try.  The operator may remember what it was asked and
change its answers; all that matters is that its costs along the line are finite numbers.

* `Operator.costOr`, `Operator.gradientOr` — what is not known at the origin is asked for there.
* `Shrinkage` — a search as it stands on its line: what it knows there, and its constants.
* `Shrinkage.Holds`, `Shrinkage.Going` — memory and run of a search that has rejected some trials.
* `Shrinkage.Holds.ends_trial`, `Shrinkage.Going.ends_iterate` — one more trial.
* `Shrinkage.Reaches.exists_found` — all the trials of a run.
* `Backtracking.run_finds_first` — the whole search.
-/

variable {K ω : Type}

/-! ### What is known at the origin -/

namespace Operator

/-- The cost at a point, unless it is known; an infinite one is not. -/
def costOr {α : Type} [Scalar α] (op : Operator ω α) (x : Tensor α) :
    Option α → Action (Host ω) α α
  | some c => if Scalar.isInfinite c then op.cost x else pure c
  | none => op.cost x

/-- The gradient at a point, unless it is known. -/
def gradientOr {α : Type} (op : Operator ω α) (x : Tensor α) :
    Option (Tensor α) → Action (Host ω) α (Tensor α)
  | some v => pure v
  | none => op.gradient x

end Operator

namespace Action

variable {σ α β γ : Type} {s t u : σ}

/-- A computation whose outcome is known. -/
theorem ends_of_exec {m : Action σ α β} {b : β} (h : m.exec s = (.ok b, t)) {Q : β → σ → Prop}
    {E : Failure α → Prop} (hQ : Q b t) : m.Ends s Q E := by
  unfold Action.Ends
  rw [h]
  exact hQ

/-- A list that is longer by one. -/
theorem exec_mapM_concat {f : γ → Action σ α β} {xs : List γ} {x : γ} {bs : List β} {b : β}
    (hxs : (xs.mapM f).exec s = (.ok bs, t)) (hx : (f x).exec t = (.ok b, u)) :
    ((xs ++ [x]).mapM f).exec s = (.ok (bs ++ [b]), u) := by
  have hone : ([x].mapM f).exec t = (.ok [b], u) := by
    rw [List.mapM_cons, Action.exec_bind, hx]
    rfl
  rw [List.mapM_append, Action.exec_bind, hxs]
  dsimp only
  rw [Action.exec_bind, hone]
  rfl

end Action

namespace Session

variable {α : Type} {A : Setting ω α} {p : Progress α} {t : Session ω} {host : Host ω}

/-- A cost is counted where it is asked for. -/
theorem exec_knownCost [Scalar α] {cost? : Option α} {c : α}
    (hp : p.cost = cost?.getD Scalar.infinity)
    (hinfinite : Scalar.isInfinite (Scalar.infinity : α) = true)
    (h : (A.operator.costOr p.param cost?).exec t.host = (.ok c, host)) :
    (knownCost A p).exec t = (.ok c, ⟨host,
      t.counts + ⟨if cost?.all Scalar.isInfinite then 1 else 0, 0, 0, 0⟩, t.logbook⟩) := by
  have hevaluate (hcost : (A.operator.cost p.param).exec t.host = (.ok c, host)) :
      (cost A.operator p.param).exec t =
        (.ok c, ⟨host, t.counts + ⟨1, 0, 0, 0⟩, t.logbook⟩) := by
    unfold cost evaluate onHost
    rw [Action.exec_bind, Action.exec_modify]
    dsimp only
    rw [Action.exec_focus, hcost]
    rfl
  -- A cost that was not handed over, or is infinite, is evaluated; any other one is taken.
  unfold knownCost
  rw [hp]
  cases cost? with
  | none =>
    rw [Option.getD_none, if_pos hinfinite]
    exact hevaluate h
  | some c' =>
    by_cases hc : Scalar.isInfinite c' = true
    · simp only [Operator.costOr, hc, if_true] at h
      simp only [Option.getD_some, Option.all_some, hc, if_true]
      exact hevaluate h
    · simp only [Operator.costOr, hc] at h
      simp only [Option.getD_some, Option.all_some, hc]
      obtain ⟨hc', rfl⟩ := Prod.mk.inj h
      obtain rfl := Except.ok.inj hc'
      rfl

/-- So is a gradient. -/
theorem exec_knownGradient {v : Tensor α}
    (h : (A.operator.gradientOr p.param p.gradient).exec t.host = (.ok v, host)) :
    (knownGradient A p).exec t = (.ok v, ⟨host,
      t.counts + ⟨0, if p.gradient.isNone then 1 else 0, 0, 0⟩, t.logbook⟩) := by
  unfold knownGradient
  -- The gradient is evaluated only if there is none.
  cases hgradient : p.gradient with
  | none =>
    rw [hgradient] at h
    dsimp only
    unfold gradient evaluate onHost
    rw [Action.exec_bind, Action.exec_modify]
    dsimp only
    rw [Action.exec_focus]
    have hask : (A.operator.gradient p.param).exec t.host = (.ok v, host) := h
    rw [hask]
    rfl
  | some v' =>
    rw [hgradient] at h
    obtain ⟨hv, rfl⟩ := Prod.mk.inj h
    obtain rfl := Except.ok.inj hv
    rfl

end Session

/-! ### A search on its line -/

/-- A search by backtracking on its line, in numbers of a field: what it knows at the origin, the
    fraction of the slope that a decrease must reach, its first step, the factor between one step and
    the next, and how many it may try. -/
structure Shrinkage (K : Type) where
  ray : Ray K
  cost : K
  gradient : Tensor (Exact K)
  slope : K
  decrease : K
  first : K
  factor : K
  cap : ℕ

namespace Shrinkage

variable [Field K]

/-- The step length of the trial `i`. -/
def length (b : Shrinkage K) (i : ℕ) : K := b.first * b.factor ^ i

/-- The point of the trial `i`. -/
def point (b : Shrinkage K) (i : ℕ) : Tensor (Exact K) := b.ray.point (b.length i)

/-- The points of the first `n` trials. -/
def points (b : Shrinkage K) (n : ℕ) : List (Tensor (Exact K)) := (List.range n).map b.point

/-- One more trial, one more point. -/
theorem points_succ (b : Shrinkage K) (n : ℕ) : b.points (n + 1) = b.points n ++ [b.point n] := by
  unfold points
  rw [List.range_succ, List.map_append, List.map_singleton]

/-- The first step length. -/
theorem length_zero (b : Shrinkage K) : b.length 0 = b.first := by
  unfold length
  rw [pow_zero, mul_one]

/-- Every other one is a multiple of the one before. -/
theorem length_succ (b : Shrinkage K) (i : ℕ) : b.length (i + 1) = b.length i * b.factor := by
  unfold length
  rw [pow_succ, mul_assoc]

variable [LinearOrder K]

/-- The trial `i` decreases sufficiently if it costs `c`. -/
def Accepts (b : Shrinkage K) (i : ℕ) (c : K) : Prop :=
  c ≤ b.cost + b.decrease * b.length i * b.slope

/-- The trials that a search can make.  The run that it is made in has a cap of its own, the largest
    machine word, which a search with a higher cap runs into. -/
def limit (b : Shrinkage K) : ℕ := min b.cap RunConfig.defaultMaxIters

variable [Roots K]

/-- The memory of a search that has rejected `i` trials. -/
structure Holds (b : Shrinkage K) (i : ℕ) (s : Backtracking (Exact K)) : Prop where
  line : s.line.On b.ray (.finite b.cost) b.gradient (.finite b.slope)
  searching : s.line.done = none
  maxTrials : s.line.maxTrials = b.cap
  trials : s.line.trials = i
  decrease : s.decrease = .finite b.decrease
  shrink : s.shrink = .finite b.factor
  step : s.step = .finite (b.length i)

/-- What the trial `i` makes of the memory if it costs `c`. -/
def Leaves (b : Shrinkage K) (i : ℕ) (c : K) (s : Backtracking (Exact K)) : Prop :=
  b.Accepts i c ∧ s.line.done = some .lineSearchCondition ∨ ¬ b.Accepts i c ∧ b.Holds (i + 1) s

/-- A run that has rejected `i` trials, and goes on. -/
structure Going (b : Shrinkage K) (i : ℕ) (p : Progress (Exact K)) (m : LineSearch (Exact K)) :
    Prop where
  running : p.reason = .notTerminated
  maxIters : p.maxIters = RunConfig.defaultMaxIters
  iter : p.iter = i
  below : i < b.limit
  memory : ∃ s, m = .backtracking s ∧ b.Holds i s

/-- A run that shows the trial `i`, which costs `c`. -/
structure Shows (b : Shrinkage K) (i : ℕ) (c : K) (p : Progress (Exact K)) : Prop where
  param : p.param = b.point i
  cost : p.cost = .finite c
  iter : p.iter = i + 1

/-- A run ends with the trial `i`, which costs `c`: that is low enough, or no other trial is left. -/
def Ends (b : Shrinkage K) (i : ℕ) (c : K) (reason : Reason) : Prop :=
  b.Accepts i c ∧ reason = .lineSearchCondition ∨
    ¬ b.Accepts i c ∧ i + 1 = b.limit ∧ reason = .maxIters

variable {A : Setting ω (Exact K)} {b : Shrinkage K} {i : ℕ} {c : K} {host : Host ω}
  {s : Backtracking (Exact K)} {t : Session ω}

/-- The test of a trial is an inequality in the field. -/
theorem Holds.sufficient_iff (h : b.Holds i s) {start : LineStart (Exact K)}
    (hcost : start.cost = .finite b.cost) (hslope : start.slope = .finite b.slope) :
    s.sufficient start (.finite (b.length i)) (.finite c) = true ↔ b.Accepts i c := by
  unfold Backtracking.sufficient Accepts
  rw [hcost, hslope, h.decrease, Exact.finite_mul, Exact.finite_mul, Exact.finite_add,
    Exact.le_finite]

/-- **One trial** asks for the cost at its point, and accepts or rejects it. -/
theorem Holds.ends_trial (h : b.Holds i s)
    (hcost : (A.operator.cost (b.point i)).exec t.host = (.ok (.finite c), host)) :
    (Backtracking.trial A).Ends ⟨s, t⟩ (fun report w =>
      report.param = some (b.point i) ∧ report.cost = some (.finite c) ∧ b.Leaves i c w.solver ∧
        w.session.host = host ∧ w.session.counts = t.counts + ⟨1, 0, 0, 0⟩) fun _ => False := by
  have hpoint : s.line.point s.step = .ok (b.point i) := by rw [h.step, h.line.point]; rfl
  refine Backtracking.ends_trial_of h.searching (fun e he => ?_) fun x start hx hstart => ?_
  · cases hpoint.symm.trans he
  · obtain rfl := Except.ok.inj (hpoint.symm.trans hx)
    obtain rfl := Option.some.inj (h.line.start.symm.trans hstart)
    unfold Session.cost
    rw [Session.ends_evaluate]
    refine Action.ends_of_exec hcost ⟨rfl, rfl, ?_, rfl, Counts.tick_eq_add t.counts .cost⟩
    unfold Backtracking.tried
    rw [h.step]
    -- The trial is accepted exactly if the cost is low enough, and the next step length is the next of
    -- the sequence.
    split
    · next hlow => exact .inl ⟨(h.sufficient_iff rfl rfl).1 hlow, rfl⟩
    · next hhigh =>
      refine .inr ⟨fun hlow => hhigh ((h.sufficient_iff rfl rfl).2 hlow), ?_⟩
      exact ⟨h.line.countTrial, h.searching, h.maxTrials, congrArg (· + 1) h.trials, h.decrease,
        h.shrink, by rw [h.shrink, Exact.finite_mul, length_succ]⟩

/-- What the rules make of a run after a trial. -/
theorem Going.ruled {p : Progress (Exact K)} {m : LineSearch (Exact K)} (h : b.Going i p m)
    {q : Progress (Exact K)} (hshows : b.Shows i c q) (hmax : q.maxIters = p.maxIters)
    (hleaves : b.Leaves i c s)
    (hreason : q.reason = Run.ruling (Run.nestedPlan LineSearch.solver A).config q s.line.reason) :
    b.Ends i c q.reason ∨ ¬ b.Accepts i c ∧ b.Going (i + 1) q (.backtracking s) := by
  obtain ⟨haccepts, hdone⟩ | ⟨hrejects, hholds⟩ := hleaves
  · -- The search has ended, which the rules of the run respect.
    have hown : s.line.reason = .lineSearchCondition := by
      unfold Line.reason
      rw [hdone]
    rw [hown, LineSearch.ruling_cases hshows.cost] at hreason
    exact .inl (.inl ⟨haccepts, hreason⟩)
  · have htrials : s.line.trials = q.iter := hholds.trials.trans hshows.iter.symm
    have hfinite : Scalar.le (Exact.finite c) (-Scalar.infinity) = false := rfl
    rw [LineSearch.ruling_open hshows.cost (hmax.trans h.maxIters) hholds.searching hholds.maxTrials
      htrials, hshows.iter, hfinite] at hreason
    have hrule : q.reason = if b.limit ≤ i + 1 then .maxIters else .notTerminated := hreason
    have hbelow := h.below
    by_cases hlast : b.limit ≤ i + 1
    · rw [if_pos hlast] at hrule
      exact .inl (.inr ⟨hrejects, by omega, hrule⟩)
    · rw [if_neg hlast] at hrule
      exact .inr ⟨hrejects, hrule, hmax.trans h.maxIters, hshows.iter, by omega, s, rfl, hholds⟩

/-- **One iteration** of the run is one trial, with which the run ends or goes on.  Debug mode finds
    nothing in it. -/
theorem Going.ends_iterate {r : Run (LineSearch (Exact K)) ω Empty (Exact K)}
    (h : b.Going i r.progress r.solver)
    (hcost : (A.operator.cost (b.point i)).exec r.session.host = (.ok (.finite c), host)) :
    (Run.iterate (Run.nestedPlan LineSearch.solver A)).Ends r (fun _ r' =>
      r'.session.host = host ∧ r'.session.counts = r.session.counts + ⟨1, 0, 0, 0⟩ ∧
      (∃ s', r'.solver = .backtracking s') ∧ b.Shows i c r'.progress ∧
      (b.Ends i c r'.progress.reason ∨ ¬ b.Accepts i c ∧ b.Going (i + 1) r'.progress r'.solver))
      fun _ => False := by
  obtain ⟨s, hs, hholds⟩ := h.memory
  have hwatched : ∀ p notes isNewBest ws, (Watches.iteration
      (Run.nestedPlan (LineSearch.solver (ω := ω)) A).observer p notes isNewBest).Ends ws
        (fun _ _ => True) fun _ => False := by
    intro p notes isNewBest ws
    exact Run.noObserver_watched p notes isNewBest ws fun _ => False
  refine Run.ends_iterate_hosted (Q := fun p m host' counts => host' = host ∧
    counts = r.session.counts + ⟨1, 0, 0, 0⟩ ∧ (∃ s', m = .backtracking s') ∧ b.Shows i c p ∧
      (b.Ends i c p.reason ∨ ¬ b.Accepts i c ∧ b.Going (i + 1) p m)) h.running ?_ hwatched
  rw [hs]
  show (LineSearch.dispatch _ _).Ends _ _ _
  rw [LineSearch.ends_dispatch_backtracking]
  refine (hholds.ends_trial hcost).mono ?_
  rintro report w ⟨hparam, hreport, hleaves, hhost, hcounts⟩
  have hshows : b.Shows i c (r.progress.update report).1.increment :=
    ⟨by simp [hparam], by simp [hreport], by simp [h.iter]⟩
  refine ⟨fun e he => ?_, fun session hsession hcount => ?_⟩
  · -- The cost is a number, and no count has gone down.
    have hnumber : (Run.counted r report ⟨LineSearch.backtracking w.solver, w.session⟩).progress.cost =
        .finite c := hshows.cost
    have hgrown : (Run.counted r report ⟨LineSearch.backtracking w.solver, w.session⟩).session.counts =
        r.session.counts + ⟨1, 0, 0, 0⟩ := hcounts
    unfold Run.inspection Run.finding at he
    rw [hgrown, Counts.decreased?_add, hnumber, Exact.isNaN_finite] at he
    simp at he
  · refine (LineSearch.ends_terminate_line (m := .backtracking w.solver) rfl).mono ?_
    rintro own v ⟨rfl, rfl⟩
    refine ⟨hsession.trans hhost, hcount.trans hcounts, ⟨_, rfl⟩, ?_, ?_⟩
    · exact ⟨hshows.param, hshows.cost, hshows.iter⟩
    · exact h.ruled (A := A) ⟨hshows.param, hshows.cost, hshows.iter⟩ (by simp) hleaves rfl

/-! ### The start -/

/-- The settings of a search. -/
structure Fits (b : Shrinkage K) (s : Backtracking (Exact K)) : Prop where
  maxTrials : s.line.maxTrials = b.cap
  decrease : s.decrease = .finite b.decrease
  shrink : s.shrink = .finite b.factor
  initialStep : s.line.initialStep = .finite b.first

/-- The direction is not zero and leads downhill. -/
structure Downhill (b : Shrinkage K) : Prop where
  moving : ¬ b.ray.Still
  dot : b.ray.backend.dot b.gradient b.ray.way = .ok (.finite b.slope)
  slope : b.slope < 0

/-- The evaluations at the origin: what is not known there. -/
def startCounts (cost? : Option (Exact K)) (gradient? : Option (Tensor (Exact K))) : Counts :=
  ⟨if cost?.all Scalar.isInfinite then 1 else 0, if gradient?.isNone then 1 else 0, 0, 0⟩

/-- What is reported at the origin. -/
def origin (b : Shrinkage K) : Report (Exact K) where
  param := some b.ray.start
  cost := some (.finite b.cost)
  gradient := some b.gradient

/-- A search along a direction that leads downhill settles on its line. -/
theorem Downhill.ends_settle (h : b.Downhill) (l : Line (Exact K)) :
    (Line.settle b.ray.start b.ray.way (.finite b.cost) b.gradient).Ends ⟨l, t⟩
      (fun report w => report = b.origin ∧
        w = ⟨Line.begun b.ray (.finite b.cost) b.gradient (.finite b.slope) l, t⟩) fun _ => False := by
  have hdown : Scalar.lt (Exact.finite b.slope) 0.0 = true := by simpa using h.slope
  have hstill : ¬ Scalar.eq b.ray.length 0.0 = true := h.moving
  -- Failures and a direction that leads up are excluded, so that the line begins.
  refine Line.ends_settle_of (fun e he => ?_) (fun e he => ?_)
    (fun slope length hslope _ _ hflat => ?_) fun slope length hslope hnorm _ => ⟨rfl, ?_⟩
  · cases h.dot.symm.trans he
  · cases b.ray.norm_way.symm.trans he
  · obtain rfl := Except.ok.inj (hslope.symm.trans h.dot)
    cases hdown.symm.trans hflat
  · obtain rfl := Except.ok.inj (hslope.symm.trans h.dot)
    obtain rfl := Except.ok.inj (hnorm.symm.trans b.ray.norm_way)
    unfold Line.settled
    rw [if_neg hstill]
    rfl

section
variable {cost? : Option (Exact K)} {gradient? : Option (Tensor (Exact K))} {host₁ host₂ : Host ω}
  {p : Progress (Exact K)}

/-- **The start of a search** asks for what is not known, and nothing else. -/
theorem Downhill.ends_init (h : b.Downhill) (hs : b.Fits s) (hl : s.line.direction = some b.ray.way)
    (hparam : p.param = b.ray.start) (hknown : p.cost = cost?.getD Scalar.infinity)
    (hseeded : p.gradient = gradient?)
    (hcost : (A.operator.costOr b.ray.start cost?).exec t.host = (.ok (.finite b.cost), host₁))
    (hgradient : (A.operator.gradientOr b.ray.start gradient?).exec host₁ = (.ok b.gradient, host₂)) :
    (Backtracking.solver.init A p).Ends ⟨s, t⟩ (fun report? w =>
      report? = some b.origin ∧ b.Holds 0 w.solver ∧ w.session.host = host₂ ∧
        w.session.counts = t.counts + startCounts cost? gradient?) fun _ => False := by
  rw [← hparam] at hcost hgradient
  rw [← hseeded] at hgradient
  -- Cost and gradient are evaluated one after the other, each only if needed.
  have hbegin : (Line.begin Backtracking.name A p).Ends ⟨s.line, t⟩ (fun report w =>
      report = b.origin ∧
        w.solver = Line.begun b.ray (.finite b.cost) b.gradient (.finite b.slope) s.line ∧
        w.session.host = host₂ ∧ w.session.counts = t.counts + startCounts cost? gradient?)
      fun _ => False := by
    rw [Line.ends_begin_iff_of_direction hl]
    refine Action.ends_of_exec (Session.exec_knownCost hknown Exact.isInfinite_infinity hcost) ?_
    refine Action.ends_of_exec (Session.exec_knownGradient hgradient) ?_
    rw [hparam]
    refine (h.ends_settle s.line).mono ?_
    rintro report w ⟨hreport, rfl⟩
    refine ⟨hreport, rfl, rfl, ?_⟩
    rw [hseeded]
    exact (Counts.add_assoc ..).trans (congrArg (t.counts + ·)
      (Counts.ext (Nat.add_zero _) (Nat.zero_add _) rfl rfl))
  refine Backtracking.ends_init_of (hbegin.mono ?_)
  rintro report w ⟨rfl, hw, hhost, hcounts⟩
  refine ⟨rfl, ?_, hhost, hcounts⟩
  rw [hw]
  exact ⟨.begun hl, rfl, hs.maxTrials, rfl, hs.decrease, hs.shrink,
    hs.initialStep.trans (congrArg Exact.finite b.length_zero.symm)⟩

/-- The start of its run. -/
theorem Downhill.ends_opening {r : Run (LineSearch (Exact K)) ω Empty (Exact K)} (h : b.Downhill)
    (hs : b.Fits s) (hcap : 1 ≤ b.cap) (hl : s.line.direction = some b.ray.way)
    (hsolver : r.solver = .backtracking s) (hparam : r.progress.param = b.ray.start)
    (hknown : r.progress.cost = cost?.getD Scalar.infinity) (hseeded : r.progress.gradient = gradient?)
    (hiter : r.progress.iter = 0) (hmax : r.progress.maxIters = RunConfig.defaultMaxIters)
    (hreason : r.progress.reason = .notTerminated)
    (hcost : (A.operator.costOr b.ray.start cost?).exec r.session.host =
      (.ok (.finite b.cost), host₁))
    (hgradient : (A.operator.gradientOr b.ray.start gradient?).exec host₁ =
      (.ok b.gradient, host₂)) :
    (Run.opening (Run.nestedPlan LineSearch.solver A)).Ends r (fun _ r' =>
      b.Going 0 r'.progress r'.solver ∧ r'.session.host = host₂ ∧
        r'.session.counts = r.session.counts + startCounts cost? gradient?) fun _ => False := by
  have hintroduced : ∀ name notes ws, (Watches.init
      (Run.nestedPlan (LineSearch.solver (ω := ω)) A).observer name notes).Ends ws
        (fun _ _ => True) fun _ => False := by
    intro name notes ws
    exact Run.noObserver_introduced name notes ws fun _ => False
  refine Run.ends_opening_hosted (Q := fun p m host counts => b.Going 0 p m ∧ host = host₂ ∧
    counts = r.session.counts + startCounts cost? gradient?) ?_ hintroduced
  rw [hsolver]
  -- The search at hand is one by backtracking.
  show (LineSearch.dispatch _ _).Ends _ _ _
  rw [LineSearch.ends_dispatch_backtracking]
  refine (h.ends_init hs hl hparam hknown hseeded hcost hgradient).mono ?_
  rintro report? w ⟨rfl, hholds, hhost, hcounts⟩
  refine ⟨⟨?_, ?_, ?_, ?_, w.solver, rfl, hholds⟩, hhost, hcounts⟩
  · exact (ProgressOn.reason_update _ _).trans hreason
  · exact (ProgressOn.maxIters_update _ _).trans hmax
  · exact (ProgressOn.iter_update _ _).trans hiter
  · exact lt_min hcap (by decide)

end

/-! ### All trials -/

/-- The run `r` has rejected trials that cost as listed.  They have been asked for in this order, and
    nothing else has been asked for since the origin was left. -/
structure Reaches (b : Shrinkage K) (op : Operator ω (Exact K)) (host : Host ω) (start : Counts)
    (rejected : List K) (r : Run (LineSearch (Exact K)) ω Empty (Exact K)) : Prop where
  evaluated : ((b.points rejected.length).mapM op.cost).exec host =
    (.ok (rejected.map .finite), r.session.host)
  refused : ∀ i c, rejected[i]? = some c → ¬ b.Accepts i c
  counts : r.session.counts = start + ⟨rejected.length, 0, 0, 0⟩
  going : b.Going rejected.length r.progress r.solver

/-- A search has rejected trials that cost as listed and shows the next one, which costs `c` and with
    which it ends. -/
structure Found (b : Shrinkage K) (op : Operator ω (Exact K)) (host : Host ω) (rejected : List K)
    (c : K) (p : Progress (Exact K)) (last : Host ω) : Prop where
  evaluated : ((b.points (rejected.length + 1)).mapM op.cost).exec host =
    (.ok ((rejected ++ [c]).map .finite), last)
  refused : ∀ i x, rejected[i]? = some x → ¬ b.Accepts i x
  below : rejected.length < b.limit
  shows : b.Shows rejected.length c p
  ends : b.Ends rejected.length c p.reason

/-- **All trials of a run.**  It goes on as long as it rejects, and at most as long as it may. -/
theorem Reaches.exists_found {r : Run (LineSearch (Exact K)) ω Empty (Exact K)} {n : ℕ}
    {start : Counts} {rejected : List K}
    (hcosts : ∀ a host, ∃ c host', (A.operator.cost (b.ray.point a)).exec host =
      (.ok (.finite c), host'))
    (hn : Run.Goes (Run.nestedPlan LineSearch.solver A) r n)
    (h : b.Reaches A.operator host start rejected
      (Run.stateAfter (Run.nestedPlan LineSearch.solver A) r n)) :
    ∃ m rejected c u, Run.Goes (Run.nestedPlan LineSearch.solver A) r m ∧
      Run.stateAfter (Run.nestedPlan LineSearch.solver A) r m = u ∧
      (∃ s, u.solver = .backtracking s) ∧
      b.Found A.operator host rejected c u.progress u.session.host ∧
      u.session.counts = start + ⟨rejected.length + 1, 0, 0, 0⟩ := by
  -- On the number of trials that are left.
  induction hleft : b.limit - rejected.length generalizing n rejected with
  | zero =>
    have hbelow := h.going.below
    omega
  | succ left ih =>
    obtain ⟨c, last, hcost⟩ := hcosts (b.length rejected.length)
      (Run.stateAfter (Run.nestedPlan LineSearch.solver A) r n).session.host
    obtain ⟨_, u, hit, hhost, hcounts, hsolver, hshows, hend⟩ :=
      (h.going.ends_iterate hcost).exists_ok
    have hu : Run.stateAfter (Run.nestedPlan LineSearch.solver A) r (n + 1) = u :=
      congrArg Prod.snd hit
    have hnext : Run.Goes (Run.nestedPlan LineSearch.solver A) r (n + 1) :=
      hn.next h.going.running rfl (by rw [hit]; rfl)
    have hevaluated : ((b.points (rejected.length + 1)).mapM A.operator.cost).exec host =
        (.ok ((rejected ++ [c]).map .finite), u.session.host) := by
      rw [points_succ, List.map_append, List.map_singleton, hhost]
      exact Action.exec_mapM_concat h.evaluated hcost
    have hspent : u.session.counts = start + ⟨rejected.length + 1, 0, 0, 0⟩ := by
      rw [hcounts, h.counts, Counts.add_assoc]
      rfl
    obtain hend | ⟨hrejects, hgoing⟩ := hend
    · exact ⟨n + 1, rejected, c, u, hnext, hu, hsolver,
        ⟨hevaluated, h.refused, h.going.below, hshows, hend⟩, hspent⟩
    · have hlength : (rejected ++ [c]).length = rejected.length + 1 := by simp
      have hlater := @ih (n + 1) (rejected ++ [c]) hnext
      refine hlater ?_ (by omega)
      rw [hu]
      refine ⟨by rw [hlength]; exact hevaluated, fun i x hx => ?_, by rw [hlength]; exact hspent,
        by rw [hlength]; exact hgoing⟩
      by_cases hi : i < rejected.length
      · rw [List.getElem?_append_left hi] at hx
        exact h.refused i x hx
      · obtain rfl : i = rejected.length := by
          have hbound := (List.getElem?_eq_some_iff.1 hx).1
          omega
        rw [List.getElem?_concat_length] at hx
        obtain rfl := Option.some.inj hx
        exact hrejects

end Shrinkage

/-! ### The whole search -/

namespace Backtracking

variable [Field K] [LinearOrder K] [Roots K]

/-- **A search by backtracking finds the first acceptable step.**  Along any direction that leads
    downhill and with any constants, from any memory of an earlier search, it tries the first step, and
    then steps that are each shorter by the factor, until one decreases sufficiently or no other may be
    tried.  It succeeds and shows the last trial; its trials are all that it asks for besides what is
    not known at the origin.  The operator may do what it likes, if only its costs on the line are
    finite. -/
theorem run_finds_first (A : Setting ω (Exact K)) {b : Shrinkage K} {s : Backtracking (Exact K)}
    {cost? : Option (Exact K)} {gradient? : Option (Tensor (Exact K))} {session : Session ω}
    {host₁ host₂ : Host ω}
    (hcosts : ∀ a host, ∃ c host', (A.operator.cost (b.ray.point a)).exec host =
      (.ok (.finite c), host'))
    (hs : b.Fits s) (hb : b.Downhill) (hcap : 1 ≤ b.cap)
    (hcost : (A.operator.costOr b.ray.start cost?).exec session.host =
      (.ok (.finite b.cost), host₁))
    (hgradient : (A.operator.gradientOr b.ray.start gradient?).exec host₁ =
      (.ok b.gradient, host₂)) :
    ∃ rejected c p s' session',
      (LineSearch.run A b.ray.start (some b.ray.way) cost? gradient?).exec
        ⟨.backtracking s, session⟩ = (.ok p, ⟨.backtracking s', session'⟩) ∧
      b.Found A.operator host₂ rejected c p session'.host ∧
      session'.counts = session.counts + (Shrinkage.startCounts cost? gradient? +
        ⟨rejected.length + 1, 0, 0, 0⟩) := by
  let P := Run.nestedPlan (LineSearch.solver (ω := ω) (α := Exact K)) A
  let r := LineSearch.launched A (.backtracking s) b.ray.start b.ray.way cost? gradient? session
  obtain ⟨hparam, hknown, hseeded, hiter, hmax, hreason⟩ :=
    LineSearch.launched_progress A (.backtracking s) b.ray.start b.ray.way cost? gradient? session
  obtain ⟨hprogress, hsolver, hcounts⟩ := Run.begun_course P r
  obtain ⟨_, u, hexec, hgoing, hhost, hstart⟩ := (hb.ends_opening (A := A) (r := Run.begun P r)
    (s := { s with line := { s.line with direction := some b.ray.way } })
    ⟨hs.maxTrials, hs.decrease, hs.shrink, hs.initialStep⟩ hcap rfl hsolver hparam hknown hseeded
    hiter hmax hreason hcost hgradient).exists_ok
  have hu : Run.stateAfter P r 0 = u := congrArg Prod.snd hexec
  have hreaches : b.Reaches A.operator host₂ (Shrinkage.startCounts cost? gradient?) []
      (Run.stateAfter P r 0) := by
    rw [hu]
    refine ⟨?_, nofun, ?_, hgoing⟩
    · rw [hhost]
      rfl
    · rw [hstart, hcounts]
      exact (Counts.zero_add _).trans (Counts.add_zero _).symm
  obtain ⟨m, rejected, c, v, hn, hv, ⟨s', hs'⟩, hfound, hspent⟩ :=
    hreaches.exists_found hcosts (.zero (by rw [hexec]; rfl))
  -- The run has stopped by itself.
  have hstopped : ¬ (Run.stateAfter P r m).progress.reason = .notTerminated := by
    rw [hv]
    obtain ⟨-, hreason⟩ | ⟨-, -, hreason⟩ := hfound.ends
    · rw [hreason]
      nofun
    · rw [hreason]
      nofun
  have hrun := LineSearch.exec_run_launched A (m := .backtracking s) rfl b.ray.start b.ray.way cost?
    gradient? session
  rw [hn.execute_eq (by rw [hmax]; decide) hstopped] at hrun
  dsimp only at hrun
  rw [Run.finished_progress, hv] at hrun
  have hmemory : (Run.finished P r v).solver = .backtracking s' := hs'
  rw [hmemory] at hrun
  refine ⟨rejected, c, v.progress, s', _, hrun, hfound, ?_⟩
  exact congrArg (session.counts + ·) hspent

/-- From one towards zero on the sphere function; two steps are too long. -/
def sphereShrinkage : Shrinkage ℚ :=
  ⟨.ofVec .array ![1] ![-1], 1, .ofVec .array ![2], -2, 1 / 10, 4, 1 / 2, 5⟩

/-- The search along it. -/
def sphereBacktracking : Backtracking (Exact ℚ) := ⟨⟨none, 4.0, 5, 0, none, none⟩, 0.1, 0.5, 4.0⟩

/-- On the sphere function two step lengths are rejected, and the third is accepted. -/
theorem run_finds_first_sphere :
    sphereShrinkage.Fits sphereBacktracking ∧ sphereShrinkage.Downhill ∧
    ∃ rejected c p s' session',
      (LineSearch.run ⟨sphereOperator, true⟩ sphereShrinkage.ray.start (some sphereShrinkage.ray.way)
        none none).exec ⟨.backtracking sphereBacktracking, .start ()⟩ =
          (.ok p, ⟨.backtracking s', session'⟩) ∧
      sphereShrinkage.Found sphereOperator ⟨(), .unguarded⟩ rejected c p session'.host ∧
      rejected.length = 2 ∧ session'.counts = ⟨4, 1, 0, 0⟩ := by
  have hfits : sphereShrinkage.Fits sphereBacktracking :=
    ⟨rfl, by decide +kernel, by decide +kernel, by decide +kernel⟩
  have hdownhill : sphereShrinkage.Downhill := by
    refine ⟨by unfold Ray.Still; decide +kernel, ?_, by decide⟩
    exact (Backend.dot_ofVec .array ![2] ![-1]).trans (by simp [sphereShrinkage, dotProduct])
  have hcosts (a : ℚ) (host : Host Unit) : ∃ c host', ((sphereOperator : Operator Unit (Exact ℚ)).cost
      (sphereShrinkage.ray.point a)).exec host = (.ok (.finite c), host') :=
    ⟨_, host, congrArg (Except.ok ·, host) (sphere_real ..)⟩
  have hcost : ((sphereOperator : Operator Unit (Exact ℚ)).costOr sphereShrinkage.ray.start none).exec
      (Session.start ()).host = (.ok (.finite sphereShrinkage.cost), ⟨(), .unguarded⟩) :=
    congrArg (Except.ok ·, _) (by decide +kernel)
  have hgradient : ((sphereOperator : Operator Unit (Exact ℚ)).gradientOr sphereShrinkage.ray.start
      none).exec ⟨(), .unguarded⟩ = (.ok sphereShrinkage.gradient, ⟨(), .unguarded⟩) :=
    congrArg (Except.ok ·, _) (by decide +kernel)
  obtain ⟨rejected, c, p, s', session', hrun, hfound, hcounts⟩ := run_finds_first
    ⟨sphereOperator, true⟩ hcosts hfits hdownhill (by decide) hcost hgradient
  -- The run can be computed, and shows three trials.
  have hiter : ((LineSearch.run ⟨sphereOperator, true⟩ sphereShrinkage.ray.start
      (some sphereShrinkage.ray.way) none none).exec
        ⟨.backtracking sphereBacktracking, .start ()⟩).1.toOption.map (·.iter) = some 3 := by
    decide +kernel
  rw [hrun] at hiter
  have hlength : rejected.length = 2 := by
    have hthree : p.iter = 3 := Option.some.inj hiter
    have hshown := hfound.shows.iter
    omega
  refine ⟨hfits, hdownhill, rejected, c, p, s', session', hrun, hfound, hlength, ?_⟩
  rw [hcounts, hlength]
  rfl

end Backtracking

end Minimization
