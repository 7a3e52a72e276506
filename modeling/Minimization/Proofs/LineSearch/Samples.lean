import Mathlib.Order.Bounds.Basic
import Minimization.Proofs.LineSearch.Bracket
import Minimization.Proofs.Run.Ending
import Minimization.Proofs.Scalar.Finite

namespace Minimization

/-!
# What a search has measured

The trials of a search are told by the states of its run, so that one can say which of them the bracket
remembers.

* `StrongWolfe.sample?` — what an iteration measures; `Run.samples` — the trials of the first iterations
  of a run.
* `Run.outcome_of_iterate` — an iteration of a run makes its trial, with one of the outcomes.
* `StrongWolfe.Upholds` — the lower end has the least cost of the origin and of all trials that decrease
  sufficiently, and the bracket is sure of its ends.
* `StrongWolfe.Upholds.next` — every trial keeps this; `Run.Goes.upholds` — and so does a run.
-/

variable {ω η α : Type} [Scalar α]

/-- What an iteration of a search measures, if the operator answers. -/
def StrongWolfe.sample? (A : Setting ω α) (s : StrongWolfe α) (host : Host ω) :
    Option (Sample α) := do
  let k ← if s.line.done.isNone then s.bracket else none
  let x ← (s.line.point (next k)).toOption
  let c ← ((A.operator.cost x).exec host).1.toOption
  return ⟨next k, x, c⟩

/-- What the search measures in the iteration that begins with the run `t`. -/
def Run.sample? (A : Setting ω α) (t : Run (LineSearch α) ω η α) : Option (Sample α) :=
  match t.solver with
  | .strongWolfe s => s.sample? A t.session.host
  | _ => none

/-- What the search measures in the first `n` iterations of the run `r`. -/
def Run.samples (P : Plan (LineSearch α) ω η α) (r : Run (LineSearch α) ω η α) (n : ℕ) :
    List (Sample α) :=
  (List.range n).filterMap fun i => sample? P.setting (stateAfter P r i)

/-- Before the first iteration nothing has been measured. -/
@[simp] theorem Run.samples_zero (P : Plan (LineSearch α) ω η α) (r : Run (LineSearch α) ω η α) :
    samples P r 0 = [] := rfl

/-- An iteration that measures adds what it measures. -/
theorem Run.samples_succ {P : Plan (LineSearch α) ω η α} {r : Run (LineSearch α) ω η α} {n : ℕ}
    {m : Sample α} (h : sample? P.setting (stateAfter P r n) = some m) :
    samples P r (n + 1) = samples P r n ++ [m] := by
  unfold samples
  rw [List.range_succ, List.filterMap_append]
  simp [h]

/-- A trial that has been made is the one that is told. -/
theorem StrongWolfe.sample?_of_taken {A : Setting ω α} {s : StrongWolfe α} {host : Host ω}
    {k : Bracket α} {m : Sample α} (hdone : s.line.done = none) (hk : s.bracket = some k)
    (hm : m.Taken A s.line host) (hnext : m.step = next k) : s.sample? A host = some m := by
  obtain ⟨step, x, c⟩ := m
  obtain rfl : step = next k := hnext
  obtain ⟨hpoint, after, hcost⟩ := hm
  simp [sample?, hdone, hk, hpoint, hcost, Except.toOption]

/-- A trial either ends the search or tells no reason to stop. -/
theorem StrongWolfe.Outcome.eq_none {A : Setting ω α} {s : StrongWolfe α} {start : LineStart α}
    {k k' : Bracket α} {m : Sample α} {done : Option Reason} {n : ℕ}
    (h : Outcome A s start k m k' done n)
    (hreason : (s.concluded k' done).line.reason = .notTerminated) : done = none := by
  cases done with
  | none => rfl
  | some reason =>
    obtain rfl : reason = .notTerminated := hreason
    generalize hd : some Reason.notTerminated = d at h
    cases h <;> simp [narrowness] at hd

/-! ### Iterations -/

section
variable {A : Setting ω α} {O : Observer η α} {c : RunConfig α} {s : StrongWolfe α} {k : Bracket α}

/-- A step of a search that is not over makes a trial, if nothing is said of failures. -/
theorem LineSearch.ends_step_outcome {p : Progress α} {session : Session ω}
    (hdone : s.line.done = none) (hk : s.bracket = some k) :
    (LineSearch.solver.step A p).Ends ⟨.strongWolfe s, session⟩
      (fun _ w => ∃ (m : Sample α) (v : Workspace (StrongWolfe α) ω), m.step = StrongWolfe.next k ∧
        StrongWolfe.Leaves A s.counted k m session v ∧ w = ⟨.strongWolfe v.solver, v.session⟩)
      fun _ => True := by
  show (LineSearch.dispatch _ _).Ends _ _ _
  rw [LineSearch.ends_dispatch_strongWolfe]
  refine (StrongWolfe.ends_trial_outcome ((Line.Ground.anyhow A s.line).firm _) hdone hk
    fun _ _ _ _ _ _ => trivial).mono ?_
  rintro _ v ⟨m, hm, hleaves, -⟩
  exact ⟨m, v, hm, hleaves, rfl⟩

/-- **An iteration of a run** makes a trial, which is told; if the run goes on, the trial has not ended
    the search. -/
theorem Run.outcome_of_iterate {t t' : Run (LineSearch α) ω η α}
    (hgo : t.progress.reason = .notTerminated)
    (h : (iterate ⟨LineSearch.solver, O, A, c⟩).exec t = (.ok (), t'))
    (hs : t.solver = .strongWolfe s) (hdone : s.line.done = none) (hk : s.bracket = some k) :
    ∃ m start k' done g, sample? A t = some m ∧ m.step = StrongWolfe.next k ∧
      m.Taken A s.line t.session.host ∧ s.line.start = some start ∧
      StrongWolfe.Outcome A s.counted start k m k' done g ∧
      t'.solver = .strongWolfe (s.counted.concluded k' done) ∧
      (t'.progress.reason = .notTerminated → done = none) := by
  obtain ⟨report, w, own, session, v, hstep, hown, hprogress, hsolver⟩ := iterate_reports _ hgo h
  rw [hs] at hstep
  obtain ⟨m, ⟨s', u⟩, hm, ⟨start, k', done, g, hstart, htaken, houtcome, rfl, -⟩, rfl⟩ :=
    (LineSearch.ends_step_outcome hdone hk).of_ok hstep
  -- The stopping rule tells whether the search is over, and leaves the memory alone.
  obtain ⟨rfl, rfl⟩ := (LineSearch.ends_terminate_line (E := fun _ => True)
    (m := .strongWolfe (s.counted.concluded k' done)) rfl).of_ok hown
  have htaken' : m.Taken A s.line t.session.host := htaken.congr rfl rfl
  refine ⟨m, start, k', done, g, ?_, hm, htaken', hstart, houtcome, hsolver, fun hnext => ?_⟩
  · unfold sample?
    rw [hs]
    exact StrongWolfe.sample?_of_taken hdone hk htaken' hm
  · rw [hprogress] at hnext
    exact houtcome.eq_none (of_ruling_eq_running hnext).1

end

namespace StrongWolfe

variable {K : Type} [Field K] [LinearOrder K]

/-! ### The least cost -/

/-- The cost at the origin, and those of the samples that decrease sufficiently. -/
def lowCosts (y₀ d₀ c₁ : K) (ts : List (Sample (Exact K))) : Set K :=
  {y | y = y₀ ∨ ∃ m ∈ ts, ∃ a, m.At a y ∧ y ≤ y₀ + c₁ * a * d₀}

variable {y₀ d₀ c₁ c₂ a y : K} {ts : List (Sample (Exact K))} {m : Sample (Exact K)}

/-- One more sample has one more cost. -/
theorem mem_lowCosts_append (hm : m.At a y) {z : K} : z ∈ lowCosts y₀ d₀ c₁ (ts ++ [m]) ↔
    z ∈ lowCosts y₀ d₀ c₁ ts ∨ z = y ∧ y ≤ y₀ + c₁ * a * d₀ := by
  have hlast : (∃ b, m.At b z ∧ z ≤ y₀ + c₁ * b * d₀) ↔ z = y ∧ y ≤ y₀ + c₁ * a * d₀ := by
    constructor
    · rintro ⟨b, hb, hlow⟩
      obtain rfl := Exact.finite.inj (hm.step.symm.trans hb.step)
      obtain rfl := Exact.finite.inj (hm.cost.symm.trans hb.cost)
      exact ⟨rfl, hlow⟩
    · rintro ⟨rfl, hlow⟩
      exact ⟨a, hm, hlow⟩
  simp only [lowCosts, Set.mem_ofPred_eq, List.mem_append, List.mem_singleton, or_and_right, exists_or,
    exists_eq_left, hlast, or_assoc]

variable [Roots K] {A : Setting ω (Exact K)} {s : StrongWolfe (Exact K)}
  {start : LineStart (Exact K)} {k k' : Bracket (Exact K)} {done : Option Reason} {n : ℕ}

/-- The cost at the lower end remains, or is that of the trial. -/
theorem Outcome.lowCost (h : Outcome A s start k m k' done n) :
    Long s start k m ∧ k'.lowCost = k.lowCost ∨ ¬Long s start k m ∧ k'.lowCost = m.cost := by
  cases h with
  | closes _ hlong => exact .inl ⟨hlong, rfl⟩
  | accepts hshort => exact .inr ⟨hshort, rfl⟩
  | turns _ hshort => exact .inr ⟨hshort, rfl⟩
  | advances _ hshort => exact .inr ⟨hshort, rfl⟩
  | shortens _ hlong => exact .inl ⟨hlong, rfl⟩
  | swaps _ hshort => exact .inr ⟨hshort, rfl⟩
  | raises _ hshort => exact .inr ⟨hshort, rfl⟩

variable [IsStrictOrderedRing K] {F : Findings K}

/-- **The lower end has the least cost** after a trial if it had it before. -/
theorem Outcome.isLeast (hs : Constants s c₁ c₂) (hstart : Falls start y₀ d₀)
    (hk : Brackets F y₀ d₀ c₁ c₂ k) (hnext : m.step = next k) (hm : m.At a y)
    (h : Outcome A s start k m k' done n) {cost : K} (hcost : k.lowCost = .finite cost)
    (hleast : IsLeast (lowCosts y₀ d₀ c₁ ts) cost) :
    ∃ cost', k'.lowCost = .finite cost' ∧ IsLeast (lowCosts y₀ d₀ c₁ (ts ++ [m])) cost' := by
  have hnext' : next k = .finite a := hnext.symm.trans hm.step
  obtain ⟨hlong, hkeeps⟩ | ⟨hshort, hmoves⟩ := h.lowCost
  · -- A step that is too long but decreases sufficiently is not below the lower end.
    refine ⟨cost, hkeeps.trans hcost, (mem_lowCosts_append hm).2 (.inl hleast.1), fun z hz => ?_⟩
    obtain hz | ⟨rfl, hlow⟩ := (mem_lowCosts_append hm).1 hz
    · exact hleast.2 hz
    · obtain ⟨low, _, _, hbase⟩ := hk.exists_base
      rw [long_iff hs hstart hm hbase.low hcost] at hlong
      exact (hlong.resolve_left hlow.not_gt).2
  · obtain ⟨hlow, hless⟩ := hk.cost_lt hs hstart hnext' hm hshort hcost
    refine ⟨y, hmoves.trans hm.cost, (mem_lowCosts_append hm).2 (.inr ⟨rfl, hlow⟩), fun z hz => ?_⟩
    obtain hz | ⟨rfl, -⟩ := (mem_lowCosts_append hm).1 hz
    · exact hless.le.trans (hleast.2 hz)
    · exact le_rfl

/-! ### What the memory holds -/

/-- Costs and slopes along the ray are finite numbers, wherever the operator answers. -/
structure Finite (A : Setting ω (Exact K)) (r : Ray K) : Prop where
  cost : ∀ a c, (A.operator.cost (r.point a)).Yields c → ∃ y, c = .finite y
  slope : ∀ a v d, (A.operator.gradient (r.point a)).Yields v → r.backend.dot v r.way = .ok d →
    ∃ q, d = .finite q

omit [IsStrictOrderedRing K] in
/-- Where a run starts from a point and from costs and gradients that are finite, so does its search. -/
theorem Finite.outset {r : Ray K} (hA : Finite A r) (maxIters : Int) {cost? : Option (Exact K)}
    {gradient? : Option (Tensor (Exact K))} (hessian? : Option (Tensor (Exact K)))
    (hcost : ∀ c, cost? = some c → ∃ y, c = .finite y)
    (hgradient : ∀ v, gradient? = some v → ∀ d, r.backend.dot v r.way = .ok d → ∃ q, d = .finite q) :
    Line.Outset A r (Run.seeded r.start maxIters cost? gradient? hessian?)
      (fun c => ∃ y, c = .finite y)
      (fun v => ∀ d, r.backend.dot v r.way = .ok d → ∃ q, d = .finite q) fun _ => True := by
  obtain ⟨hx, hc, hg, -⟩ := Run.seeded_fields r.start maxIters cost? gradient? hessian?
  have hstart := r.point_zero
  refine ⟨hx, fun t => ?_, fun t => ?_, fun _ _ _ _ => trivial⟩
  -- What was handed over is finite by assumption, what is evaluated by the terrain.
  · unfold Session.knownCost
    rw [hx, hc]
    cases cost? with
    | none =>
      rw [Option.getD_none, if_pos Exact.isInfinite_infinity]
      unfold Session.cost
      rw [Session.ends_evaluate]
      exact (Action.ends_yields _ _).mono fun c _ h => hA.cost 0 c (hstart ▸ h)
    | some c =>
      obtain ⟨y, rfl⟩ := hcost c rfl
      exact ⟨y, rfl⟩
  · unfold Session.knownGradient
    rw [hx, hg]
    cases gradient? with
    | none =>
      dsimp only
      unfold Session.gradient
      rw [Session.ends_evaluate]
      exact (Action.ends_yields _ _).mono fun v _ h d => hA.slope 0 v d (hstart ▸ h)
    | some v => exact hgradient v rfl

omit [IsStrictOrderedRing K] in
/-- So it is if costs and slopes are those of a profile. -/
theorem Profile.finite {r : Ray K} {f : Tensor (Exact K) → Exact K}
    {g : Tensor (Exact K) → Tensor (Exact K)} {φ φ' : K → K} {E : Failure (Exact K) → Prop}
    (hA : Line.Terrain A r f g E) (h : Profile r f g φ φ') : Finite A r where
  cost a c hc := by
    obtain ⟨host, after, hexec⟩ := hc
    exact ⟨φ a, ((hA.cost _ host (r.isReal_point a)).of_ok hexec).trans (h.cost a)⟩
  slope a v d hv hdot := by
    obtain ⟨host, after, hexec⟩ := hv
    obtain rfl := (hA.gradient _ host (r.isReal_point a)).of_ok hexec
    exact ⟨φ' a, Except.ok.inj (hdot.symm.trans (h.slope a))⟩

/-- What has been found at the origin and by the samples. -/
def found (r : Ray K) (y₀ : K) (ts : List (Sample (Exact K))) : Findings K where
  cost a y := a = 0 ∧ y = y₀ ∨ ∃ m ∈ ts, m.At a y
  slope _ v d := r.backend.dot v r.way = .ok (.finite d)

/-- What the memory of a search along `r` holds after the trials `ts`: the cost at the lower end is the
    least one, and as long as the search is not over, the bracket is sure of its ends. -/
structure Upholds (r : Ray K) (v : Tensor (Exact K)) (y₀ d₀ c₁ c₂ : K)
    (ts : List (Sample (Exact K))) (s : StrongWolfe (Exact K)) : Prop where
  constants : Constants s c₁ c₂
  line : s.line.On r (.finite y₀) v (.finite d₀)
  bracket : ∃ k cost, s.bracket = some k ∧ k.lowCost = .finite cost ∧
    IsLeast (lowCosts y₀ d₀ c₁ ts) cost ∧
    (s.line.done = none → Brackets (found r y₀ ts) y₀ d₀ c₁ c₂ k)

variable {r : Ray K} {v : Tensor (Exact K)} {host : Host ω}

omit [IsStrictOrderedRing K] in
/-- What a trial finds is added to what has been found. -/
theorem Finite.exists_adds (hA : Finite A r) {cost slope : Exact K} (hline : s.line.On r cost v slope)
    (hm : m.Taken A s.line host) (hstep : m.step = .finite a) :
    ∃ y, (found r y₀ ts).Adds (found r y₀ (ts ++ [m])) A s m a y := by
  obtain ⟨hpoint, after, hcost⟩ := hm
  rw [hstep, hline.point a] at hpoint
  have hx := Except.ok.inj hpoint
  rw [← hx] at hcost
  -- The operator has given this cost at this point before, so that it is a finite one.
  obtain ⟨y, hy⟩ := hA.cost a m.cost ⟨host, after, hcost⟩
  have hat : m.At a y := ⟨hstep, hy⟩
  refine ⟨y, hat, .inr ⟨m, by simp, hat⟩, ?_, ?_, id⟩
  · rintro u there ⟨hyields, hslope⟩
    rw [← hx] at hyields
    rw [hline.slopeOf] at hslope
    obtain ⟨d, rfl⟩ := hA.slope a u there hyields hslope
    exact ⟨d, rfl, hslope⟩
  · rintro b z (hzero | ⟨m', hm', hat'⟩)
    · exact .inl hzero
    · exact .inr ⟨m', by simp [hm'], hat'⟩

/-- **Every trial keeps what the memory holds.** -/
theorem Upholds.next (hA : Finite A r) (hd : d₀ < 0) (h : Upholds r v y₀ d₀ c₁ c₂ ts s)
    (hdone : s.line.done = none) (hk : s.bracket = some k) (hnext : m.step = StrongWolfe.next k)
    (hm : m.Taken A s.line host) (hstart : s.line.start = some start)
    (houtcome : Outcome A s.counted start k m k' done n) :
    Upholds r v y₀ d₀ c₁ c₂ (ts ++ [m]) (s.counted.concluded k' done) := by
  obtain ⟨k₁, cost, hk₁, hcost, hleast, hbracket⟩ := h.bracket
  obtain rfl := Option.some.inj (hk.symm.trans hk₁)
  obtain rfl := Option.some.inj (hstart.symm.trans h.line.start)
  obtain ⟨a, -, ha⟩ := (hbracket hdone).exists_next
  have hline : s.counted.line.On r (.finite y₀) v (.finite d₀) := h.line.countTrial
  have hcounted : Constants s.counted c₁ c₂ := h.constants.congr rfl rfl
  have hfalls : Falls ⟨r.start, .finite y₀, v, .finite d₀⟩ y₀ d₀ := ⟨rfl, rfl, hd⟩
  obtain ⟨y, hadds⟩ : ∃ y, (found r y₀ ts).Adds (found r y₀ (ts ++ [m])) A s.counted m a y :=
    hA.exists_adds hline (hm.congr rfl rfl) (hnext.trans ha)
  obtain ⟨cost', hcost', hleast'⟩ :=
    houtcome.isLeast hcounted hfalls (hbracket hdone) hnext hadds.sample hcost hleast
  -- If the search goes on, the trial has not met both conditions.
  refine ⟨h.constants.congr rfl rfl, ⟨h.line.direction, h.line.start⟩, k', cost', rfl, hcost',
    hleast', fun hgo => ?_⟩
  have hgo : done = none := hgo
  exact houtcome.brackets hcounted hfalls hadds (hbracket hdone) ha (by simp [hgo])

/-- A search begins with a bracket that grows from its origin. -/
theorem ends_init_upholds {C : Exact K → Prop} {G : Tensor (Exact K) → Prop}
    {p : Progress (Exact K)} {session : Session ω} (hA : Line.Outset A r p C G fun _ => True)
    (hcosts : ∀ c, C c → ∃ y, c = .finite y)
    (hslopes : ∀ v d, G v → r.backend.dot v r.way = .ok d → ∃ q, d = .finite q)
    (hs : Constants s c₁ c₂) (hl : s.line.direction = some r.way) {step : K}
    (hstep : s.line.initialStep = .finite step) (hpos : 0 < step) (hmoving : ¬r.Still) :
    (solver.init A p).Ends ⟨s, session⟩ (fun _ w => ∃ y₀ v d₀, d₀ < 0 ∧
      Upholds r v y₀ d₀ c₁ c₂ [] w.solver ∧ w.solver.line.done = none) fun _ => True := by
  refine (ends_init_outset hA hl fun _ _ _ _ => .inr (.inr trivial)).mono ?_
  rintro _ w ⟨c, v, slope, hc, hv, hdot, -, hw⟩
  obtain ⟨y₀, rfl⟩ := hcosts c hc
  obtain ⟨d₀, rfl⟩ := hslopes v slope hv hdot
  obtain ⟨hstill, -⟩ | ⟨-, hlt, hw⟩ := hw
  · exact absurd hstill hmoving
  have hd : d₀ < 0 := by simpa using hlt
  -- The lower end is the origin, which decreases by nothing and leads downhill.
  have hbracket : Brackets (found r y₀ []) y₀ d₀ c₁ c₂
      ⟨false, s.line.initialStep, 0.0, .finite y₀, v, 0.0⟩ :=
    .growing rfl ⟨Exact.lit_zero, le_rfl, rfl, .inl ⟨rfl, rfl⟩, hdot, fun _ => rfl, by simp,
      hs.steep_origin hd⟩ hd hstep hpos
  have hleast : IsLeast (lowCosts y₀ d₀ c₁ []) y₀ :=
    ⟨.inl rfl, by rintro z (rfl | ⟨m, hm, -⟩); exacts [le_rfl, absurd hm (by simp)]⟩
  refine ⟨y₀, v, d₀, hd, ?_, ?_⟩
  · rw [hw]
    exact ⟨hs.congr rfl rfl, .begun hl, _, y₀, rfl, rfl, hleast, fun _ => hbracket⟩
  · rw [hw]
    rfl

end StrongWolfe

/-! ### Runs -/

namespace Run

variable {K : Type} [Field K] [LinearOrder K] [IsStrictOrderedRing K] [Roots K]
  {A : Setting ω (Exact K)} {O : Observer η (Exact K)} {c : RunConfig (Exact K)}
  {t : Run (LineSearch (Exact K)) ω η (Exact K)} {ray : Ray K} {c₁ c₂ : K} {n : ℕ}

/-- The run has a search for the strong Wolfe conditions, the memory of which satisfies `M`. -/
def Searches (M : StrongWolfe (Exact K) → Prop) (t : Run (LineSearch (Exact K)) ω η (Exact K)) :
    Prop :=
  ∃ s, t.solver = .strongWolfe s ∧ M s ∧
    (t.progress.reason = .notTerminated → s.line.done = none)

/-- The memory of a search after the start of its run. -/
theorem Goes.upholds_zero {C : Exact K → Prop} {G : Tensor (Exact K) → Prop}
    {s : StrongWolfe (Exact K)} (hn : Goes ⟨LineSearch.solver, O, A, c⟩ t 0)
    (ht : t.solver = .strongWolfe s) (hA : Line.Outset A ray t.progress C G fun _ => True)
    (hcosts : ∀ c, C c → ∃ y, c = .finite y)
    (hslopes : ∀ v d, G v → ray.backend.dot v ray.way = .ok d → ∃ q, d = .finite q)
    (hs : StrongWolfe.Constants s c₁ c₂) (hl : s.line.direction = some ray.way) {step : K}
    (hstep : s.line.initialStep = .finite step) (hpos : 0 < step) (hmoving : ¬ray.Still) :
    ∃ y₀ v d₀, d₀ < 0 ∧ Searches (StrongWolfe.Upholds ray v y₀ d₀ c₁ c₂ [])
      (stateAfter ⟨LineSearch.solver, O, A, c⟩ t 0) := by
  obtain ⟨report?, w, hinit, hcourse⟩ := opening_reports hn.opening_eq
  obtain ⟨hprogress, hsolver, -⟩ := begun_course (⟨LineSearch.solver, O, A, c⟩ : Plan _ ω η _) t
  rw [hprogress, hsolver, ht] at hinit
  -- The search begins with no sample at all.
  have hends {session : Session ω} : (LineSearch.solver.init A t.progress).Ends
      ⟨.strongWolfe s, session⟩ (fun _ w => ∃ s', w.solver = .strongWolfe s' ∧ ∃ y₀ v d₀, d₀ < 0 ∧
        StrongWolfe.Upholds ray v y₀ d₀ c₁ c₂ [] s' ∧ s'.line.done = none) fun _ => True := by
    refine (LineSearch.ends_dispatch_strongWolfe s).2 ?_
    refine (StrongWolfe.ends_init_upholds hA hcosts hslopes hs hl hstep hpos hmoving).mono ?_
    exact fun _ v hv => ⟨v.solver, rfl, hv⟩
  obtain ⟨s', hs', y₀, v, d₀, hd, hupholds, hdone⟩ := hends.of_ok hinit
  exact ⟨y₀, v, d₀, hd, s', hcourse.solver.trans hs', hupholds, fun _ => hdone⟩

/-- **The memory of a search at every state of its run**, after the trials that led there; every
    iteration has made one. -/
theorem Goes.upholds {v : Tensor (Exact K)} {y₀ d₀ : K} (hn : Goes ⟨LineSearch.solver, O, A, c⟩ t n)
    (hA : StrongWolfe.Finite A ray) (hd : d₀ < 0)
    (hzero : Searches (StrongWolfe.Upholds ray v y₀ d₀ c₁ c₂ [])
      (stateAfter ⟨LineSearch.solver, O, A, c⟩ t 0)) :
    (samples ⟨LineSearch.solver, O, A, c⟩ t n).length = n ∧
      Searches (StrongWolfe.Upholds ray v y₀ d₀ c₁ c₂ (samples ⟨LineSearch.solver, O, A, c⟩ t n))
        (stateAfter ⟨LineSearch.solver, O, A, c⟩ t n) := by
  -- Each iteration measures once and keeps what the search holds to.
  induction n with
  | zero => exact ⟨rfl, hzero⟩
  | succ n ih =>
    have hlast := Nat.lt_succ_self n
    have hgo := hn.running n hlast
    obtain ⟨hlength, s, hs, hupholds, hdone⟩ := ih (hn.mono (Nat.le_succ n))
    obtain ⟨k, -, hk, -⟩ := hupholds.bracket
    obtain ⟨m, start, k', done, g, hsample, hnext, htaken, hstart, houtcome, hs', hdone'⟩ :=
      outcome_of_iterate hgo (hn.iterate_eq hlast) hs (hdone hgo) hk
    rw [samples_succ hsample]
    refine ⟨by simp [hlength], _, hs', ?_, hdone'⟩
    exact hupholds.next hA hd (hdone hgo) hk hnext htaken hstart houtcome

end Run

end Minimization
