import Minimization.Proofs.Counts.Recording
import Minimization.Proofs.LineSearch.Parts
import Minimization.Proofs.Operator.Answers

namespace Minimization

/-!
# The outcome of a trial

What a trial for the strong Wolfe conditions does is told by what it measures and by the outcomes of
its tests, for any numbers and any operator; the operator may change its answers from call to call.

* `Sample` — what a trial measures: a step length, the point there, and its cost.
* `Line.Firm` — how points, evaluations and slopes at a step length may fail.
* `StrongWolfe.Outcome` — all that a trial can do, with the tests that led there.
* `StrongWolfe.ends_judge_outcome` — a trial has such an outcome, in either phase;
  `StrongWolfe.ends_trial_outcome` — so has an iteration of a search that is not over.
-/

/-- What a trial measures: a step length, the point there, and its cost. -/
structure Sample (α : Type) where
  step : α
  point : Tensor α
  cost : α

variable {ω α : Type} [Scalar α]

/-- At the step length `a` of the line `l`, every failure satisfies `E`. -/
structure Line.Firm (A : Setting ω α) (l : Line α) (a : α) (E : Failure α → Prop) : Prop where
  point : ∀ e, l.point a = .error e → E e
  cost : ∀ x, l.point a = .ok x → ∀ t : Session ω,
    (Session.cost A.operator x).Ends t (fun _ _ => True) E
  gradient : ∀ x, l.point a = .ok x → ∀ t : Session ω,
    (Session.gradient A.operator x).Ends t (fun v _ => ∀ e, l.slopeOf v = .error e → E e) E

/-- Points and slopes depend on start and direction only. -/
theorem Line.point_congr {l l' : Line α} (hstart : l'.start = l.start)
    (hdirection : l'.direction = l.direction) (step : α) : l'.point step = l.point step := by
  unfold point requireStart
  rw [hstart, hdirection]

/-- So do slopes. -/
theorem Line.slopeOf_congr {l l' : Line α} (hstart : l'.start = l.start)
    (hdirection : l'.direction = l.direction) (v : Tensor α) : l'.slopeOf v = l.slopeOf v := by
  unfold slopeOf requireStart
  rw [hstart, hdirection]

/-- What can fail at a step length depends on start and direction only. -/
theorem Line.Firm.congr {A : Setting ω α} {l l' : Line α} {a : α} {E : Failure α → Prop}
    (h : Firm A l a E) (hstart : l'.start = l.start) (hdirection : l'.direction = l.direction) :
    Firm A l' a E := by
  have hpoint := point_congr hstart hdirection a
  constructor
  · rw [hpoint]
    exact h.point
  · rw [hpoint]
    exact h.cost
  · simp only [hpoint, slopeOf_congr hstart hdirection]
    exact h.gradient

/-- What the search measures at a step length, if the operator is asked with the memory `host`. -/
structure Sample.Taken (A : Setting ω α) (l : Line α) (host : Host ω) (m : Sample α) : Prop where
  point : l.point m.step = .ok m.point
  cost : ∃ after, (A.operator.cost m.point).exec host = (.ok m.cost, after)

/-- So does what is measured there. -/
theorem Sample.Taken.congr {A : Setting ω α} {l l' : Line α} {host : Host ω} {m : Sample α}
    (h : m.Taken A l host) (hstart : l'.start = l.start) (hdirection : l'.direction = l.direction) :
    m.Taken A l' host :=
  ⟨(Line.point_congr hstart hdirection _).trans h.point, h.cost⟩

namespace StrongWolfe

section
variable (A : Setting ω α) (s : StrongWolfe α) (start : LineStart α) (k : Bracket α) (m : Sample α)

/-- The step is too long: its cost is not low enough, or not below that of the lower end.  A growing
    bracket whose lower end is still the origin is not asked for the latter. -/
def Long : Prop :=
  s.sufficient start m.step m.cost = false ∨
    (k.closed = true ∨ Scalar.lt 0.0 k.low = true) ∧ Scalar.le k.lowCost m.cost = true

/-- The gradient `v` at the point of a trial tells the slope `there`. -/
structure Tells (v : Tensor α) (there : α) : Prop where
  gradient : (A.operator.gradient m.point).Yields v
  slope : s.line.slopeOf v = .ok there

/-- What a trial makes of the bracket `k`, for what reason it ends the search, if it does, and how many
    gradients it evaluates. -/
inductive Outcome : Bracket α → Option Reason → Nat → Prop
  /-- A growing bracket closes: its upper end is the step that is too long. -/
  | closes (hphase : k.closed = false) (hlong : Long s start k m) :
      Outcome { k with high := m.step, closed := true } none 0
  /-- Both conditions hold. -/
  | accepts (hshort : ¬Long s start k m) {v : Tensor α} {there : α} (htells : Tells A s m v there)
      (hflat : s.flat start there = true) :
      Outcome (Bracket.moveLow k m.step m.cost v) (some .lineSearchCondition) 1
  /-- A growing bracket closes because the cost rises again; its ends change places. -/
  | turns (hphase : k.closed = false) (hshort : ¬Long s start k m) {v : Tensor α} {there : α}
      (htells : Tells A s m v there) (hsteep : s.flat start there = false)
      (hrising : Scalar.le 0.0 there = true) :
      Outcome { Bracket.moveLow { k with high := k.low } m.step m.cost v with closed := true } none 1
  /-- A growing bracket goes on to a step of twice the length. -/
  | advances (hphase : k.closed = false) (hshort : ¬Long s start k m) {v : Tensor α} {there : α}
      (htells : Tells A s m v there) (hsteep : s.flat start there = false)
      (hfalling : Scalar.le 0.0 there = false) :
      Outcome { Bracket.moveLow k m.step m.cost v with step := 2.0 * m.step } none 1
  /-- A closed bracket loses its upper half. -/
  | shortens (hphase : k.closed = true) (hlong : Long s start k m) :
      Outcome { k with high := m.step } (narrowness { k with high := m.step }) 0
  /-- A closed bracket loses its upper half, and its ends change places. -/
  | swaps (hphase : k.closed = true) (hshort : ¬Long s start k m) {v : Tensor α} {there : α}
      (htells : Tells A s m v there) (hsteep : s.flat start there = false)
      (hrising : Scalar.le 0.0 (there * (k.high - k.low)) = true) :
      Outcome (Bracket.moveLow { k with high := k.low } m.step m.cost v)
        (narrowness (Bracket.moveLow { k with high := k.low } m.step m.cost v)) 1
  /-- A closed bracket loses its lower half. -/
  | raises (hphase : k.closed = true) (hshort : ¬Long s start k m) {v : Tensor α} {there : α}
      (htells : Tells A s m v there) (hsteep : s.flat start there = false)
      (hfalling : Scalar.le 0.0 (there * (k.high - k.low)) = false) :
      Outcome (Bracket.moveLow k m.step m.cost v) (narrowness (Bracket.moveLow k m.step m.cost v)) 1

/-- `w` is what the trial `m` has left of the search `s`, from which the session `t` went on. -/
def Leaves (t : Session ω) (w : Workspace (StrongWolfe α) ω) : Prop :=
  ∃ start k' done n, s.line.start = some start ∧ m.Taken A s.line t.host ∧
    Outcome A s start k m k' done n ∧ w.solver = s.concluded k' done ∧
    w.session.counts = t.counts + ⟨1, n, 0, 0⟩

end

variable {A : Setting ω α} {s : StrongWolfe α} {k : Bracket α} {a : α} {E : Failure α → Prop}
  {t : Session ω}

/-- The cost of a step that is not too long is low enough. -/
theorem sufficient_of_not_long {start : LineStart α} {m : Sample α}
    (hshort : ¬Long s start k m) : s.sufficient start m.step m.cost = true := by
  cases hlow : s.sufficient start m.step m.cost with
  | true => rfl
  | false => exact absurd (.inl hlow) hshort

/-! ### Evaluations -/

/-- Point and cost at a step length: one cost is evaluated. -/
theorem ends_probe_taken (hA : Line.Firm A s.line a E) : (probe A a).Ends ⟨s, t⟩
    (fun found w => Sample.Taken A s.line t.host ⟨a, found.1, found.2⟩ ∧ w.solver = s ∧
      w.session.counts = t.counts.tick .cost) E := by
  unfold probe
  rw [Action.ends_bind, Workspace.ends_readSolver, Action.ends_bind]
  refine Action.ends_ofExcept (fun x hx => ?_) hA.point
  rw [Action.ends_bind, Workspace.ends_onSession]
  have hcost := hA.cost x hx t
  unfold Session.cost at hcost ⊢
  rw [Session.ends_evaluate] at hcost ⊢
  exact hcost.executed.mono fun c host hc => ⟨⟨hx, host, hc.1⟩, rfl, rfl⟩

/-- Gradient and slope at the point of a trial: one gradient is evaluated. -/
theorem ends_slopeAt_tells {m : Sample α} (hA : Line.Firm A s.line m.step E)
    (hx : s.line.point m.step = .ok m.point) : (slopeAt A m.point).Ends ⟨s, t⟩
      (fun found w => Tells A s m found.1 found.2 ∧ w.solver = s ∧
        w.session.counts = t.counts.tick .gradient) E := by
  unfold slopeAt
  rw [Action.ends_bind, Workspace.ends_onSession]
  have hgradient := hA.gradient m.point hx t
  unfold Session.gradient at hgradient ⊢
  rw [Session.ends_evaluate] at hgradient ⊢
  refine hgradient.executed.mono fun v host hv => ?_
  rw [Action.ends_bind, Workspace.ends_readSolver, Action.ends_bind]
  exact Action.ends_ofExcept (fun there hthere => ⟨⟨⟨_, _, hv.1⟩, hthere⟩, rfl, rfl⟩) hv.2

/-- The counts after both evaluations of a trial. -/
theorem counts_short {before between after : Counts} (hcost : between = before.tick .cost)
    (hgradient : after = between.tick .gradient) : after = before + ⟨1, 1, 0, 0⟩ := by
  rw [hgradient, hcost]
  rfl

/-! ### One trial -/

/-- The test of a trial asks whether its step is too long. -/
theorem tooLong_iff {start : LineStart α} {m : Sample α} (hm : m.step = next k) :
    s.tooLong start k m.cost = true ↔ Long s start k m := by
  unfold tooLong Long
  rw [hm]
  simp

/-- A step that is too long closes the bracket, or takes its upper half away. -/
theorem outcome_shortened {start : LineStart α} {m : Sample α} (hm : m.step = next k)
    (hlong : Long s start k m) : Outcome A s start k m (shortened k).1 (shortened k).2 0 := by
  unfold shortened
  rw [← hm]
  split
  · next hclosed => exact .shortens hclosed hlong
  · next hopen => exact .closes (Bool.eq_false_iff.2 hopen) hlong

/-- Any other step becomes the lower end, in one of the ways that the slope there decides on. -/
theorem outcome_moved {start : LineStart α} {m : Sample α} {v : Tensor α} {there : α}
    (hm : m.step = next k) (hshort : ¬Long s start k m) (htells : Tells A s m v there) :
    Outcome A s start k m (s.moved start k m.cost v there).1 (s.moved start k m.cost v there).2
      1 := by
  unfold moved
  rw [← hm]
  split
  · next hflat => exact .accepts hshort htells hflat
  next hsteep =>
  rw [Bool.not_eq_true] at hsteep
  split
  · next hclosed =>
    -- The slope at the new lower end decides which of the old ends is the other one.
    by_cases hrising : Scalar.le 0.0 (there * (k.high - k.low)) = true
    · rw [if_pos hrising]
      exact .swaps hclosed hshort htells hsteep hrising
    · rw [if_neg hrising]
      exact .raises hclosed hshort htells hsteep (Bool.eq_false_iff.2 hrising)
  · next hopen =>
    have hphase := Bool.eq_false_iff.2 hopen
    split
    · next hrising => exact .turns hphase hshort htells hsteep hrising
    · next hfalling => exact .advances hphase hshort htells hsteep (Bool.eq_false_iff.2 hfalling)

/-- **A trial in either phase** measures at the next step length, and its verdict is an outcome. -/
theorem ends_judge_outcome (hA : Line.Firm A s.line (next k) E) : (judge A k).Ends ⟨s, t⟩
    (fun verdict w => ∃ (m : Sample α) (start : LineStart α) (n : Nat), m.step = next k ∧
      s.line.start = some start ∧ m.Taken A s.line t.host ∧
      Outcome A s start k m verdict.1 verdict.2 n ∧ w.solver = s ∧
      w.session.counts = t.counts + ⟨1, n, 0, 0⟩) E := by
  unfold judge
  rw [Action.ends_bind]
  refine (ends_probe_taken hA).mono ?_
  rintro ⟨x, c⟩ ⟨s', u⟩ ⟨htaken, hs, hcost⟩
  obtain rfl : s = s' := hs.symm
  -- There was a point to measure at, so there is a start.
  obtain ⟨start, hstart, hknown⟩ := Line.requireStart_of_point htaken.point
  simp only [Action.ends_bind, Workspace.ends_readSolver, hknown, Action.ends_ofExcept_ok]
  have htest : s.tooLong start k c = true ↔ Long s start k ⟨next k, x, c⟩ :=
    tooLong_iff (m := ⟨next k, x, c⟩) rfl
  -- A sample that is too long needs no slope.
  split
  · next hlong =>
    exact ⟨⟨next k, x, c⟩, start, 0, rfl, hstart, htaken, outcome_shortened rfl (htest.1 hlong), rfl,
      hcost.trans (Counts.tick_eq_add ..)⟩
  · next hshort =>
    rw [Action.ends_bind]
    refine (ends_slopeAt_tells (m := ⟨next k, x, c⟩) hA htaken.point).mono ?_
    rintro ⟨v, there⟩ ⟨s', u'⟩ ⟨htells, hs, hgradient⟩
    obtain rfl : s = s' := hs.symm
    exact ⟨⟨next k, x, c⟩, start, 1, rfl, hstart, htaken,
      outcome_moved rfl (mt htest.2 hshort) htells, rfl, counts_short hcost hgradient⟩

/-- **An iteration of a search that is not over** makes one trial, and reports the lower end of the
    bracket that it leaves. -/
theorem ends_trial_outcome (hA : Line.Firm A s.line (next k) E) (hdone : s.line.done = none)
    (hk : s.bracket = some k) (hreport : ∀ (m : Sample α) w e, m.step = next k →
      Leaves A s.counted k m t w → w.solver.report = .error e → E e) : (trial A).Ends ⟨s, t⟩
        (fun report w => ∃ m : Sample α, m.step = next k ∧ Leaves A s.counted k m t w ∧
          w.solver.report = .ok report) E := by
  -- The trial is counted before it is made, so it is one of the search that has counted it.
  have hfirm : Line.Firm A s.counted.line (next k) E := hA.congr rfl rfl
  refine ends_trial_open hdone hk ((ends_judge_outcome hfirm).mono ?_)
  rintro verdict ⟨_, u⟩ ⟨m, start, n, hm, hstart, htaken, houtcome, rfl, hcounts⟩
  have hleaves : Leaves A s.counted k m t ⟨s.counted.adopt verdict, u⟩ :=
    ⟨start, verdict.1, verdict.2, n, hstart, htaken, houtcome,
      adopt_eq_concluded (s := s.counted) hdone verdict, hcounts⟩
  exact ⟨fun report h => ⟨m, hm, hleaves, h⟩, fun e he => hreport m _ e hm hleaves he⟩

end StrongWolfe

end Minimization
