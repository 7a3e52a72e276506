import Minimization.Proofs.Contract.Run
import Minimization.Proofs.LineSearch.Trial
import Minimization.Proofs.Progress.Merge

namespace Minimization.StrongWolfe

open Minimization

/-!
# What a search for the strong Wolfe conditions keeps

The search holds a bracket, of which the lower end is the best step length so far.  Whatever a trial
finds, the lower end decreases sufficiently, and its cost and gradient are those at its point.

* `Sound` — checked settings; `Same` — the settings of another search.
* `Lower`, `Open` — what is known of the two ends of a bracket.
* `Verdict` — why the search is over, if it is.
* `Holds` — what the memory of the search holds between two trials.
* `Trial.holds` — every trial keeps it.
* `Keeps`, `ends_init`, `ends_trial` — the same for progress and memory together: an iteration
  reports the lower end.
-/

variable {K ω : Type} [Field K] [LinearOrder K] [Roots K]

/-- Checked settings: the first step length is finite and positive, and a trial is allowed. -/
structure Sound (s : StrongWolfe (Exact K)) : Prop where
  initialStep : ∃ a, 0 < a ∧ s.line.initialStep = .finite a
  maxTrials : 1 ≤ s.line.maxTrials

/-- Two searches with the same settings. -/
structure Same (s₀ s : StrongWolfe (Exact K)) : Prop where
  decrease : s.decrease = s₀.decrease
  curvature : s.curvature = s₀.curvature
  initialStep : s.line.initialStep = s₀.line.initialStep
  maxTrials : s.line.maxTrials = s₀.line.maxTrials

omit [Roots K] in
/-- Soundness is a matter of the settings. -/
theorem Same.sound {s₀ s : StrongWolfe (Exact K)} (h : Same s₀ s) (hs : s₀.Sound) : s.Sound where
  initialStep := h.initialStep ▸ hs.initialStep
  maxTrials := h.maxTrials ▸ hs.maxTrials

section Memory

variable (r : Ray K) (f : Tensor (Exact K) → Exact K) (g : Tensor (Exact K) → Tensor (Exact K))
  (s₀ : StrongWolfe (Exact K)) (slope : Exact K)

/-- A step length whose cost decreases sufficiently; the origin need not decrease. -/
def Decreases (a : K) : Prop :=
  a = 0 ∨ s₀.sufficient (origin r f g slope) (.finite a) (f (r.point a)) = true

/-- The lower end of a bracket is at the step length `a`. -/
structure Lower (a : K) (k : Bracket (Exact K)) : Prop where
  low : k.low = .finite a
  nonneg : 0 ≤ a
  cost : k.lowCost = f (r.point a)
  gradient : k.lowGradient = g (r.point a)
  decreases : Decreases r f g s₀ slope a

/-- The next step length is positive, in either phase of the search, if the lower end is at `a`. -/
structure Open (a : K) (k : Bracket (Exact K)) : Prop where
  step : ∃ c, 0 < c ∧ k.step = .finite c
  high : ∃ c, 0 ≤ c ∧ k.high = .finite c ∧ (k.closed = true → 0 < a + c)

/-- Why the search is over, if it is: the slope at the lower end is small enough, or the bracket has
    become narrow.  Along a direction of length zero nothing is searched. -/
inductive Verdict (a : K) (k : Bracket (Exact K)) : Option Reason → Prop
  | searching : Verdict a k none
  | still (h : r.Still) : Verdict a k (some .lineSearchCondition)
  | accepted {there : Exact K} (ha : 0 < a)
      (hslope : r.backend.dot (g (r.point a)) r.way = .ok there)
      (hflat : s₀.flat (origin r f g slope) there = true) :
      Verdict a k (some .lineSearchCondition)
  | narrow (h : Scalar.lt (Scalar.abs (k.high - k.low)) bracketTolerance = true) :
      Verdict a k (some .targetTolerance)

/-- What the memory of a search holds between two trials; the lower end is at `a`. -/
structure Holds (a : K) (s : StrongWolfe (Exact K)) : Prop where
  same : Same s₀ s
  line : s.line.On r (f r.start) (g r.start) slope
  bracket : ∃ k, s.bracket = some k ∧ Lower r f g s₀ slope a k ∧ Open a k ∧
    Verdict r f g s₀ slope a k s.line.done

end Memory

variable {r : Ray K} {f : Tensor (Exact K) → Exact K} {g : Tensor (Exact K) → Tensor (Exact K)}
  {E : Failure (Exact K) → Prop} {A : Setting ω (Exact K)} {p : Progress (Exact K)}
  {s₀ s : StrongWolfe (Exact K)} {slope : Exact K} {session : Session ω} {a : K}
  {k : Bracket (Exact K)}

namespace Same

/-- So is the condition of sufficient decrease. -/
theorem sufficient (h : Same s₀ s) (start : LineStart (Exact K)) (step cost : Exact K) :
    s.sufficient start step cost = s₀.sufficient start step cost := by
  simp [StrongWolfe.sufficient, h.decrease]

/-- So is the condition on the curvature. -/
theorem flat (h : Same s₀ s) (start : LineStart (Exact K)) (there : Exact K) :
    s.flat start there = s₀.flat start there := by
  simp [StrongWolfe.flat, h.curvature]

end Same

/-! ### One trial -/

/-- A search between two trials, with a new bracket and why it is over, if it is. -/
theorem Same.holds (h : Same s₀ s) (hline : s.line.On r (f r.start) (g r.start) slope)
    {done : Option Reason} (hlower : Lower r f g s₀ slope a k) (hopen : Open a k)
    (hverdict : Verdict r f g s₀ slope a k done) :
    Holds r f g s₀ slope a (s.concluded k done) where
  same := ⟨h.decrease, h.curvature, h.initialStep, h.maxTrials⟩
  line := ⟨hline.direction, hline.start⟩
  bracket := ⟨k, rfl, hlower, hopen, hverdict⟩

/-- A bracket that has become narrow says so. -/
theorem verdict_narrowness : Verdict r f g s₀ slope a k (narrowness k) := by
  unfold narrowness
  split
  · next hnarrow => exact .narrow hnarrow
  · exact .searching

/-- A step length that passes the test of sufficient decrease may be the lower end. -/
theorem Same.lower_movedTo (h : Same s₀ s) {k₀ : Bracket (Exact K)} {c : K} (hc : 0 < c)
    (hshort : ¬TooLong r f g slope s k₀ c) : Lower r f g s₀ slope c (movedTo r f g k c) := by
  have hlow : s.sufficient (origin r f g slope) (.finite c) (f (r.point c)) = true := by
    by_contra hlow
    exact hshort (.inl (by simpa using hlow))
  exact ⟨rfl, hc.le, rfl, rfl, .inr (h.sufficient _ _ _ ▸ hlow)⟩

variable [IsStrictOrderedRing K]

/-- The step length that is tried next is positive. -/
theorem Lower.exists_next (hlower : Lower r f g s₀ slope a k) (hopen : Open a k) :
    ∃ c, 0 < c ∧ next k = .finite c := by
  unfold next
  split
  · next hclosed =>
    obtain ⟨d, -, hhigh, hsum⟩ := hopen.high
    have hpos := hsum hclosed
    exact ⟨1 / 2 * (a + d), by positivity, by rw [hlower.low, hhigh]; simp⟩
  · exact hopen.step

/-- **A trial leaves a valid bracket.** -/
theorem Trial.holds {c : K} {k' : Bracket (Exact K)} {done : Option Reason}
    (h : Trial r f g slope s k c k' done) (hsame : Same s₀ s)
    (hline : s.line.On r (f r.start) (g r.start) slope) (hlower : Lower r f g s₀ slope a k)
    (hopen : Open a k) (hc : 0 < c) : ∃ a', Holds r f g s₀ slope a' (s.concluded k' done) := by
  obtain ⟨d, hd, hhigh, hsum⟩ := hopen.high
  have ha := hlower.nonneg
  -- The lower end stays where it is, or it moves to the step that was tried.
  have hstays : Lower r f g s₀ slope a { k with high := .finite c } :=
    ⟨hlower.low, ha, hlower.cost, hlower.gradient, hlower.decreases⟩
  cases h with
  | closes hphase hlong =>
    have hlower' : Lower r f g s₀ slope a { k with high := .finite c, closed := true } :=
      ⟨hlower.low, ha, hlower.cost, hlower.gradient, hlower.decreases⟩
    exact ⟨a, hsame.holds hline hlower' ⟨hopen.step, c, hc.le, rfl, fun _ => by positivity⟩
      .searching⟩
  | accepts hshort hslope hflat =>
    have hverdict := Verdict.accepted (k := movedTo r f g k c) hc hslope (hsame.flat _ _ ▸ hflat)
    exact ⟨c, hsame.holds hline (hsame.lower_movedTo hc hshort)
      ⟨hopen.step, d, hd, hhigh, fun _ => by positivity⟩ hverdict⟩
  | turns hphase hshort hsteep hrising =>
    have hmoved := hsame.lower_movedTo (k := { k with high := k.low }) hc hshort
    exact ⟨c, hsame.holds hline ⟨rfl, hc.le, rfl, rfl, hmoved.decreases⟩
      ⟨hopen.step, a, ha, hlower.low, fun _ => by positivity⟩ .searching⟩
  | advances hphase hshort hsteep hfalling =>
    have hmoved := hsame.lower_movedTo (k := k) hc hshort
    exact ⟨c, hsame.holds hline ⟨rfl, hc.le, rfl, rfl, hmoved.decreases⟩
      ⟨⟨2 * c, by positivity, by simp⟩, d, hd, hhigh, fun _ => by positivity⟩ .searching⟩
  | shortens hphase hlong =>
    exact ⟨a, hsame.holds hline hstays ⟨hopen.step, c, hc.le, rfl, fun _ => by positivity⟩
      verdict_narrowness⟩
  | swaps hphase hshort hsteep hrising =>
    exact ⟨c, hsame.holds hline (hsame.lower_movedTo hc hshort)
      ⟨hopen.step, a, ha, hlower.low, fun _ => by positivity⟩ verdict_narrowness⟩
  | raises hphase hshort hsteep hfalling =>
    exact ⟨c, hsame.holds hline (hsame.lower_movedTo hc hshort)
      ⟨hopen.step, d, hd, hhigh, fun _ => by positivity⟩ verdict_narrowness⟩

/-! ### Progress and memory -/

/-- The progress shows the lower end of the bracket that the memory holds. -/
structure Keeps (r : Ray K) (f : Tensor (Exact K) → Exact K)
    (g : Tensor (Exact K) → Tensor (Exact K)) (s₀ : StrongWolfe (Exact K)) (slope : Exact K) (a : K)
    (p : Progress (Exact K)) (s : StrongWolfe (Exact K)) : Prop where
  holds : Holds r f g s₀ slope a s
  param : p.param = r.point a
  cost : p.cost = f (r.point a)
  gradient : p.gradient = some (g (r.point a))

/-- Every iteration makes one trial, up to the cap. -/
def Tally (r : Ray K) (s₀ : StrongWolfe (Exact K)) (p : Progress (Exact K))
    (s : StrongWolfe (Exact K)) : Prop :=
  ¬r.Still → p.iter = s.line.trials ∧ s.line.trials ≤ s₀.line.maxTrials

omit [IsStrictOrderedRing K] in
/-- The search begins at its origin. -/
theorem ends_init (hA : Line.Terrain A r f g E) (hp : Line.Knows r f g p) (hs : s₀.Sound)
    (hl : s₀.line.direction = some r.way) (hiter : p.iter = 0)
    (hdescent : ∀ slope, r.backend.dot (g r.start) r.way = .ok slope →
      r.Still ∨ Scalar.lt slope 0.0 = true ∨ E (.invalid .notDescent)) :
    (solver.init A p).Ends ⟨s₀, session⟩
      (fun report? w => ∃ slope, r.backend.dot (g r.start) r.way = .ok slope ∧
        Keeps r f g s₀ slope 0 (Run.started p report?) w.solver ∧
        Tally r s₀ (Run.started p report?) w.solver ∧
        (¬r.Still → w.solver.line.done = none ∧ w.solver.line.trials = 0)) E := by
  obtain ⟨c, hc, hstep⟩ := hs.initialStep
  refine (ends_init_opened hA hp hl hdescent).mono ?_
  rintro _ w ⟨rfl, slope, hslope, hw⟩
  have hzero := r.point_zero
  -- The first bracket has both ends at the origin.
  have hlower : Lower r f g s₀ slope 0 ⟨false, s₀.line.initialStep, 0.0, f r.start, g r.start, 0.0⟩ :=
    ⟨Exact.lit_zero, le_refl 0, by rw [hzero], by rw [hzero], .inl rfl⟩
  have hopen : Open (0 : K) ⟨false, s₀.line.initialStep, 0.0, f r.start, g r.start, 0.0⟩ :=
    ⟨⟨c, hc, hstep⟩, 0, le_refl 0, Exact.lit_zero, by simp⟩
  refine ⟨slope, hslope, ?_⟩
  obtain ⟨hstill, hw⟩ | ⟨hstill, hw⟩ := hw
  · refine ⟨⟨?_, ?_, ?_, ?_⟩, fun h => absurd hstill h, fun h => absurd hstill h⟩
    · rw [hw]
      exact ⟨⟨rfl, rfl, rfl, rfl⟩, (Line.On.begun hl).finish _, _, rfl, hlower, hopen, .still hstill⟩
    · simp [Run.started, hzero]
    · simp [Run.started, hzero]
    · simp [Run.started, hzero]
  · refine ⟨⟨?_, ?_, ?_, ?_⟩, fun _ => ⟨?_, ?_⟩, fun _ => ?_⟩
    · rw [hw]
      exact ⟨⟨rfl, rfl, rfl, rfl⟩, .begun hl, _, rfl, hlower, hopen, .searching⟩
    · simp [Run.started, hzero]
    · simp [Run.started, hzero]
    · simp [Run.started, hzero]
    · rw [hw]
      simp [Run.started, hiter, opened, Line.begun]
    · rw [hw]
      exact Nat.zero_le _
    · rw [hw]
      exact ⟨rfl, rfl⟩

omit [IsStrictOrderedRing K] in
/-- A search reports the lower end of its bracket. -/
theorem Holds.report (h : Holds r f g s₀ slope a s) : ∃ notes, s.report =
    .ok { param := some (r.point a), cost := some (f (r.point a))
          gradient := some (g (r.point a)), notes := notes } := by
  obtain ⟨k, hk, hlower, -, -⟩ := h.bracket
  refine ⟨[("alpha", .number k.low)], ?_⟩
  simp [StrongWolfe.report, requireBracket, hk, bind, Except.bind, hlower.low, h.line.point,
    hlower.cost, hlower.gradient, pure, Except.pure]

/-- **An iteration** of a search that is not over makes one trial and reports the lower end. -/
theorem ends_trial (hA : Line.Terrain A r f g E) (h : Keeps r f g s₀ slope a p s)
    (htally : Tally r s₀ p s)
    (hgo : ¬r.Still → s.line.done = none ∧ s.line.trials < s₀.line.maxTrials) :
    (solver.step A p).Ends ⟨s, session⟩
      (fun report w => ∃ a, Keeps r f g s₀ slope a (p.update report).1.increment w.solver ∧
        Tally r s₀ (p.update report).1.increment w.solver) E := by
  -- The lower end of a valid bracket is reported.
  have hkeeps {s' : StrongWolfe (Exact K)} {a' : K} {report : Report (Exact K)}
      (hs' : Holds r f g s₀ slope a' s') (hreport : s'.report = .ok report) :
      Keeps r f g s₀ slope a' (p.update report).1.increment s' := by
    obtain ⟨notes, hnotes⟩ := hs'.report
    obtain rfl := Except.ok.inj (hreport.symm.trans hnotes)
    exact ⟨hs', by simp, by simp, by simp⟩
  have hfails {s' : StrongWolfe (Exact K)} {a' : K} (hs' : Holds r f g s₀ slope a' s')
      (e : Failure (Exact K)) (he : s'.report = .error e) : E e := by
    obtain ⟨notes, hnotes⟩ := hs'.report
    rw [hnotes] at he
    cases he
  by_cases hdone : s.line.done = none
  · obtain ⟨k, hk, hlower, hopen, -⟩ := h.holds.bracket
    obtain ⟨c, hc, hnext⟩ := hlower.exists_next hopen
    have hsame : Same s₀ s.counted :=
      ⟨h.holds.same.decrease, h.holds.same.curvature, h.holds.same.initialStep,
        h.holds.same.maxTrials⟩
    have hholds (k' : Bracket (Exact K)) (done : Option Reason)
        (htrial : Trial r f g slope s.counted k c k' done) :
        ∃ a', Holds r f g s₀ slope a' (s.counted.concluded k' done) :=
      htrial.holds hsame h.holds.line.countTrial hlower hopen hc
    refine (ends_step hA h.holds.line hdone hk hnext ?_).mono ?_
    · intro k' done e htrial he
      obtain ⟨a', ha'⟩ := hholds k' done htrial
      exact hfails ha' e he
    · rintro report w ⟨k', done, htrial, hw, hreport⟩
      obtain ⟨a', ha'⟩ := hholds k' done htrial
      rw [← hw] at ha'
      refine ⟨a', hkeeps ha' hreport, fun hstill => ?_⟩
      have htrials : w.solver.line.trials = s.line.trials + 1 := by rw [hw]; rfl
      have hlt := (hgo hstill).2
      simp only [ProgressOn.iter_increment, ProgressOn.iter_update, (htally hstill).1]
      omega
  · -- The search is over, which only happens along a direction of length zero.
    refine (ends_trial_of_done hdone (hfails h.holds)).mono ?_
    rintro report w ⟨hreport, hw⟩
    rw [hw]
    exact ⟨a, hkeeps h.holds hreport, fun hstill => absurd (hgo hstill).1 hdone⟩

end Minimization.StrongWolfe
