import Mathlib.Tactic.Linarith
import Minimization.Proofs.LineSearch.Trial

namespace Minimization

/-!
# What a bracket is sure of

Costs and slopes along the line are finite numbers.  Nothing is assumed of how the two are related, or
that a second look at a step length finds the same.

* `Findings` — which costs and slopes have been found at which step lengths.
* `Base` — the lower end of a bracket decreases sufficiently and is too steep.
* `Brackets` — a growing bracket leads downhill at its lower end.  In a closed one the slope at the
  lower end points to the other end, and the cost there is too high.
* `Outcome.brackets` — every trial keeps this, unless it ends the search with a step that meets both
  conditions; `Outcome.halves` — and halves a closed bracket.
* `Profile`, `Guards` — if costs and slopes depend on the step length alone, the memory of a search
  holds such a bracket between two iterations; `ends_init_guards`, `Guards.ends_step` show that it does.
-/

/-- The sample has the cost `y` at the step length `a`. -/
structure Sample.At {K : Type} (m : Sample (Exact K)) (a y : K) : Prop where
  step : m.step = .finite a
  cost : m.cost = .finite y

namespace StrongWolfe

variable {K ω : Type} [Field K] [LinearOrder K] [Roots K]

/-- The constants of a search, as its construction admits them. -/
structure Constants (s : StrongWolfe (Exact K)) (c₁ c₂ : K) : Prop where
  decrease : s.decrease = .finite c₁
  curvature : s.curvature = .finite c₂
  pos : 0 < c₁
  lt : c₁ < c₂
  lt_one : c₂ < 1

/-- Which costs have been found at which step lengths, and which slopes by which gradients. -/
structure Findings (K : Type) where
  cost : K → K → Prop
  slope : K → Tensor (Exact K) → K → Prop

/-- Cost and slope at the origin, from where the line leads downhill. -/
structure Falls (start : LineStart (Exact K)) (y₀ d₀ : K) : Prop where
  cost : start.cost = .finite y₀
  slope : start.slope = .finite d₀
  neg : d₀ < 0

section Brackets

variable (F : Findings K) (y₀ d₀ c₁ c₂ : K) (k : Bracket (Exact K))

/-- The lower end is at the step length `a`, which decreases sufficiently, but where the slope `d` is not
    small enough. -/
structure Base (a y d : K) : Prop where
  low : k.low = .finite a
  nonneg : 0 ≤ a
  cost : k.lowCost = .finite y
  found : F.cost a y
  slope : F.slope a k.lowGradient d
  origin : a = 0 → y = y₀
  decrease : y ≤ y₀ + c₁ * a * d₀
  steep : -c₂ * d₀ < |d|

/-- What a bracket is sure of as long as no step has met both conditions. -/
inductive Brackets : Prop
  | growing {low cost slope step : K} (hphase : k.closed = false)
      (hbase : Base F y₀ d₀ c₁ c₂ k low cost slope) (hdown : slope < 0)
      (hstep : k.step = .finite step) (hlt : low < step)
  | closed {low cost slope high beyond : K} (hphase : k.closed = true)
      (hbase : Base F y₀ d₀ c₁ c₂ k low cost slope) (hhigh : k.high = .finite high)
      (hnonneg : 0 ≤ high) (hfound : F.cost high beyond) (hdown : slope * (high - low) < 0)
      (hbeyond : y₀ + c₁ * high * d₀ < beyond ∨ cost ≤ beyond)

end Brackets

/-- The findings `F'` are `F` and those of the trial `m`: the cost `y` at the step length `a`, and the
    slope there by its gradient. -/
structure Findings.Adds (F F' : Findings K) (A : Setting ω (Exact K)) (s : StrongWolfe (Exact K))
    (m : Sample (Exact K)) (a y : K) : Prop where
  sample : m.At a y
  cost : F'.cost a y
  slope : ∀ v there, Tells A s m v there → ∃ d, there = .finite d ∧ F'.slope a v d
  costs : ∀ {a y}, F.cost a y → F'.cost a y
  slopes : ∀ {a v d}, F.slope a v d → F'.slope a v d

section Trials

variable {F F' : Findings K} {A : Setting ω (Exact K)} {s : StrongWolfe (Exact K)}
  {start : LineStart (Exact K)} {k k' : Bracket (Exact K)} {m : Sample (Exact K)}
  {y₀ d₀ c₁ c₂ a y : K} {done : Option Reason} {n : Nat}

omit [Roots K] in
/-- The constants of a search do not change. -/
theorem Constants.congr {s' : StrongWolfe (Exact K)} (h : Constants s c₁ c₂)
    (hdecrease : s'.decrease = s.decrease) (hcurvature : s'.curvature = s.curvature) :
    Constants s' c₁ c₂ :=
  ⟨hdecrease.trans h.decrease, hcurvature.trans h.curvature, h.pos, h.lt, h.lt_one⟩

/-- A lower end that stays where it is. -/
theorem Base.stays {low cost slope : K} (h : Base F y₀ d₀ c₁ c₂ k low cost slope)
    (hF : F.Adds F' A s m a y) (hlow : k'.low = k.low) (hcost : k'.lowCost = k.lowCost)
    (hgradient : k'.lowGradient = k.lowGradient) : Base F' y₀ d₀ c₁ c₂ k' low cost slope where
  low := hlow.trans h.low
  nonneg := h.nonneg
  cost := hcost.trans h.cost
  found := hF.costs h.found
  slope := hgradient ▸ hF.slopes h.slope
  origin := h.origin
  decrease := h.decrease
  steep := h.steep

/-! ### Tests as inequalities -/

/-- A step is too long if its cost is too high, or not below that of the lower end. -/
theorem long_iff (hs : Constants s c₁ c₂) (hstart : Falls start y₀ d₀) (hm : m.At a y)
    {low cost : K} (hlow : k.low = .finite low) (hcost : k.lowCost = .finite cost) :
    Long s start k m ↔ y₀ + c₁ * a * d₀ < y ∨ (k.closed = true ∨ 0 < low) ∧ cost ≤ y := by
  have hsufficient : s.sufficient start m.step m.cost = false ↔ y₀ + c₁ * a * d₀ < y := by
    rw [Bool.eq_false_iff, ne_eq, StrongWolfe.sufficient, hstart.cost, hstart.slope, hm.step, hm.cost,
      hs.decrease]
    simp
  unfold Long
  rw [hsufficient, hlow, hcost, hm.cost]
  simp

variable [IsStrictOrderedRing K]

/-- A slope that is not small enough, as an inequality. -/
theorem flat_eq_false_iff (hs : Constants s c₁ c₂) (hstart : Falls start y₀ d₀) {d : K} :
    s.flat start (.finite d) = false ↔ -c₂ * d₀ < |d| := by
  rw [Bool.eq_false_iff, ne_eq, StrongWolfe.flat, hstart.slope, hs.curvature]
  simp

omit [Roots K] in
/-- Downhill at the origin no slope that is too steep is zero. -/
theorem Base.slope_ne_zero (hs : Constants s c₁ c₂) (hd : d₀ < 0) {low cost slope : K}
    (h : Base F y₀ d₀ c₁ c₂ k low cost slope) : slope ≠ 0 := by
  rintro rfl
  have hsteep := h.steep
  rw [abs_zero] at hsteep
  have hc₂ : 0 < c₂ := hs.pos.trans hs.lt
  nlinarith

omit [Roots K] in
/-- The origin is too steep. -/
theorem Constants.steep_origin (hs : Constants s c₁ c₂) (hd : d₀ < 0) : -c₂ * d₀ < |d₀| := by
  rw [abs_of_neg hd]
  have hlt := hs.lt_one
  nlinarith

/-! ### Trials -/

/-- The step length that is tried next is a positive number. -/
theorem Brackets.exists_next (hk : Brackets F y₀ d₀ c₁ c₂ k) : ∃ a, 0 < a ∧ next k = .finite a := by
  cases hk with
  | @growing low _ _ step hphase hbase _ hstep hlt =>
    exact ⟨step, hbase.nonneg.trans_lt hlt, by simp [next, hphase, hstep]⟩
  | @closed low _ slope high _ hphase hbase hhigh hnonneg _ hdown _ =>
    have hne : high ≠ low := fun h => by simp [h] at hdown
    have hsum : 0 < low + high := by
      refine (add_nonneg hbase.nonneg hnonneg).lt_of_ne' fun h => hne ?_
      linarith [hbase.nonneg]
    exact ⟨1 / 2 * (low + high), by positivity, by simp [next, hphase, hbase.low, hhigh]⟩

omit [IsStrictOrderedRing K] [Roots K] in
/-- The lower end is a number, and so is the cost there. -/
theorem Brackets.exists_base (hk : Brackets F y₀ d₀ c₁ c₂ k) :
    ∃ low cost slope, Base F y₀ d₀ c₁ c₂ k low cost slope := by
  cases hk with
  | growing _ hbase => exact ⟨_, _, _, hbase⟩
  | closed _ hbase => exact ⟨_, _, _, hbase⟩

/-- The cost at a step that is not too long is below that of the lower end. -/
theorem Brackets.cost_lt (hs : Constants s c₁ c₂) (hstart : Falls start y₀ d₀)
    (hk : Brackets F y₀ d₀ c₁ c₂ k) (hnext : next k = .finite a) (hm : m.At a y)
    (hshort : ¬Long s start k m) {cost : K} (hcost : k.lowCost = .finite cost) :
    y ≤ y₀ + c₁ * a * d₀ ∧ y < cost := by
  obtain ⟨a', hpos, ha⟩ := hk.exists_next
  obtain rfl := Exact.finite.inj (hnext.symm.trans ha)
  cases hk with
  | @growing low cost' _ step hphase hbase =>
    obtain rfl := Exact.finite.inj (hcost.symm.trans hbase.cost)
    rw [long_iff hs hstart hm hbase.low hcost, not_or, not_lt] at hshort
    refine ⟨hshort.1, ?_⟩
    obtain hzero | hlow := hbase.nonneg.eq_or_lt
    · -- The test is not made at the origin, but a sufficient decrease is a decrease.
      have hdecrease : c₁ * a * d₀ < 0 := mul_neg_of_pos_of_neg (mul_pos hs.pos hpos) hstart.neg
      rw [hbase.origin hzero.symm]
      linarith [hshort.1]
    · exact not_le.1 fun hle => hshort.2 ⟨.inr hlow, hle⟩
  | closed hphase hbase =>
    obtain rfl := Exact.finite.inj (hcost.symm.trans hbase.cost)
    rw [long_iff hs hstart hm hbase.low hcost, not_or, not_lt] at hshort
    exact ⟨hshort.1, not_le.1 fun hle => hshort.2 ⟨.inl hphase, hle⟩⟩

/-- A step that is not too long, and too steep, may be the lower end. -/
theorem Brackets.moved (hs : Constants s c₁ c₂) (hstart : Falls start y₀ d₀)
    (hF : F.Adds F' A s m a y) (hk : Brackets F y₀ d₀ c₁ c₂ k) (hnext : next k = .finite a)
    (hshort : ¬Long s start k m) {v : Tensor (Exact K)} {there : Exact K}
    (htells : Tells A s m v there) (hsteep : s.flat start there = false) :
    ∃ d, there = .finite d ∧ ∀ k', k'.low = m.step → k'.lowCost = m.cost → k'.lowGradient = v →
      Base F' y₀ d₀ c₁ c₂ k' a y d := by
  obtain ⟨a', hpos, ha⟩ := hk.exists_next
  obtain rfl := Exact.finite.inj (hnext.symm.trans ha)
  obtain ⟨_, _, _, hbase⟩ := hk.exists_base
  have hdecrease := (hk.cost_lt hs hstart hnext hF.sample hshort hbase.cost).1
  obtain ⟨d, rfl, hd⟩ := hF.slope v there htells
  rw [flat_eq_false_iff hs hstart] at hsteep
  refine ⟨d, rfl, fun k' hlow hlowCost hgradient => ?_⟩
  exact ⟨hlow.trans hF.sample.step, hpos.le, hlowCost.trans hF.sample.cost, hF.cost, hgradient ▸ hd,
    fun hzero => absurd hzero hpos.ne', hdecrease, hsteep⟩

/-- **Every trial keeps what a bracket is sure of**, unless it finds a step that meets both
    conditions. -/
theorem Outcome.brackets (hs : Constants s c₁ c₂) (hstart : Falls start y₀ d₀)
    (hF : F.Adds F' A s m a y) (hk : Brackets F y₀ d₀ c₁ c₂ k) (hnext : next k = .finite a)
    (h : Outcome A s start k m k' done n) (hdone : done ≠ some .lineSearchCondition) :
    Brackets F' y₀ d₀ c₁ c₂ k' := by
  have hmoved (hshort : ¬Long s start k m) {v : Tensor (Exact K)} {there : Exact K}
      (htells : Tells A s m v there) (hsteep : s.flat start there = false) :=
    hk.moved hs hstart hF hnext hshort htells hsteep
  have hless (hshort : ¬Long s start k m) {cost : K} (hcost : k.lowCost = .finite cost) : y < cost :=
    (hk.cost_lt hs hstart hnext hF.sample hshort hcost).2
  cases hk with
  | @growing low cost slope step hphase hbase hdown hstep hlt =>
    -- The step that is tried lies beyond the lower end.
    obtain rfl : a = step := by
      rw [next, hphase] at hnext
      exact Exact.finite.inj (hnext.symm.trans hstep)
    have hpos : 0 < a := hbase.nonneg.trans_lt hlt
    cases h with
    | closes _ hlong =>
      rw [long_iff hs hstart hF.sample hbase.low hbase.cost] at hlong
      exact .closed rfl (hbase.stays hF rfl rfl rfl) hF.sample.step hpos.le hF.cost
        (mul_neg_of_neg_of_pos hdown (sub_pos.2 hlt)) (hlong.imp_right (·.2))
    | accepts => exact absurd rfl hdone
    | turns _ hshort htells hsteep hrising =>
      obtain ⟨d, rfl, hmoved⟩ := hmoved hshort htells hsteep
      have hbase' := hmoved { Bracket.moveLow { k with high := k.low } m.step m.cost _ with
        closed := true } rfl rfl rfl
      have hup : 0 < d := lt_of_le_of_ne (by simpa using hrising) (hbase'.slope_ne_zero hs hstart.neg).symm
      exact .closed rfl hbase' hbase.low hbase.nonneg (hF.costs hbase.found)
        (mul_neg_of_pos_of_neg hup (sub_neg.2 hlt)) (.inr (hless hshort hbase.cost).le)
    | advances _ hshort htells hsteep hfalling =>
      obtain ⟨d, rfl, hmoved⟩ := hmoved hshort htells hsteep
      have hdown' : d < 0 := by
        rw [Bool.eq_false_iff, ne_eq] at hfalling
        simpa using hfalling
      have hstep' : (2.0 * m.step : Exact K) = .finite (2 * a) := by
        rw [hF.sample.step]
        simp
      exact .growing hphase (hmoved _ rfl rfl rfl) hdown' hstep' (by linarith)
    | shortens hphase' => simp [hphase] at hphase'
    | swaps hphase' => simp [hphase] at hphase'
    | raises hphase' => simp [hphase] at hphase'
  | @closed low cost slope high beyond hphase hbase hhigh hnonneg hfound hdown hbeyond =>
    -- The step that is tried is the middle of the two ends.
    have hmiddle : a = 1 / 2 * (low + high) := by
      rw [next, hphase, if_pos rfl, hbase.low, hhigh] at hnext
      exact (Exact.finite.inj (by simpa using hnext)).symm
    have hupper : high - a = (high - low) / 2 := by rw [hmiddle]; ring
    have hhalf : a - low = (high - low) / 2 := by rw [hmiddle]; ring
    have hnonneg' : 0 ≤ a := by
      have hlow := hbase.nonneg
      rw [hmiddle]
      positivity
    cases h with
    | closes hphase' => simp [hphase] at hphase'
    | accepts => exact absurd rfl hdone
    | turns hphase' => simp [hphase] at hphase'
    | advances hphase' => simp [hphase] at hphase'
    | shortens _ hlong =>
      rw [long_iff hs hstart hF.sample hbase.low hbase.cost] at hlong
      exact .closed hphase (hbase.stays hF rfl rfl rfl) hF.sample.step hnonneg' hF.cost
        (by rw [hhalf]; linarith) (hlong.imp_right (·.2))
    | swaps _ hshort htells hsteep hrising =>
      obtain ⟨d, rfl, hmoved⟩ := hmoved hshort htells hsteep
      have hbase' := hmoved (Bracket.moveLow { k with high := k.low } m.step m.cost _) rfl rfl rfl
      -- The slope at the new lower end points away from the old upper one.
      have hne : high - low ≠ 0 := fun hzero => by simp [hzero] at hdown
      have haway : 0 < d * (high - low) := by
        rw [hhigh, hbase.low] at hrising
        exact lt_of_le_of_ne (by simpa using hrising)
          (mul_ne_zero (hbase'.slope_ne_zero hs hstart.neg) hne).symm
      exact .closed hphase hbase' hbase.low hbase.nonneg (hF.costs hbase.found)
        (by rw [← neg_sub, hhalf]; linarith) (.inr (hless hshort hbase.cost).le)
    | raises _ hshort htells hsteep hfalling =>
      obtain ⟨d, rfl, hmoved⟩ := hmoved hshort htells hsteep
      have htowards : d * (high - low) < 0 := by
        rw [hhigh, hbase.low, Bool.eq_false_iff, ne_eq] at hfalling
        simpa using hfalling
      exact .closed hphase (hmoved _ rfl rfl rfl) hhigh hnonneg (hF.costs hfound)
        (by rw [hupper]; linarith)
        (hbeyond.imp_right fun hle => (hless hshort hbase.cost).le.trans hle)

end Trials

/-! ### Iterations -/

/-- Costs and slopes along a ray. -/
structure Profile (r : Ray K) (f : Tensor (Exact K) → Exact K)
    (g : Tensor (Exact K) → Tensor (Exact K)) (φ φ' : K → K) : Prop where
  cost : ∀ a, f (r.point a) = .finite (φ a)
  slope : ∀ a, r.backend.dot (g (r.point a)) r.way = .ok (.finite (φ' a))

/-- All that can be found along a ray whose costs are `φ` and whose slopes are `φ'`. -/
def along (φ φ' : K → K) : Findings K where
  cost a y := y = φ a
  slope a _ d := d = φ' a

/-- What the memory of a search along `r` holds between two iterations. -/
structure Guards (r : Ray K) (f : Tensor (Exact K) → Exact K)
    (g : Tensor (Exact K) → Tensor (Exact K)) (φ φ' : K → K) (c₁ c₂ : K)
    (s : StrongWolfe (Exact K)) : Prop where
  constants : Constants s c₁ c₂
  line : s.line.On r (f r.start) (g r.start) (.finite (φ' 0))
  bracket : ∃ k, s.bracket = some k ∧
    (s.line.done = none → Brackets (along φ φ') (φ 0) (φ' 0) c₁ c₂ k)

variable {r : Ray K} {f : Tensor (Exact K) → Exact K} {g : Tensor (Exact K) → Tensor (Exact K)}
  {φ φ' : K → K} {c₁ c₂ a : K} {A : Setting ω (Exact K)} {E : Failure (Exact K) → Prop}
  {p : Progress (Exact K)} {s : StrongWolfe (Exact K)} {session : Session ω}

/-- At the origin the profile has the cost of the start. -/
theorem Profile.start (h : Profile r f g φ φ') : f r.start = .finite (φ 0) := by
  rw [← r.point_zero]
  exact h.cost 0

/-- Along a direction of descent the search falls. -/
theorem Profile.falls (h : Profile r f g φ φ') (hφ : φ' 0 < 0) :
    Falls (origin r f g (.finite (φ' 0))) (φ 0) (φ' 0) :=
  ⟨h.start, rfl, hφ⟩

/-- A trial finds nothing else. -/
theorem Profile.adds (hA : Line.Terrain A r f g E) (h : Profile r f g φ φ')
    (hline : s.line.On r (f r.start) (g r.start) (.finite (φ' 0))) :
    (along φ φ').Adds (along φ φ') A s ⟨.finite a, r.point a, f (r.point a)⟩ a (φ a) where
  sample := ⟨rfl, h.cost a⟩
  cost := rfl
  slope v there htells := by
    obtain ⟨-, hdot⟩ := htells.of_terrain hA hline rfl
    exact ⟨φ' a, Except.ok.inj (hdot.symm.trans (h.slope a)), rfl⟩
  costs := id
  slopes := id

variable [IsStrictOrderedRing K]

/-- A search begins with a bracket that grows from its origin. -/
theorem ends_init_guards (hA : Line.Terrain A r f g E) (hp : Line.Knows r f g p)
    (h : Profile r f g φ φ') (hs : Constants s c₁ c₂) (hφ : φ' 0 < 0)
    (hl : s.line.direction = some r.way) {step : K} (hstep : s.line.initialStep = .finite step)
    (hpos : 0 < step) :
    (solver.init A p).Ends ⟨s, session⟩ (fun _ w => Guards r f g φ φ' c₁ c₂ w.solver) E := by
  have hstart : r.backend.dot (g r.start) r.way =
      (.ok (.finite (φ' 0)) : Except (Failure (Exact K)) _) := by
    rw [← r.point_zero]
    exact h.slope 0
  have hdescent (slope : Exact K) (hslope : r.backend.dot (g r.start) r.way = .ok slope) :
      r.Still ∨ Scalar.lt slope 0.0 = true ∨ E (.invalid .notDescent) := by
    obtain rfl := Except.ok.inj (hslope.symm.trans hstart)
    exact .inr (.inl (by simpa using hφ))
  -- The lower end is the origin, which decreases by nothing and leads downhill.
  have hbracket : Brackets (along φ φ') (φ 0) (φ' 0) c₁ c₂
      ⟨false, s.line.initialStep, 0.0, f r.start, g r.start, 0.0⟩ :=
    .growing rfl ⟨Exact.lit_zero, le_rfl, h.start, rfl, rfl, fun _ => rfl, by simp,
      hs.steep_origin hφ⟩ hφ hstep hpos
  refine (ends_init_opened hA hp hl hdescent).mono ?_
  rintro _ w ⟨rfl, slope, hslope, hw⟩
  obtain rfl := Except.ok.inj (hslope.symm.trans hstart)
  obtain ⟨-, hw⟩ | ⟨-, hw⟩ := hw
  · rw [hw]
    exact ⟨hs.congr rfl rfl, (Line.On.begun hl).finish _, _, rfl, fun _ => hbracket⟩
  · rw [hw]
    exact ⟨hs.congr rfl rfl, .begun hl, _, rfl, fun _ => hbracket⟩

/-- **An iteration keeps what the memory holds**, however the operator may fail. -/
theorem Guards.ends_step (hA : Line.Terrain A r f g fun _ => True) (h : Profile r f g φ φ')
    (hφ : φ' 0 < 0) (hs : Guards r f g φ φ' c₁ c₂ s) :
    (solver.step A p).Ends ⟨s, session⟩ (fun _ w => Guards r f g φ φ' c₁ c₂ w.solver)
      fun _ => True := by
  by_cases hdone : s.line.done = none
  · obtain ⟨k, hk, hbracket⟩ := hs.bracket
    obtain ⟨a, -, hnext⟩ := (hbracket hdone).exists_next
    have hline : s.counted.line.On r (f r.start) (g r.start) (.finite (φ' 0)) := hs.line.countTrial
    have hfirm : Line.Firm A s.line (next k) fun _ => True := hnext ▸ firm_of_terrain hA hs.line a
    refine (ends_trial_outcome hfirm hdone hk fun _ _ _ _ _ _ => trivial).mono ?_
    rintro report w ⟨m, hm, ⟨start, k', done, n, hstart, htaken, houtcome, hw, -⟩, -⟩
    obtain rfl := eq_of_taken hA hline htaken (hm.trans hnext)
    obtain rfl := Option.some.inj (hstart.symm.trans hline.start)
    have hcounted : Constants s.counted c₁ c₂ := hs.constants.congr rfl rfl
    rw [hw]
    -- If the search goes on, the trial has not met both conditions.
    refine ⟨hcounted.congr rfl rfl, ⟨hs.line.direction, hs.line.start⟩, k', rfl, fun hgo => ?_⟩
    have hgo : done = none := hgo
    exact houtcome.brackets hcounted (h.falls hφ) (h.adds hA hline) (hbracket hdone) hnext
      (by rw [hgo]; simp)
  · -- A search that is over keeps its memory.
    refine (ends_trial_of_done hdone fun _ _ => trivial).mono ?_
    rintro report w ⟨-, hw⟩
    rw [hw]
    exact hs

end StrongWolfe

end Minimization
