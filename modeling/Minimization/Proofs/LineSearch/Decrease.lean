import Minimization.Proofs.LineSearch.Conduct
import Minimization.Proofs.LineSearch.Descent
import Minimization.Proofs.Scalar.Signed

namespace Minimization

/-!
# A search that succeeds does not climb

Step lengths are never negative, and the slope at the start is; so what passes a test of sufficient
decrease costs no more than the start, however sums and products are rounded.

* `LineSearch.Checked` — settings that have been checked, when the search was made or since.
* `Backtracking.Sinks`, `StrongWolfe.Sinks` — what either search keeps in every iteration.
* `LineSearch.ends_run_sinks` — the cost that a search finds is at most the one it started from, if
  the search is one for the strong Wolfe conditions, however it ends, or has met its conditions.
-/

variable {ω α : Type} [Scalar α]

/-- The line starts with the cost `c₀`, and leads downhill as long as the search is not over. -/
def Line.StartsAt (c₀ : α) (l : Line α) : Prop :=
  ∃ start, l.start = some start ∧ start.cost = c₀ ∧
    (l.done = none → Scalar.lt start.slope 0.0 = true)

/-- A line that has begun with the cost `c`. -/
theorem Line.Opens.startsAt {l l' : Line α} {p : Progress α} {d v : Tensor α} {c slope length : α}
    (h : Line.Opens l p d c v l' slope length) : l'.StartsAt c := by
  refine ⟨⟨p.param, c, v, slope⟩, by rw [h.line], rfl, fun hdone => ?_⟩
  -- A search that is not over has a direction of some length.
  rw [h.line] at hdone
  dsimp only at hdone
  split at hdone
  · cases hdone
  · next hlong => exact h.downhill.resolve_left hlong

variable {c₀ : α} {p : Progress α}

/-! ### Backtracking -/

namespace Backtracking

/-- A search that has started with the cost `c₀`, and shows no higher one once it is over. -/
structure Sinks (c₀ : α) (p : Progress α) (s : Backtracking α) : Prop where
  decrease : Scalar.lt s.decrease 0.0 = false
  shrink : Scalar.lt s.shrink 0.0 = false
  start : s.line.StartsAt c₀
  step : Scalar.lt s.step 0.0 = false
  shown : s.line.done ≠ none → Scalar.le p.cost c₀ = true

variable {s : Backtracking α} [Scalar.Signed α]

/-- A trial. -/
theorem Sinks.tried (h : Sinks c₀ p s) (hdone : s.line.done = none) {start : LineStart α}
    (hstart : s.line.start = some start) {report : Report α} {c : α} (hc : report.cost = some c) :
    Sinks c₀ (p.update report).1.increment (s.tried start c) := by
  obtain ⟨start', hstart', rfl, hslope⟩ := h.start
  obtain rfl := Option.some.inj (hstart'.symm.trans hstart)
  have hfrom (done : Option Reason) :
      Line.StartsAt start'.cost { s.line.countTrial with done := done } :=
    ⟨start', hstart', rfl, fun _ => hslope hdone⟩
  -- A trial is accepted with a cost that has come down, or shrinks the step length.
  unfold Backtracking.tried
  split
  · next hlow =>
    refine ⟨h.decrease, h.shrink, hfrom _, h.step, fun _ => ?_⟩
    rw [ProgressOn.cost_increment, ProgressOn.cost_update, hc]
    exact Scalar.Signed.le_of_le_add_mul (Scalar.Signed.mul_nonneg h.decrease h.step)
      (hslope hdone) hlow
  · refine ⟨h.decrease, h.shrink, ?_, Scalar.Signed.mul_nonneg h.step h.shrink,
      fun hover => absurd hdone hover⟩
    have hcounted := hfrom none
    rwa [← hdone] at hcounted

end Backtracking

/-! ### The strong Wolfe conditions -/

/-- A bracket without negative step lengths, whose lower end costs at most `c₀`. -/
structure Bracket.Sinks (c₀ : α) (k : Bracket α) : Prop where
  step : Scalar.lt k.step 0.0 = false
  low : Scalar.lt k.low 0.0 = false
  high : Scalar.lt k.high 0.0 = false
  cost : Scalar.le k.lowCost c₀ = true

namespace StrongWolfe

/-- A search that has started with the cost `c₀`, and shows the lower end of its bracket. -/
structure Sinks (c₀ : α) (p : Progress α) (s : StrongWolfe α) : Prop where
  decrease : Scalar.lt s.decrease 0.0 = false
  start : s.line.StartsAt c₀
  bracket : ∃ k, s.bracket = some k ∧ k.Sinks c₀ ∧ p.cost = k.lowCost

variable {s : StrongWolfe α} {k k' : Bracket α} [Scalar.Signed α]

/-- The next step length is not negative either. -/
theorem next_nonneg (h : k.Sinks c₀) : Scalar.lt (next k) 0.0 = false := by
  unfold next
  split
  · exact Scalar.Signed.mul_nonneg Scalar.Signed.half_nonneg
      (Scalar.Signed.add_nonneg h.low h.high)
  · exact h.step

/-- A trial. -/
theorem Tries.sinks {start : LineStart α} {c : α} {done : Option Reason} {n : Nat}
    (h : Tries s start k (next k) c k' done n) (hk : k.Sinks start.cost)
    (hdecrease : Scalar.lt s.decrease 0.0 = false) (hslope : Scalar.lt start.slope 0.0 = true) :
    k'.Sinks start.cost := by
  have hnext := next_nonneg hk
  cases h with
  | long => exact ⟨hk.step, hk.low, hnext, hk.cost⟩
  | short hlow hstep hhigh =>
    refine ⟨?_, hnext, ?_, ?_⟩
    · obtain rfl | rfl := hstep
      · exact hk.step
      · exact Scalar.Signed.mul_nonneg Scalar.Signed.two_nonneg hnext
    · obtain rfl | rfl := hhigh
      · exact hk.high
      · exact hk.low
    · exact Scalar.Signed.le_of_le_add_mul (Scalar.Signed.mul_nonneg hdecrease hnext) hslope hlow

end StrongWolfe

/-! ### Either search -/

namespace LineSearch

/-- Settings that have been checked: the constants that matter for signs, and the first step
    length. -/
def Checked : LineSearch α → Prop
  | .backtracking s => Scalar.lt 0.0 s.decrease = true ∧ Scalar.lt 0.0 s.shrink = true ∧
      Scalar.lt 0.0 s.line.initialStep = true
  | .strongWolfe s => Scalar.lt 0.0 s.decrease = true ∧ Scalar.lt 0.0 s.line.initialStep = true
  | .unsuited _ => False

section
variable [Scalar.Signed α] {n : Int}

/-- Constants that have been checked, and the first step length with which a search is made. -/
theorem checked_of_make_backtracking {c q : α} {s : Backtracking α}
    (h : Backtracking.make c q n = .ok s) : (LineSearch.backtracking s).Checked := by
  obtain ⟨hc, hq, -, rfl⟩ := Backtracking.make_eq_ok_iff.1 h
  rw [Bool.and_eq_true] at hc hq
  exact ⟨hc.1, hq.1, Scalar.Signed.zero_lt_one⟩

/-- The constructor of the other search checks its settings as well. -/
theorem checked_of_make_strongWolfe {c₁ c₂ : α} {s : StrongWolfe α}
    (h : StrongWolfe.make c₁ c₂ n = .ok s) : (LineSearch.strongWolfe s).Checked := by
  obtain ⟨hc, -, rfl⟩ := StrongWolfe.make_eq_ok_iff.1 h
  rw [Bool.and_eq_true, Bool.and_eq_true] at hc
  exact ⟨hc.1.1, Scalar.Signed.zero_lt_one⟩

end

/-- A first step length that is set is checked as well. -/
theorem Checked.setInitialStep {m m' : LineSearch α} (hm : m.Checked) {step : α}
    (h : m.setInitialStep step = .ok m') : m'.Checked := by
  unfold LineSearch.setInitialStep onLine Line.setInitialStep at h
  cases m with
  | backtracking s =>
    dsimp only at h
    split at h
    · next hstep =>
      obtain rfl := Except.ok.inj h
      exact ⟨hm.1, hm.2.1, hstep⟩
    · cases h
  -- The first step length is replaced only by a positive one.
  | strongWolfe s =>
    dsimp only at h
    split at h
    · next hstep =>
      obtain rfl := Except.ok.inj h
      exact ⟨hm.1, hstep⟩
    · cases h
  | unsuited text => exact hm.elim

/-- A search with checked settings has a line. -/
theorem Checked.isSome_line? {m : LineSearch α} (hm : m.Checked) : m.line?.isSome = true := by
  cases m with
  | backtracking s => rfl
  | strongWolfe s => rfl
  | unsuited text => exact hm.elim

/-- What either search keeps in every iteration. -/
def Sinks (c₀ : α) (p : Progress α) : LineSearch α → Prop
  | .backtracking s => s.Sinks c₀ p
  | .strongWolfe s => s.Sinks c₀ p
  | .unsuited _ => False

variable {A : Setting ω α} {m : LineSearch α} {t : Session ω}

/-- A search shows a cost that is no higher, if it is one for the strong Wolfe conditions or has met
    its conditions. -/
theorem Sinks.cost_le (h : m.Sinks c₀ p)
    (hend : m.isStrong = true ∨ m.reason = .lineSearchCondition) : Scalar.le p.cost c₀ = true := by
  cases m with
  | backtracking s =>
    refine h.shown ?_
    rw [done_of_reason (hend.resolve_left nofun)]
    nofun
  | strongWolfe s =>
    obtain ⟨k, -, hk, hcost⟩ := h.bracket
    rw [hcost]
    exact hk.cost
  | unsuited text => exact h.elim

/-- Only the cost matters of the progress. -/
theorem Sinks.of_cost (h : m.Sinks c₀ p) {q : Progress α} (hcost : q.cost = p.cost) :
    m.Sinks c₀ q := by
  cases m with
  | backtracking s => exact ⟨h.decrease, h.shrink, h.start, h.step, fun hdone => hcost ▸ h.shown hdone⟩
  | strongWolfe s =>
    obtain ⟨k, hk, hsinks, hlow⟩ := h.bracket
    exact ⟨h.decrease, h.start, k, hk, hsinks, hcost.trans hlow⟩
  | unsuited text => exact h.elim

/-- A search that keeps this is one. -/
theorem Sinks.exists_line (h : m.Sinks c₀ p) : ∃ l, m.line? = some l := by
  cases m with
  | backtracking s => exact ⟨_, rfl⟩
  | strongWolfe s => exact ⟨_, rfl⟩
  | unsuited text => exact h.elim

variable [Scalar.Signed α]

/-- **An iteration** of either search. -/
theorem Sinks.step (h : m.Sinks c₀ p) : (solver.step A p).Ends ⟨m, t⟩
    (fun report w => w.solver.isStrong = m.isStrong ∧
      w.solver.Sinks c₀ (p.update report).1.increment) fun _ => True := by
  cases m with
  | backtracking s =>
    show (dispatch _ _).Ends _ _ _
    rw [ends_dispatch_backtracking]
    by_cases hdone : s.line.done = none
    · refine (Backtracking.ends_trial_tried (.anyhow A s.line) hdone).mono ?_
      rintro report w ⟨start, c, hstart, -, hw, -, hreport⟩
      exact ⟨rfl, hw ▸ Backtracking.Sinks.tried h hdone hstart hreport⟩
    · -- A search that is over shows what it has shown before.
      refine (Backtracking.ends_trial_over hdone).mono ?_
      rintro report w ⟨rfl, rfl⟩
      refine ⟨rfl, h.decrease, h.shrink, h.start, h.step, fun hover => ?_⟩
      rw [ProgressOn.cost_increment, ProgressOn.cost_update]
      exact h.shown hover
  | strongWolfe s =>
    show (dispatch _ _).Ends _ _ _
    rw [ends_dispatch_strongWolfe]
    obtain ⟨k, hk, hsinks, -⟩ := h.bracket
    have hshown {k' : Bracket α} {report : Report α} (hreport : report.cost = some k'.lowCost) :
        (p.update report).1.increment.cost = k'.lowCost := by
      rw [ProgressOn.cost_increment, ProgressOn.cost_update, hreport]
      rfl
    by_cases hdone : s.line.done = none
    · refine (StrongWolfe.ends_trial_tries (.anyhow A s.line) hdone hk).mono ?_
      rintro report w ⟨start, c, k', done, n, hstart, -, htries, hw, -, hreport⟩
      obtain ⟨start', hstart', rfl, hslope⟩ := h.start
      obtain rfl := Option.some.inj (hstart'.symm.trans hstart)
      refine ⟨rfl, ?_⟩
      dsimp only
      rw [hw]
      exact ⟨h.decrease, ⟨start', hstart, rfl, fun _ => hslope hdone⟩, k', rfl,
        htries.sinks hsinks h.decrease (hslope hdone), hshown hreport⟩
    · refine (StrongWolfe.ends_trial_over (.anyhow A s.line) hdone hk).mono ?_
      rintro report w ⟨hreport, rfl⟩
      exact ⟨rfl, h.decrease, h.start, k, hk, hsinks, hshown hreport⟩
  | unsuited text => exact h.elim

/-- The contract of a search that starts with the cost `c₀`. -/
theorem sinks_contract (A : Setting ω α) (strong : Bool) (c₀ : α) :
    Run.Contract (Run.nestedPlan LineSearch.solver A)
      (fun p m => m.isStrong = strong ∧ m.Sinks c₀ p) (fun p m => m.isStrong = strong ∧ m.Sinks c₀ p)
      fun _ => True := by
  refine .anyhow (fun reason h => ⟨h.1, h.2.of_cost rfl⟩) (fun t h _ => ?_) fun t h => ?_
  · refine h.2.step.mono fun report w hstep => ?_
    exact ⟨hstep.1.trans h.1, hstep.2⟩
  · obtain ⟨l, hl⟩ := h.2.exists_line
    refine (ends_terminate_line hl).mono ?_
    rintro own w ⟨-, rfl⟩
    exact ⟨h.1, h.2.of_cost rfl⟩

variable [Scalar.Ordered α]

omit [Scalar.Signed α] in
/-- **The start** of either search, at a cost that is known. -/
theorem ends_init_sinks (hm : m.Checked) {d : Tensor α} (hfinite : Scalar.isFinite p.cost = true) :
    (solver.init A p).Ends ⟨m.aimed d, t⟩
      (fun report? w => w.solver.isStrong = m.isStrong ∧
        w.solver.Sinks p.cost (Run.started p report?)) fun _ => True := by
  simp only [Scalar.isFinite, Bool.and_eq_true, Bool.not_eq_true'] at hfinite
  obtain ⟨hnumber, hknown⟩ := hfinite
  have hsame : Scalar.le p.cost p.cost = true := Scalar.Ordered.le_refl hnumber
  -- The cost at the start is known and finite, so that it need not be evaluated.
  cases m with
  | backtracking s =>
    obtain ⟨hdecrease, hshrink, hstep⟩ := hm
    refine (ends_init_begun (.anyhow A p d) rfl rfl fun _ _ _ _ => trivial).mono ?_
    rintro report? w ⟨c, v, l, slope, length, hopens, rfl, -, hc, -, hw⟩
    obtain rfl := hc hknown
    rw [hw]
    refine ⟨rfl, Scalar.Ordered.lt_asymm hdecrease, Scalar.Ordered.lt_asymm hshrink, hopens.startsAt,
      ?_, fun _ => ?_⟩
    · show Scalar.lt l.initialStep 0.0 = false
      rw [hopens.line]
      exact Scalar.Ordered.lt_asymm hstep
    · rw [Run.started, ProgressOn.cost_update]
      exact hsame
  | strongWolfe s =>
    obtain ⟨hdecrease, hstep⟩ := hm
    refine (ends_init_begun (.anyhow A p d) rfl rfl fun _ _ _ _ => trivial).mono ?_
    rintro report? w ⟨c, v, l, slope, length, hopens, rfl, -, hc, -, hw⟩
    obtain rfl := hc hknown
    rw [hw]
    refine ⟨rfl, Scalar.Ordered.lt_asymm hdecrease, hopens.startsAt, _, rfl,
      ⟨?_, Scalar.Ordered.lt_irrefl _, Scalar.Ordered.lt_irrefl _, hsame⟩, ?_⟩
    · show Scalar.lt l.initialStep 0.0 = false
      rw [hopens.line]
      exact Scalar.Ordered.lt_asymm hstep
    · rw [Run.started, ProgressOn.cost_update]
      rfl
  | unsuited text => exact hm.elim

/-- **A search that succeeds does not climb.**  From a finite cost, either search finds one that is no
    higher, if it is a search for the strong Wolfe conditions or has met its conditions. -/
theorem ends_run_sinks (A : Setting ω α) (hm : m.Checked) (x way : Tensor α)
    (hfinite : Scalar.isFinite c₀ = true) (gradient? : Option (Tensor α)) :
    (LineSearch.run A x (some way) (some c₀) gradient?).Ends ⟨m, t⟩
      (fun found w => w.solver.isStrong = m.isStrong ∧
        (m.isStrong = true ∨ w.solver.reason = .lineSearchCondition →
          Scalar.le found.cost c₀ = true)) fun _ => True := by
  obtain ⟨-, hcost, -⟩ := Run.seeded_fields x (RunConfig.defaultMaxIters : Int) (some c₀) gradient? none
  rw [ends_run_iff hm.isSome_line?]
  refine ((sinks_contract A m.isStrong c₀).nested (w := ⟨m.aimed way, t⟩) x (some c₀) gradient? none
    fun t => ?_).mono ?_
  · have hinit := ends_init_sinks (A := A) (t := t) (d := way)
      (p := Run.seeded x RunConfig.defaultMaxIters (some c₀) gradient? none) hm (hcost ▸ hfinite)
    rw [hcost] at hinit
    exact hinit
  · rintro found w ⟨⟨hstrong, hsinks⟩, -⟩
    exact ⟨hstrong, fun hend => hsinks.cost_le (hend.imp_left hstrong.trans)⟩

end LineSearch

end Minimization
