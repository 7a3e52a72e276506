import Mathlib.Tactic.Linarith
import Minimization.Proofs.Contract.Observers
import Minimization.Proofs.LineSearch.Found
import Minimization.Proofs.Scalar.Order

namespace Minimization

/-!
# What a line search decreases

* `Backtracking.make_eq_ok_iff`, `StrongWolfe.make_eq_ok_iff` — what is checked of the settings;
  `Backtracking.sound_of_make`, `StrongWolfe.sound_of_make` — what follows for exact numbers.
* `Downhill` — the slope at the origin of a ray is negative; `ends_run_downhill` says that no search
  returns otherwise, unless the direction has length zero.
* `Searched` — a search that has been carried out, with all that is known of its result.
* `Searched.exists_lower` — a search for the strong Wolfe conditions shows the lower end of its
  bracket.
* `Searched.cost_le`, `Searched.cost_lt` — its cost is at most that at the origin, and strictly
  lower if the conditions are met along a direction of some length.
-/

variable {K ω : Type} [Field K] [LinearOrder K] [Roots K]

/-! ### Checked settings -/

section
variable {α : Type} [Scalar α] {n : Int}

/-- What is checked of the settings of backtracking. -/
theorem Backtracking.make_eq_ok_iff {c q : α} {s : Backtracking α} : make c q n = .ok s ↔
    (Scalar.lt 0.0 c && Scalar.lt c 1.0) = true ∧ (Scalar.lt 0.0 q && Scalar.lt q 1.0) = true ∧
      1 ≤ n ∧ s = ⟨⟨none, 1.0, n.toNat, 0, none, none⟩, c, q, 1.0⟩ := by
  unfold make Line.make
  generalize (Scalar.lt 0.0 c && Scalar.lt c 1.0) = fraction
  generalize (Scalar.lt 0.0 q && Scalar.lt q 1.0) = factor
  -- The checks of the constructor in their order.
  cases fraction with
  | false => exact ⟨nofun, fun h => nomatch h.1⟩
  | true =>
    cases factor with
    | false => exact ⟨nofun, fun h => nomatch h.2.1⟩
    | true =>
      by_cases hn : n < 1
      · rw [if_pos hn]
        exact ⟨nofun, fun h => absurd hn (not_lt.2 h.2.2.1)⟩
      · rw [if_neg hn]
        exact ⟨fun h => ⟨rfl, rfl, not_lt.1 hn, (Except.ok.inj h).symm⟩, fun h => h.2.2.2 ▸ rfl⟩

/-- What is checked of the settings of a search for the strong Wolfe conditions. -/
theorem StrongWolfe.make_eq_ok_iff {c₁ c₂ : α} {s : StrongWolfe α} : make c₁ c₂ n = .ok s ↔
    (Scalar.lt 0.0 c₁ && Scalar.lt c₁ c₂ && Scalar.lt c₂ 1.0) = true ∧
      1 ≤ n ∧ s = ⟨⟨none, 1.0, n.toNat, 0, none, none⟩, c₁, c₂, none⟩ := by
  unfold make Line.make
  generalize (Scalar.lt 0.0 c₁ && Scalar.lt c₁ c₂ && Scalar.lt c₂ 1.0) = constants
  cases constants with
  | false => exact ⟨nofun, fun h => nomatch h.1⟩
  | true =>
    by_cases hn : n < 1
    · rw [if_pos hn]
      exact ⟨nofun, fun h => absurd hn (not_lt.2 h.2.1)⟩
    · rw [if_neg hn]
      exact ⟨fun h => ⟨rfl, not_lt.1 hn, (Except.ok.inj h).symm⟩, fun h => h.2.2 ▸ rfl⟩

end

section
variable [IsStrictOrderedRing K] {n : Int}

/-- Checked settings are sound, and the decrease has to reach a positive fraction of the slope. -/
theorem Backtracking.sound_of_make {c q : Exact K} {s : Backtracking (Exact K)}
    (h : make c q n = .ok s) :
    s.Sound ∧ ∃ fraction, 0 < fraction ∧ s.decrease = .finite fraction := by
  obtain ⟨hc, hq, -, rfl⟩ := make_eq_ok_iff.1 h
  rw [Bool.and_eq_true, Exact.lit_zero] at hc hq
  obtain ⟨fraction, hpos, hfraction⟩ := Exact.exists_of_lt_of_lt hc.1 hc.2
  obtain ⟨factor, hfactor, hshrink⟩ := Exact.exists_of_lt_of_lt hq.1 hq.2
  exact ⟨⟨⟨1, one_pos, Exact.lit_one⟩, factor, hfactor, hshrink⟩, fraction, hpos, hfraction⟩

/-- What the constructor checks makes a search sound. -/
theorem StrongWolfe.sound_of_make {c₁ c₂ : Exact K} {s : StrongWolfe (Exact K)}
    (h : make c₁ c₂ n = .ok s) :
    s.Sound ∧ ∃ fraction, 0 < fraction ∧ s.decrease = .finite fraction := by
  obtain ⟨hc, hn, rfl⟩ := make_eq_ok_iff.1 h
  rw [Bool.and_eq_true, Bool.and_eq_true, Exact.lit_zero] at hc
  obtain ⟨fraction, hpos, hfraction⟩ := Exact.exists_of_lt_of_lt hc.1.1 hc.1.2
  exact ⟨⟨⟨1, one_pos, Exact.lit_one⟩, by dsimp only; omega⟩, fraction, hpos, hfraction⟩

end

/-! ### Sufficient decrease -/

/-- A sufficient decrease is one if the slope is negative, be it infinite. -/
theorem lt_of_sufficient [IsStrictOrderedRing K] {y x slope : Exact K} {c a : K} (hc : 0 < c)
    (ha : 0 < a) (hslope : Scalar.lt slope 0.0 = true) (hy : ∃ v, y = .finite v)
    (hx : ∃ v, x = .finite v) (h : Scalar.le y (x + .finite c * .finite a * slope) = true) :
    Scalar.lt y x = true := by
  obtain ⟨y, rfl⟩ := hy
  obtain ⟨x, rfl⟩ := hx
  rw [Exact.lit_zero] at hslope
  have hpos : 0 < c * a := mul_pos hc ha
  cases slope with
  | finite m =>
    have hm : m < 0 := by simpa using hslope
    have hle : y ≤ x + c * a * m := by simpa using h
    have hneg : c * a * m < 0 := mul_neg_of_pos_of_neg hpos hm
    rw [Exact.lt_finite]
    linarith
  | infinite negative =>
    -- The bound is infinitely low, and no finite cost meets it.
    obtain rfl : negative = true := hslope
    have hbound :
        (.finite x + .finite c * .finite a * .infinite true : Exact K) = .infinite true := by
      show Exact.add _ (Exact.mul (.finite (c * a)) (.infinite true)) = _
      simp [Exact.mul, Exact.add, hpos.ne', hpos.not_gt]
    rw [hbound] at h
    cases h
  | notANumber => cases hslope

/-- The costs along a ray are finite. -/
def Ray.Finite (r : Ray K) (f : Tensor (Exact K) → Exact K) : Prop :=
  ∀ a, ∃ c, f (r.point a) = .finite c

omit [LinearOrder K] [Roots K] in
/-- There is a finite cost at the start. -/
theorem Ray.Finite.start {r : Ray K} {f : Tensor (Exact K) → Exact K} (h : r.Finite f) :
    ∃ c, f r.start = .finite c := by
  rw [← r.point_zero]
  exact h 0

/-- A lower end that is not the origin has a lower cost. -/
theorem StrongWolfe.Lower.cost_lt [IsStrictOrderedRing K] {r : Ray K}
    {f : Tensor (Exact K) → Exact K} {g : Tensor (Exact K) → Tensor (Exact K)}
    {s₀ : StrongWolfe (Exact K)} {c a : K} {slope : Exact K} {k : Bracket (Exact K)}
    (h : Lower r f g s₀ slope a k) (hf : r.Finite f) (hc : s₀.decrease = .finite c) (hpos : 0 < c)
    (hslope : Scalar.lt slope 0.0 = true) (ha : 0 < a) :
    Scalar.lt (f (r.point a)) (f r.start) = true := by
  obtain rfl | hlow := h.decreases
  · exact absurd ha (lt_irrefl 0)
  · rw [sufficient, origin, hc] at hlow
    exact lt_of_sufficient hpos ha hslope (hf a) hf.start hlow

namespace LineSearch

/-- The slope at the origin is negative. -/
def Downhill (r : Ray K) (g : Tensor (Exact K) → Tensor (Exact K)) : Prop :=
  ∃ slope, r.backend.dot (g r.start) r.way = .ok slope ∧ Scalar.lt slope 0.0 = true

variable {r : Ray K} {f : Tensor (Exact K) → Exact K} {g : Tensor (Exact K) → Tensor (Exact K)}
  {m : LineSearch (Exact K)} {E : Failure (Exact K) → Prop} {A : Setting ω (Exact K)}
  {p : Progress (Exact K)} {session : Session ω}

/-! ### Directions -/

/-- Neither search begins along a direction that does not lead downhill. -/
theorem ends_init_downhill (hA : Line.Terrain A r f g E) (hp : Line.Knows r f g p) (hm : m.Sound) :
    (solver.init A p).Ends ⟨m.aimed r.way, session⟩ (fun _ _ => r.Still ∨ Downhill r g)
      fun _ => True := by
  -- Both searches begin with the line that they have in common; how it may fail does not matter.
  have hA' : Line.Terrain A r f g fun _ => True :=
    ⟨fun x host hx => (hA.cost x host hx).expecting fun _ _ => trivial,
      fun x host hx => (hA.gradient x host hx).expecting fun _ _ => trivial, fun _ _ _ => trivial⟩
  have hbegin (name : String) (l : Line (Exact K)) (hl : l.direction = some r.way) :
      (Line.begin name A p).Ends ⟨l, session⟩
        (fun _ w => (∃ start, w.solver.start = some start) ∧ (r.Still ∨ Downhill r g))
        fun _ => True := by
    refine (Line.ends_begin name hA' hp hl fun _ _ => .inr (.inr trivial)).mono ?_
    rintro report w ⟨-, slope, hslope, ⟨hstill, hw⟩ | ⟨-, hlt, hw⟩⟩
    · exact ⟨⟨_, by rw [hw]; rfl⟩, .inl hstill⟩
    · exact ⟨⟨_, by rw [hw]; rfl⟩, .inr ⟨slope, hslope, hlt⟩⟩
  cases m with
  | backtracking s =>
    show (dispatch _ _).Ends _ _ _
    unfold aimed
    rw [ends_dispatch_backtracking]
    exact Backtracking.ends_init_of ((hbegin _ _ rfl).mono fun _ _ hw => hw.2)
  | strongWolfe s =>
    show (dispatch _ _).Ends _ _ _
    unfold aimed
    rw [ends_dispatch_strongWolfe]
    refine StrongWolfe.ends_init_of ((hbegin _ _ rfl).mono ?_)
    rintro report w ⟨⟨start, hstart⟩, hdown⟩
    exact ⟨start, hstart, hdown⟩
  | unsuited text => exact hm.elim

/-- **No search returns from a direction that does not lead downhill.** -/
theorem ends_run_downhill (hA : Line.Terrain A r f g E) (hm : m.Sound) {cost? : Option (Exact K)}
    {gradient? : Option (Tensor (Exact K))} (hcost : ∀ c, cost? = some c → c = f r.start)
    (hgradient : ∀ v, gradient? = some v → v = g r.start) :
    (LineSearch.run A r.start (some r.way) cost? gradient?).Ends ⟨m, session⟩
      (fun _ _ => r.Still ∨ Downhill r g) fun _ => True := by
  by_cases hdown : r.Still ∨ Downhill r g
  · exact (Action.ends_anyhow _ _).mono fun _ _ _ => hdown
  -- Otherwise already the start of the nested run fails, so nothing has to be known of its parts.
  have hp := knows_seeded (g := g) RunConfig.defaultMaxIters none hcost hgradient
  have hcontract : Run.Contract (Run.nestedPlan LineSearch.solver A) (fun _ _ => False)
      (fun _ _ => False) fun _ => True :=
    .anyhow (fun _ h => h) (fun _ h _ => h.elim) fun _ h => h.elim
  have hsearch := hcontract.nested (w := ⟨m.aimed r.way, session⟩) r.start cost? gradient? none
    fun _ => (ends_init_downhill hA hp hm).mono fun _ _ h => hdown h
  rw [ends_run_iff hm.isSome_line?]
  exact hsearch.mono fun _ _ h => h.1.elim

/-! ### A search that has been carried out -/

/-- The search `search` along `r` has been carried out from the cost and the gradient at its origin,
    and ends with `found` and the memory `w`. -/
structure Searched (A : Setting ω (Exact K)) (r : Ray K) (f : Tensor (Exact K) → Exact K)
    (g : Tensor (Exact K) → Tensor (Exact K)) (search : LineSearch (Exact K)) (session : Session ω)
    (found : Progress (Exact K)) (w : Workspace (LineSearch (Exact K)) ω) : Prop where
  executed : (LineSearch.run A r.start (some r.way) (some (f r.start)) (some (g r.start))).exec
    ⟨search, session⟩ = (.ok found, w)
  found : Found r f g search found w.solver
  downhill : r.Still ∨ Downhill r g

/-- A search along a ray, with all that is known of it. -/
theorem ends_run_searched [IsStrictOrderedRing K] (hA : Line.Terrain A r f g E) (hm : m.Sound)
    (hdescent : ∀ slope, r.backend.dot (g r.start) r.way = .ok slope →
      r.Still ∨ Scalar.lt slope 0.0 = true ∨ E (.invalid .notDescent))
    (hnumbers : A.debug = true → (∀ a, Scalar.isNaN (f (r.point a)) = false) ∨
      ∀ name iter, E (.numerical (.undefinedCost name iter))) :
    (LineSearch.run A r.start (some r.way) (some (f r.start)) (some (g r.start))).Ends
      ⟨m, session⟩ (fun found w => Searched A r f g m session found w) E := by
  have hcost (c : Exact K) (hc : some (f r.start) = some c) : c = f r.start :=
    (Option.some.inj hc).symm
  have hgradient (v : Tensor (Exact K)) (hv : some (g r.start) = some v) : v = g r.start :=
    (Option.some.inj hv).symm
  refine ((ends_run hA hm hcost hgradient hdescent hnumbers).executed.also
    (ends_run_downhill hA hm hcost hgradient)).mono ?_
  rintro found w ⟨⟨hexec, hfound⟩, hdown⟩
  exact ⟨hexec, hfound, hdown⟩

namespace Searched

variable {search : LineSearch (Exact K)} {found : Progress (Exact K)}
  {w : Workspace (LineSearch (Exact K)) ω}

/-- The settings of a search last. -/
theorem decrease (h : Searched A r f g search session found w) :
    w.solver.decrease = search.decrease :=
  h.found.stage.decrease.trans (decrease_aimed _ _)

/-- A search for the strong Wolfe conditions stays one, and no other becomes one. -/
theorem isStrong (h : Searched A r f g search session found w) :
    w.solver.isStrong = search.isStrong :=
  h.found.stage.isStrong.trans (isStrong_aimed _ _)

variable {c : K}

/-- A search that has met its conditions gives that as its reason. -/
theorem reason_eq (h : Searched A r f g search session found w)
    (hreason : found.reason = .lineSearchCondition) : w.solver.reason = .lineSearchCondition :=
  own_of_ruling (h.found.reason.symm.trans hreason)

/-- A search for the strong Wolfe conditions shows the lower end of its bracket. -/
theorem exists_lower (h : Searched A r f g search session found w) {s : StrongWolfe (Exact K)}
    (hs : w.solver = .strongWolfe s) {slope : Exact K}
    (hslope : r.backend.dot (g r.start) r.way = .ok slope) :
    ∃ s₀ a k, s₀.decrease = search.decrease ∧ found.param = r.point a ∧
      StrongWolfe.Lower r f g s₀ slope a k ∧
        StrongWolfe.Verdict r f g s₀ slope a k s.line.done := by
  have hstage := h.found.stage
  have hdecrease := decrease_aimed r.way search
  generalize search.aimed r.way = m₀ at hstage hdecrease
  rw [hs] at hstage
  obtain ⟨s₀, rfl, there, a, hthere, hkeeps, -⟩ := hstage
  obtain rfl := Except.ok.inj (hthere.symm.trans hslope)
  obtain ⟨k, -, hlower, -, hverdict⟩ := hkeeps.holds.bracket
  exact ⟨s₀, a, k, hdecrease, hkeeps.param, hlower, hverdict⟩

variable [IsStrictOrderedRing K]

/-- **The conditions are met at a lower cost**, along a direction of some length. -/
theorem cost_lt (h : Searched A r f g search session found w) (hf : r.Finite f)
    (hc : search.decrease = .finite c) (hpos : 0 < c) (hstill : ¬r.Still)
    (hreason : found.reason = .lineSearchCondition) :
    Scalar.lt (f found.param) (f r.start) = true := by
  obtain ⟨slope, hslope, hneg⟩ := h.downhill.resolve_left hstill
  have hown := h.reason_eq hreason
  cases hw : w.solver with
  | backtracking s =>
    have hstage := h.found.stage
    rw [hw] at hstage hown
    obtain ⟨-, there, hthere, hkeeps⟩ := hstage
    obtain rfl := Except.ok.inj (hthere.symm.trans hslope)
    have hverdict := hkeeps.verdict
    -- The step that is shown is the one that the test has accepted.
    rw [done_of_reason hown, decrease_aimed, hc] at hverdict
    cases hverdict with
    | still hstill' => exact absurd hstill' hstill
    | accepted ha hx hlow => exact lt_of_sufficient hpos ha hneg (hx ▸ hf _) hf.start hlow
  | strongWolfe s =>
    obtain ⟨s₀, a, k, hdecrease, hparam, hlower, hverdict⟩ := h.exists_lower hw hslope
    rw [hw] at hown
    rw [done_of_reason hown] at hverdict
    cases hverdict with
    | still hstill' => exact absurd hstill' hstill
    | accepted ha hslope' hflat =>
      -- An accepted step is the lower end, and not the origin.
      rw [hparam]
      exact hlower.cost_lt hf (hdecrease.trans hc) hpos hneg ha
  | unsuited text =>
    have hstage := h.found.stage
    rw [hw] at hstage
    exact hstage.elim

/-- **The cost never increases** in a search for the strong Wolfe conditions, however it ends, and
    in one that has met its conditions. -/
theorem cost_le [LawfulRoots K] (h : Searched A r f g search session found w) (hf : r.Finite f)
    (hc : search.decrease = .finite c) (hpos : 0 < c)
    (hend : search.isStrong = true ∨ found.reason = .lineSearchCondition) :
    Scalar.le (f found.param) (f r.start) = true := by
  obtain ⟨x, hx⟩ := hf.start
  have hsame : Scalar.le (f r.start) (f r.start) = true :=
    Scalar.Ordered.le_refl (by rw [hx, Exact.isNaN_finite])
  by_cases hstill : r.Still
  · -- Along a direction of length zero there is no other point.
    obtain ⟨⟨a, ha⟩, -⟩ := h.found.stage.coherent
    rw [ha, hstill.point]
    exact hsame
  obtain hstrong | hreason := hend
  · obtain ⟨slope, hslope, hneg⟩ := h.downhill.resolve_left hstill
    rw [← h.isStrong] at hstrong
    cases hw : w.solver with
    | backtracking s =>
      rw [hw] at hstrong
      cases hstrong
    | strongWolfe s =>
      obtain ⟨s₀, a, k, hdecrease, hparam, hlower, -⟩ := h.exists_lower hw hslope
      rw [hparam]
      -- The lower end is the origin, or it has decreased sufficiently.
      obtain rfl | ha := hlower.nonneg.eq_or_lt
      · rw [r.point_zero]
        exact hsame
      · exact Scalar.Ordered.le_of_lt (hlower.cost_lt hf (hdecrease.trans hc) hpos hneg ha)
    | unsuited text =>
      rw [hw] at hstrong
      cases hstrong
  · exact Scalar.Ordered.le_of_lt (h.cost_lt hf hc hpos hstill hreason)

end Searched

end LineSearch

end Minimization
