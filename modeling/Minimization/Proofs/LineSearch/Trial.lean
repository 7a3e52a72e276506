import Minimization.Proofs.LineSearch.Conduct
import Minimization.Proofs.LineSearch.Ray

namespace Minimization.StrongWolfe

open Minimization

/-!
# One trial of a search for the strong Wolfe conditions

Along a ray, an operator whose answers depend on the point alone leaves less to be told.

* `Trial` — all that a trial can do to the bracket, with the outcomes of the tests that led there.
* `Outcome.trial` — the outcome of a trial along the ray is one of these.
* `ends_init_outset`, `ends_init_opened` — the bracket with which a search begins.
* `ends_step` — an iteration of a search that is not over makes a trial.

What a search keeps from trial to trial is shown for the constructors of `Trial`, without another
look at the program.
-/

variable {K ω : Type} [Field K] [LinearOrder K] [Roots K]

section Trial

variable (r : Ray K) (f : Tensor (Exact K) → Exact K) (g : Tensor (Exact K) → Tensor (Exact K))
  (slope : Exact K) (s : StrongWolfe (Exact K))

/-- What a search along `r` knows of its origin. -/
def origin : LineStart (Exact K) := ⟨r.start, f r.start, g r.start, slope⟩

/-- The step length `c` is too long: its cost is not low enough, or not below that of the lower end.
    A growing bracket whose lower end is still the origin is not asked for the latter. -/
def TooLong (k : Bracket (Exact K)) (c : K) : Prop :=
  s.sufficient (origin r f g slope) (.finite c) (f (r.point c)) = false ∨
    (k.closed = true ∨ Scalar.lt 0.0 k.low = true) ∧ Scalar.le k.lowCost (f (r.point c)) = true

/-- A bracket whose lower end has been moved to the step length `c`. -/
def movedTo (k : Bracket (Exact K)) (c : K) : Bracket (Exact K) :=
  Bracket.moveLow k (.finite c) (f (r.point c)) (g (r.point c))

/-- The slope at the step length `c` is `there`, and it is not small enough. -/
structure Steep (c : K) (there : Exact K) : Prop where
  dot : r.backend.dot (g (r.point c)) r.way = .ok there
  notFlat : s.flat (origin r f g slope) there = false

/-- What a trial at the step length `c` makes of the bracket `k`, and for what reason it ends the
    search, if it does. -/
inductive Trial (k : Bracket (Exact K)) (c : K) : Bracket (Exact K) → Option Reason → Prop
  /-- A growing bracket closes: its upper end is the step that is too long. -/
  | closes (hphase : k.closed = false) (hlong : TooLong r f g slope s k c) :
      Trial k c { k with high := .finite c, closed := true } none
  /-- Both conditions hold. -/
  | accepts (hshort : ¬TooLong r f g slope s k c) {there : Exact K}
      (hslope : r.backend.dot (g (r.point c)) r.way = .ok there)
      (hflat : s.flat (origin r f g slope) there = true) :
      Trial k c (movedTo r f g k c) (some .lineSearchCondition)
  /-- A growing bracket closes because the cost rises again; its ends change places. -/
  | turns (hphase : k.closed = false) (hshort : ¬TooLong r f g slope s k c) {there : Exact K}
      (hsteep : Steep r f g slope s c there) (hrising : Scalar.le 0.0 there = true) :
      Trial k c { movedTo r f g { k with high := k.low } c with closed := true } none
  /-- A growing bracket goes on to a step of twice the length. -/
  | advances (hphase : k.closed = false) (hshort : ¬TooLong r f g slope s k c) {there : Exact K}
      (hsteep : Steep r f g slope s c there) (hfalling : Scalar.le 0.0 there = false) :
      Trial k c { movedTo r f g k c with step := 2.0 * .finite c } none
  /-- A closed bracket loses its upper half. -/
  | shortens (hphase : k.closed = true) (hlong : TooLong r f g slope s k c) :
      Trial k c { k with high := .finite c } (narrowness { k with high := .finite c })
  /-- A closed bracket loses its upper half, and its ends change places. -/
  | swaps (hphase : k.closed = true) (hshort : ¬TooLong r f g slope s k c) {there : Exact K}
      (hsteep : Steep r f g slope s c there)
      (hrising : Scalar.le 0.0 (there * (k.high - k.low)) = true) :
      Trial k c (movedTo r f g { k with high := k.low } c)
        (narrowness (movedTo r f g { k with high := k.low } c))
  /-- A closed bracket loses its lower half. -/
  | raises (hphase : k.closed = true) (hshort : ¬TooLong r f g slope s k c) {there : Exact K}
      (hsteep : Steep r f g slope s c there)
      (hfalling : Scalar.le 0.0 (there * (k.high - k.low)) = false) :
      Trial k c (movedTo r f g k c) (narrowness (movedTo r f g k c))

end Trial

variable {r : Ray K} {f : Tensor (Exact K) → Exact K} {g : Tensor (Exact K) → Tensor (Exact K)}
  {E : Failure (Exact K) → Prop} {A : Setting ω (Exact K)} {s : StrongWolfe (Exact K)}
  {slope : Exact K} {session : Session ω} {k : Bracket (Exact K)} {c : K}

/-- Along the ray points exist, and failures are of the expected kind. -/
theorem firm_of_terrain (hA : Line.Terrain A r f g E)
    (hline : s.line.On r (f r.start) (g r.start) slope) (c : K) :
    Line.Firm A s.line (.finite c) E := by
  have hpoint := hline.point c
  refine ⟨fun e he => ?_, fun x hx t => ?_, fun x hx t => ?_⟩
  · rw [hpoint] at he
    cases he
  · obtain rfl := Except.ok.inj (hpoint.symm.trans hx)
    exact (Session.ends_cost hA.cost (r.isReal_point c)).mono fun _ _ _ => trivial
  · obtain rfl := Except.ok.inj (hpoint.symm.trans hx)
    refine (Session.ends_gradient hA.gradient (r.isReal_point c)).mono ?_
    rintro v t rfl e he
    rw [hline.slopeOf] at he
    exact hA.slope c e he

/-- What a trial at a step length measures along the ray. -/
theorem eq_of_taken (hA : Line.Terrain A r f g E)
    (hline : s.line.On r (f r.start) (g r.start) slope) {m : Sample (Exact K)}
    (hm : m.Taken A s.line session.host) (hstep : m.step = .finite c) :
    m = ⟨.finite c, r.point c, f (r.point c)⟩ := by
  obtain ⟨step, x, cost⟩ := m
  obtain rfl : step = .finite c := hstep
  obtain ⟨hpoint, after, hcost⟩ := hm
  obtain rfl := Except.ok.inj ((hline.point c).symm.trans hpoint)
  obtain rfl : cost = f (r.point c) := (hA.cost _ _ (r.isReal_point c)).of_ok hcost
  rfl

/-- Gradient and slope at a step length. -/
theorem Tells.of_terrain (hA : Line.Terrain A r f g E)
    (hline : s.line.On r (f r.start) (g r.start) slope) {m : Sample (Exact K)}
    {v : Tensor (Exact K)} {there : Exact K} (h : Tells A s m v there) (hx : m.point = r.point c) :
    v = g (r.point c) ∧ r.backend.dot (g (r.point c)) r.way = .ok there := by
  have hv := h.gradient
  rw [hx] at hv
  obtain rfl : v = g (r.point c) := hv.of_ends fun host => hA.gradient _ host (r.isReal_point c)
  exact ⟨rfl, hline.slopeOf _ ▸ h.slope⟩

/-- **The outcome of a trial along the ray.** -/
theorem Outcome.trial (hA : Line.Terrain A r f g E)
    (hline : s.line.On r (f r.start) (g r.start) slope) {k' : Bracket (Exact K)}
    {done : Option Reason} {n : Nat} (h : Outcome A s (origin r f g slope) k
      ⟨.finite c, r.point c, f (r.point c)⟩ k' done n) : Trial r f g slope s k c k' done := by
  cases h with
  | closes hphase hlong => exact .closes hphase hlong
  | accepts hshort htells hflat =>
    obtain ⟨rfl, hdot⟩ := htells.of_terrain hA hline rfl
    exact .accepts hshort hdot hflat
  | turns hphase hshort htells hsteep hrising =>
    obtain ⟨rfl, hdot⟩ := htells.of_terrain hA hline rfl
    exact .turns hphase hshort ⟨hdot, hsteep⟩ hrising
  | advances hphase hshort htells hsteep hfalling =>
    obtain ⟨rfl, hdot⟩ := htells.of_terrain hA hline rfl
    exact .advances hphase hshort ⟨hdot, hsteep⟩ hfalling
  | shortens hphase hlong => exact .shortens hphase hlong
  | swaps hphase hshort htells hsteep hrising =>
    obtain ⟨rfl, hdot⟩ := htells.of_terrain hA hline rfl
    exact .swaps hphase hshort ⟨hdot, hsteep⟩ hrising
  | raises hphase hshort htells hsteep hfalling =>
    obtain ⟨rfl, hdot⟩ := htells.of_terrain hA hline rfl
    exact .raises hphase hshort ⟨hdot, hsteep⟩ hfalling

/-! ### Initialisation and iteration -/

variable {p : Progress (Exact K)}

/-- The search with its first bracket, once it has begun with the line `l`. -/
def opened (cost : Exact K) (gradient : Tensor (Exact K)) (s : StrongWolfe (Exact K))
    (l : Line (Exact K)) : StrongWolfe (Exact K) :=
  { s with line := l, bracket := some ⟨false, l.initialStep, 0.0, cost, gradient, 0.0⟩ }

/-- **A search begins** with both ends of its bracket at the origin. -/
theorem ends_init_outset {C : Exact K → Prop} {G : Tensor (Exact K) → Prop}
    (hA : Line.Outset A r p C G E) (hl : s.line.direction = some r.way)
    (hdescent : ∀ v slope, G v → r.backend.dot v r.way = .ok slope →
      r.Still ∨ Scalar.lt slope 0.0 = true ∨ E (.invalid .notDescent)) :
    (solver.init A p).Ends ⟨s, session⟩ (fun report? w => ∃ c v slope, C c ∧ G v ∧
      r.backend.dot v r.way = .ok slope ∧
      report? = some { param := some r.start, cost := some c, gradient := some v } ∧
      (r.Still ∧ w.solver =
          opened c v s ((Line.begun r c v slope s.line).finish .lineSearchCondition) ∨
        ¬r.Still ∧ Scalar.lt slope 0.0 = true ∧
          w.solver = opened c v s (Line.begun r c v slope s.line))) E := by
  refine ends_init_of ((Line.ends_begin_outset name hA hl hdescent).mono ?_)
  rintro report w ⟨c, v, slope, hc, hv, hslope, rfl, hw⟩
  -- Whether the search is over or not, it knows where it starts.
  refine ⟨⟨r.start, c, v, slope⟩, ?_, c, v, slope, hc, hv, hslope, rfl, ?_⟩
  · obtain ⟨-, hw⟩ | ⟨-, -, hw⟩ := hw <;> rw [hw] <;> rfl
  · obtain ⟨hstill, hw⟩ | ⟨hstill, hlt, hw⟩ := hw
    · rw [hw]
      exact .inl ⟨hstill, rfl⟩
    · rw [hw]
      exact .inr ⟨hstill, hlt, rfl⟩

/-- The search begins with cost and gradient of the operator at the origin. -/
theorem ends_init_opened (hA : Line.Terrain A r f g E) (hp : Line.Knows r f g p)
    (hl : s.line.direction = some r.way)
    (hdescent : ∀ slope, r.backend.dot (g r.start) r.way = .ok slope →
      r.Still ∨ Scalar.lt slope 0.0 = true ∨ E (.invalid .notDescent)) :
    (solver.init A p).Ends ⟨s, session⟩
      (fun report? w => report? = some { param := some r.start, cost := some (f r.start)
                                         gradient := some (g r.start) } ∧
        ∃ slope, r.backend.dot (g r.start) r.way = .ok slope ∧
          (r.Still ∧ w.solver = opened (f r.start) (g r.start) s
              ((Line.begun r (f r.start) (g r.start) slope s.line).finish .lineSearchCondition) ∨
            ¬r.Still ∧ w.solver = opened (f r.start) (g r.start) s
              (Line.begun r (f r.start) (g r.start) slope s.line))) E := by
  refine (ends_init_outset (hA.outset hp) hl ?_).mono ?_
  · rintro v slope rfl
    exact hdescent slope
  · rintro report? w ⟨c, v, slope, rfl, rfl, hslope, hreport, hw⟩
    exact ⟨hreport, slope, hslope, hw.imp_right fun h => ⟨h.1, h.2.2⟩⟩

/-- **An iteration** of a search that is not over makes one trial and reports the lower end of the
    bracket that it leaves. -/
theorem ends_step (hA : Line.Terrain A r f g E) (hline : s.line.On r (f r.start) (g r.start) slope)
    (hdone : s.line.done = none) (hk : s.bracket = some k) (hnext : next k = .finite c)
    (hreport : ∀ k' done e, Trial r f g slope s.counted k c k' done →
      (s.counted.concluded k' done).report = .error e → E e) :
    (solver.step A p).Ends ⟨s, session⟩
      (fun report w => ∃ k' done, Trial r f g slope s.counted k c k' done ∧
        w.solver = s.counted.concluded k' done ∧ w.solver.report = .ok report) E := by
  have hon : s.counted.line.On r (f r.start) (g r.start) slope := hline.countTrial
  have hfirm : Line.Firm A s.line (next k) E := hnext ▸ firm_of_terrain hA hline c
  -- Whatever the trial leaves, it has an outcome along the ray.
  have hleft {m : Sample (Exact K)} {w : Workspace (StrongWolfe (Exact K)) ω}
      (hm : m.step = next k) (hw : Leaves A s.counted k m session w) : ∃ k' done,
      Trial r f g slope s.counted k c k' done ∧ w.solver = s.counted.concluded k' done := by
    obtain ⟨start, k', done, n, hstart, htaken, houtcome, hw, -⟩ := hw
    obtain rfl := eq_of_taken hA hon htaken (hm.trans hnext)
    obtain rfl := Option.some.inj (hstart.symm.trans hon.start)
    exact ⟨k', done, houtcome.trial hA hon, hw⟩
  refine (ends_trial_outcome hfirm hdone hk fun m w e hm hw he => ?_).mono ?_
  · obtain ⟨k', done, htrial, hw⟩ := hleft hm hw
    exact hreport k' done e htrial (hw ▸ he)
  · rintro report w ⟨m, hm, hw, hok⟩
    obtain ⟨k', done, htrial, hw⟩ := hleft hm hw
    exact ⟨k', done, htrial, hw, hok⟩

end Minimization.StrongWolfe
