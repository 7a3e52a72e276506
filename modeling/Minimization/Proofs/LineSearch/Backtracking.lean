import Mathlib.Tactic.Positivity
import Minimization.LineSearch.Backtracking
import Minimization.Proofs.Contract.Run
import Minimization.Proofs.LineSearch.Ray
import Minimization.Proofs.Progress.Merge

namespace Minimization.Backtracking

open Minimization

/-!
# What backtracking keeps

* `Sound` — checked settings.
* `Verdict` — why the search is over, if it is: it shows a step length that decreases sufficiently.
* `Keeps` — between two iterations the search knows its ray, and the progress holds a point of the
  ray with the cost there.
* `ends_init`, `ends_trial` — the start and an iteration.
-/

variable {K ω : Type} [Field K] [LinearOrder K] [Roots K]

/-- Checked settings: the first step length and the factor are finite and positive. -/
structure Sound (s : Backtracking (Exact K)) : Prop where
  initialStep : ∃ a, 0 < a ∧ s.line.initialStep = .finite a
  shrink : ∃ q, 0 < q ∧ s.shrink = .finite q

section Memory

variable (r : Ray K) (f : Tensor (Exact K) → Exact K) (g : Tensor (Exact K) → Tensor (Exact K))
  (fraction slope : Exact K)

/-- Why a search that shows `x` is over, if it is: the step length that led to `x` decreases
    sufficiently.  Along a direction of length zero nothing is searched. -/
inductive Verdict (x : Tensor (Exact K)) : Option Reason → Prop
  | searching : Verdict x none
  | still (h : r.Still) : Verdict x (some .lineSearchCondition)
  | accepted {a : K} (ha : 0 < a) (hx : x = r.point a)
      (hlow : Scalar.le (f x) (f r.start + fraction * .finite a * slope) = true) :
      Verdict x (some .lineSearchCondition)

/-- The state of a search along `r` between two iterations. -/
structure Keeps (p : Progress (Exact K)) (s : Backtracking (Exact K)) : Prop where
  sound : s.Sound
  decrease : s.decrease = fraction
  line : s.line.On r (f r.start) (g r.start) slope
  step : ∃ a, 0 < a ∧ s.step = .finite a
  param : ∃ a, p.param = r.point a
  cost : p.cost = f p.param
  verdict : Verdict r f fraction slope p.param s.line.done

end Memory

variable {r : Ray K} {f : Tensor (Exact K) → Exact K} {g : Tensor (Exact K) → Tensor (Exact K)}
  {E : Failure (Exact K) → Prop} {A : Setting ω (Exact K)} {p : Progress (Exact K)}
  {s : Backtracking (Exact K)} {fraction slope : Exact K} {session : Session ω}

/-- The search begins at its origin. -/
theorem ends_init (hA : Line.Terrain A r f g E) (hp : Line.Knows r f g p) (hs : s.Sound)
    (hl : s.line.direction = some r.way)
    (hdescent : ∀ slope, r.backend.dot (g r.start) r.way = .ok slope →
      r.Still ∨ Scalar.lt slope 0.0 = true ∨ E (.invalid .notDescent)) :
    (solver.init A p).Ends ⟨s, session⟩
      (fun report? w => ∃ slope, r.backend.dot (g r.start) r.way = .ok slope ∧
        Keeps r f g s.decrease slope (Run.started p report?) w.solver) E := by
  refine ends_init_of ((Line.ends_begin name hA hp hl hdescent).mono ?_)
  rintro report w ⟨rfl, slope, hslope, hw⟩
  obtain ⟨a, ha, hstep⟩ := hs.initialStep
  have hline : w.solver.On r (f r.start) (g r.start) slope ∧
      w.solver.initialStep = s.line.initialStep ∧
      ∀ x, Verdict r f s.decrease slope x w.solver.done := by
    obtain ⟨hstill, hw⟩ | ⟨-, -, hw⟩ := hw
    · rw [hw]
      exact ⟨(Line.On.begun hl).finish _, rfl, fun _ => .still hstill⟩
    · rw [hw]
      exact ⟨.begun hl, rfl, fun _ => .searching⟩
  refine ⟨slope, hslope, ⟨⟨a, ha, ?_⟩, hs.shrink⟩, rfl, hline.1, ⟨a, ha, ?_⟩, ⟨0, ?_⟩, ?_,
    hline.2.2 _⟩
  · show w.solver.initialStep = _
    rw [hline.2.1, hstep]
  · show w.solver.initialStep = _
    rw [hline.2.1, hstep]
  · simp [Run.started, r.point_zero]
  · simp [Run.started]

variable [IsStrictOrderedRing K]

/-- An iteration tries the next point of the ray, or leaves the point as it is. -/
theorem ends_trial (hA : Line.Terrain A r f g E) (h : Keeps r f g fraction slope p s) :
    (solver.step A p).Ends ⟨s, session⟩
      (fun report w => Keeps r f g fraction slope (p.update report).1.increment w.solver) E := by
  obtain ⟨a, ha₀, ha⟩ := h.step
  obtain ⟨q, hq₀, hq⟩ := h.sound.shrink
  by_cases hdone : s.line.done = none
  · have hpoint : s.line.point s.step = .ok (r.point a) := by rw [ha, h.line.point]
    refine ends_trial_of hdone (fun e he => ?_) fun x start hx hstart => ?_
    · cases hpoint.symm.trans he
    · obtain rfl := Except.ok.inj (hpoint.symm.trans hx)
      obtain rfl := Option.some.inj (h.line.start.symm.trans hstart)
      refine (Session.ends_cost hA.cost (r.isReal_point a)).mono ?_
      rintro c t rfl
      -- Whether the step is accepted or not, the point that was tried is reported.
      unfold tried
      split
      · next hlow =>
        rw [sufficient, h.decrease, ha] at hlow
        exact ⟨⟨h.sound.initialStep, h.sound.shrink⟩, h.decrease, h.line.countTrial.finish _,
          ⟨a, ha₀, ha⟩, ⟨a, by simp⟩, by simp, .accepted ha₀ (by simp) (by simpa using hlow)⟩
      · refine ⟨⟨h.sound.initialStep, h.sound.shrink⟩, h.decrease, h.line.countTrial,
          ⟨a * q, by positivity, by simp [ha, hq]⟩, ⟨a, by simp⟩, by simp, ?_⟩
        show Verdict r f fraction slope _ s.line.done
        rw [hdone]
        exact .searching
  · -- The search is over: nothing is reported but the step length.
    refine (ends_trial_over hdone).mono ?_
    rintro report w ⟨rfl, rfl⟩
    exact ⟨h.sound, h.decrease, h.line, h.step, by simpa using h.param, by simpa using h.cost,
      by simpa using h.verdict⟩

end Minimization.Backtracking
