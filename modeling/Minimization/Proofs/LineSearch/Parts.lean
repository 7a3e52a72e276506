import Minimization.LineSearch.Basic
import Minimization.Proofs.Contract.Ends
import Minimization.Proofs.LineSearch.Start

namespace Minimization

/-!
# Line searches, part by part

What the functions of the line searches do, said once for each of them.  The proofs about searches go
through these lemmas and do not open the functions again.

* `Line.blank`, `Backtracking.blank`, `StrongWolfe.blank`, `LineSearch.blank` — a line search with its
  settings alone, without anything that a run leaves in it.
* `Line.ends_begin_iff`, `Line.ends_settle_of` — all that the start of a search along a line can come to.
* `Backtracking.ends_trial_of`, `Backtracking.ends_trial_over` — one trial, and an iteration of a search
  that is over; `StrongWolfe.ends_trial_open`, `StrongWolfe.ends_trial_of_done` — the same for the other
  search.
* `StrongWolfe.judge` — one trial for the strong Wolfe conditions, in either phase: a growing bracket
  and a closed one differ in the tests and in what becomes of the bracket, but not in what is evaluated.
* `StrongWolfe.trial_eq` — an iteration makes such a trial, unless the search is over, and then adopts
  the verdict.
* `LineSearch.run_eq` — a search inside a step sets its direction and is run; `LineSearch.exec_run` and
  `LineSearch.ends_run_parts` say what it comes to.
-/

variable {ω α β : Type}

/-! ### Settings -/

/-- The settings of a line, with no direction and nothing searched yet. -/
def Line.blank (l : Line α) : Line α :=
  { l with direction := none, trials := 0, done := none, start := none }

/-- The settings of a search by backtracking. -/
def Backtracking.blank (s : Backtracking α) : Backtracking α :=
  { s with line := s.line.blank, step := s.line.blank.initialStep }

/-- The settings of a search for the strong Wolfe conditions. -/
def StrongWolfe.blank (s : StrongWolfe α) : StrongWolfe α :=
  { s with line := s.line.blank, bracket := none }

/-- The settings of a line search. -/
def LineSearch.blank : LineSearch α → LineSearch α
  | .backtracking s => .backtracking s.blank
  | .strongWolfe s => .strongWolfe s.blank
  | .unsuited text => .unsuited text

/-- A search keeps its settings if its line does. -/
theorem Backtracking.blank_put {s b : Backtracking α} {l : Line α} (hs : s.blank = b)
    (hl : l.blank = b.line) : Backtracking.blank { s with line := l } = b := by
  subst hs
  have hline : l.blank = s.line.blank := hl
  unfold blank
  dsimp only
  rw [hline]

/-- A search keeps its blank when its line does. -/
theorem StrongWolfe.blank_put {s b : StrongWolfe α} {l : Line α} (hs : s.blank = b)
    (hl : l.blank = b.line) : StrongWolfe.blank { s with line := l } = b := by
  subst hs
  have hline : l.blank = s.line.blank := hl
  unfold blank
  dsimp only
  rw [hline]

/-! ### Points of a line -/

namespace Line

/-- The start is known, or there is none. -/
theorem requireStart_eq {l : Line α} {start : LineStart α} (h : l.start = some start) :
    l.requireStart = (.ok start : Except (Failure α) _) := by
  unfold requireStart
  rw [h]

variable [Scalar α]

/-- A point can only be found from a start. -/
theorem start_of_point {l : Line α} {step : α} {x : Tensor α} (h : l.point step = .ok x) :
    ∃ start, l.start = some start := by
  unfold point requireStart at h
  cases hstart : l.start with
  | some start => exact ⟨start, rfl⟩
  | none =>
    rw [hstart] at h
    cases h

/-- A line that has a point has a start. -/
theorem requireStart_of_point {l : Line α} {step : α} {x : Tensor α} (h : l.point step = .ok x) :
    ∃ start, l.start = some start ∧ l.requireStart = (.ok start : Except (Failure α) _) := by
  obtain ⟨start, hstart⟩ := start_of_point h
  exact ⟨start, hstart, requireStart_eq hstart⟩

/-! ### The start of a search -/

/-- The line `l` after a search has begun on it at `x`, where the cost is `c`, the gradient `v` and the
    slope as given.  The search is over at once if the direction has length zero. -/
def settled (l : Line α) (x : Tensor α) (c : α) (v : Tensor α) (slope length : α) : Line α :=
  { l with
    start := some ⟨x, c, v, slope⟩
    trials := 0
    done := if Scalar.eq length 0.0 then some .lineSearchCondition else none }

variable {l : Line α} {x d v : Tensor α} {c : α} {t : Session ω} {E : Failure α → Prop}
  {Q : Report α → Workspace (Line α) ω → Prop}

/-- **The start of a search** computes slope and length of the direction.  It is refused along a
    direction that has a length and does not lead downhill, and begins along any other. -/
theorem ends_settle_of (hdot : ∀ e, x.backend.dot v d = .error e → E e)
    (hnorm : ∀ e, x.backend.norm d = .error e → E e)
    (huphill : ∀ slope length, x.backend.dot v d = .ok slope → x.backend.norm d = .ok length →
      Scalar.eq length 0.0 = false → Scalar.lt slope 0.0 = false → E (.invalid .notDescent))
    (hbegins : ∀ slope length, x.backend.dot v d = .ok slope → x.backend.norm d = .ok length →
      Scalar.eq length 0.0 = true ∨ Scalar.lt slope 0.0 = true →
      Q { param := some x, cost := some c, gradient := some v } ⟨l.settled x c v slope length, t⟩) :
    (settle x d c v).Ends ⟨l, t⟩ Q E := by
  unfold settle
  rw [Action.ends_bind]
  refine Action.ends_ofExcept (fun slope hslope => ?_) hdot
  rw [Action.ends_bind, Workspace.ends_modifySolver, Action.ends_bind]
  refine Action.ends_ofExcept (fun length hlength => ?_) hnorm
  have hbegun := hbegins slope length hslope hlength
  unfold settled at hbegun
  -- A direction of length zero comes first, since its slope is not looked at.
  by_cases hstill : Scalar.eq length 0.0 = true
  · simp only [hstill, if_true, Action.ends_bind, Workspace.ends_modifySolver, Action.ends_pure]
      at hbegun ⊢
    exact hbegun (.inl trivial)
  · rw [Bool.not_eq_true] at hstill
    cases hdown : Scalar.lt slope 0.0 with
    | true =>
      simp only [hstill, hdown, Bool.false_eq_true, if_false] at hbegun ⊢
      exact hbegun (.inr trivial)
    | false =>
      simp only [hstill, Bool.false_eq_true, if_false, Bool.not_false, if_true]
      exact huphill slope length hslope hlength hstill hdown

/-- **A search begins** along the direction of its line, from cost and gradient as they are known or
    evaluated. -/
theorem ends_begin_iff {A : Setting ω α} {p : Progress α} {name : String} :
    (begin name A p).Ends ⟨l, t⟩ Q E ↔
      (Action.ofExcept (l.requireDirection name)).Ends t (fun d t =>
        (Session.knownCost A p).Ends t (fun c t =>
          (Session.knownGradient A p).Ends t
            (fun v t => (settle p.param d c v).Ends ⟨l, t⟩ Q E) E) E) E := by
  rw [begin_eq]
  simp only [Action.ends_bind, Workspace.ends_readSolver, Workspace.ends_onSession,
    Workspace.ends_ofExcept]

/-- A line that has a direction searches along it. -/
theorem ends_begin_iff_of_direction {A : Setting ω α} {p : Progress α} {name : String}
    (hl : l.direction = some d) : (begin name A p).Ends ⟨l, t⟩ Q E ↔
      (Session.knownCost A p).Ends t (fun c t =>
        (Session.knownGradient A p).Ends t
          (fun v t => (settle p.param d c v).Ends ⟨l, t⟩ Q E) E) E := by
  have hdirection : l.requireDirection name = (.ok d : Except (Failure α) _) := by
    unfold requireDirection
    rw [hl]
  rw [ends_begin_iff, hdirection, Action.ends_ofExcept_ok]

end Line

variable [Scalar α] {A : Setting ω α} {p : Progress α} {t : Session ω} {E : Failure α → Prop}

/-! ### Backtracking -/

namespace Backtracking

variable {s : Backtracking α} {Q : Report α → Workspace (Backtracking α) ω → Prop}

/-- The search after a trial that costs `c`. -/
def tried (s : Backtracking α) (start : LineStart α) (c : α) : Backtracking α :=
  if s.sufficient start s.step c then
    { s with line := s.line.countTrial.finish .lineSearchCondition }
  else { s with line := s.line.countTrial, step := s.step * s.shrink }

/-- A trial is no part of the blank. -/
theorem blank_tried (s : Backtracking α) (start : LineStart α) (c : α) :
    (s.tried start c).blank = s.blank := by
  unfold tried
  split
  · rfl
  · rfl

/-- **An iteration** makes a trial, unless the search is over.  Where there is a point there is a start,
    so that it does not matter when the start is asked for. -/
theorem trial_eq (A : Setting ω α) : trial A = (do
    let s ← Workspace.readSolver
    if s.line.done.isSome then return { notes := [("alpha", .number 0.0)] }
    else
      let x ← Action.ofExcept (s.line.point s.step)
      let start ← Action.ofExcept s.line.requireStart
      let cost ← Workspace.onSession (Session.cost A.operator x)
      Workspace.modifySolver fun _ => s.tried start cost
      return { param := some x, cost := some cost, notes := [("alpha", .number s.step)] }) := by
  refine Action.ext fun ⟨s, t⟩ => ?_
  unfold trial
  rw [Action.exec_bind, Action.exec_bind]
  show (ite _ _ _ : Action (Workspace (Backtracking α) ω) α _).exec ⟨s, t⟩ =
    (ite _ _ _ : Action (Workspace (Backtracking α) ω) α _).exec ⟨s, t⟩
  split
  · rfl
  dsimp only
  cases hpoint : (s.line.point s.step : Except (Failure α) _) with
  | error e => rfl
  | ok x =>
    obtain ⟨start, -, hknown⟩ := Line.requireStart_of_point hpoint
    simp only [hknown, Action.ofExcept_ok_bind]
    rw [Action.exec_bind, Action.exec_bind]
    unfold Workspace.onSession
    rw [Action.exec_focus]
    -- The trial is counted and judged in two steps, which the search sees as one.
    rcases (Session.cost A.operator x).exec t with ⟨e | c, u⟩
    · rfl
    · unfold tried
      cases hlow : s.sufficient start s.step c with
      | true =>
        simp only [hlow, if_true]
        rfl
      | false =>
        simp only [hlow, Bool.false_eq_true, if_false]
        rfl

/-- An iteration of a search that is over does nothing. -/
theorem ends_trial_over (hdone : s.line.done ≠ none) : (trial A).Ends ⟨s, t⟩
    (fun report w => report = { notes := [("alpha", .number 0.0)] } ∧ w = ⟨s, t⟩) E := by
  have hsome : s.line.done.isSome = true := Option.isSome_iff_ne_none.2 hdone
  rw [trial_eq]
  simp only [Action.ends_bind, Workspace.ends_readSolver, hsome, if_true, Action.ends_pure]
  exact ⟨trivial, trivial⟩

/-- **One trial** looks at the cost where the step leads, and shows it. -/
theorem ends_trial_of (hdone : s.line.done = none)
    (hpoint : ∀ e, s.line.point s.step = .error e → E e)
    (hcost : ∀ x start, s.line.point s.step = .ok x → s.line.start = some start →
      (Session.cost A.operator x).Ends t (fun c u =>
        Q { param := some x, cost := some c, notes := [("alpha", .number s.step)] }
          ⟨s.tried start c, u⟩) E) : (trial A).Ends ⟨s, t⟩ Q E := by
  rw [trial_eq]
  simp only [Action.ends_bind, Workspace.ends_readSolver, hdone, Option.isSome_none,
    Bool.false_eq_true, if_false]
  refine Action.ends_ofExcept (fun x hx => ?_) hpoint
  obtain ⟨start, hstart, hknown⟩ := Line.requireStart_of_point hx
  rw [hknown, Action.ends_ofExcept_ok, Workspace.ends_onSession]
  exact hcost x start hx hstart

/-- The start of the search is that of its line, with the first step length to be tried next. -/
theorem ends_init_of {Q : Option (Report α) → Workspace (Backtracking α) ω → Prop}
    (hbegin : (Line.begin name A p).Ends ⟨s.line, t⟩ (fun report w =>
      Q (some report) ⟨{ s with line := w.solver, step := w.solver.initialStep }, w.session⟩) E) :
    (solver.init A p).Ends ⟨s, t⟩ Q E := by
  show Action.Ends (_ >>= fun _ => _) _ _ _
  simp only [onLine, Action.ends_bind, Workspace.ends_within]
  exact hbegin

end Backtracking

/-! ### The strong Wolfe conditions -/

namespace StrongWolfe

/-- The step length that is tried next: the middle of a closed bracket. -/
def next (k : Bracket α) : α := if k.closed then 0.5 * (k.low + k.high) else k.step

/-- The search after one more trial has been counted. -/
def counted {α : Type} (s : StrongWolfe α) : StrongWolfe α := { s with line := s.line.countTrial }

/-- The search with another bracket, ended or not. -/
def concluded {α : Type} (s : StrongWolfe α) (k : Bracket α) (done : Option Reason) : StrongWolfe α :=
  { s with bracket := some k, line := { s.line with done := done } }

/-- A closed bracket that has become narrow ends the search. -/
def narrowness (k : Bracket α) : Option Reason :=
  if Scalar.lt (Scalar.abs (k.high - k.low)) bracketTolerance then some .targetTolerance else none

/-- The step is too long: its cost is not low enough, or not below that of the lower end.  A growing
    bracket whose lower end is still the origin is not asked for the latter. -/
def tooLong (s : StrongWolfe α) (start : LineStart α) (k : Bracket α) (cost : α) : Bool :=
  !s.sufficient start (next k) cost ||
    (k.closed || Scalar.lt 0.0 k.low) && Scalar.le k.lowCost cost

/-- What a step that is too long makes of the bracket, and whether that ends the search: the step
    becomes the upper end. -/
def shortened (k : Bracket α) : Bracket α × Option Reason :=
  if k.closed then ({ k with high := next k }, narrowness { k with high := next k })
  else ({ k with high := next k, closed := true }, none)

/-- What any other step makes of it, where the gradient tells the slope `there`: the step becomes the
    lower end. -/
def moved (s : StrongWolfe α) (start : LineStart α) (k : Bracket α) (cost : α)
    (gradient : Tensor α) (there : α) : Bracket α × Option Reason :=
  if s.flat start there then
    (Bracket.moveLow k (next k) cost gradient, some .lineSearchCondition)
  else if k.closed then
    let high := if Scalar.le 0.0 (there * (k.high - k.low)) then k.low else k.high
    let narrower := Bracket.moveLow { k with high := high } (next k) cost gradient
    (narrower, narrowness narrower)
  else if Scalar.le 0.0 there then
    ({ Bracket.moveLow { k with high := k.low } (next k) cost gradient with closed := true }, none)
  else ({ Bracket.moveLow k (next k) cost gradient with step := 2.0 * next k }, none)

/-- One trial in either phase: what it makes of the bracket, and for what reason it ends the search, if
    it does. -/
def judge (A : Setting ω α) (k : Bracket α) :
    Action (Workspace (StrongWolfe α) ω) α (Bracket α × Option Reason) := do
  let (x, cost) ← probe A (next k)
  let s ← Workspace.readSolver
  let start ← Action.ofExcept s.line.requireStart
  if s.tooLong start k cost then return shortened k
  else
    let (gradient, there) ← slopeAt A x
    return s.moved start k cost gradient there

/-- The bracket is replaced, and the search ends if there is a reason to. -/
def adopt {α : Type} (verdict : Bracket α × Option Reason) (s : StrongWolfe α) : StrongWolfe α :=
  s.concluded verdict.1 (verdict.2.or s.line.done)

/-- A closed bracket that has become narrow is a verdict of its own. -/
theorem setBracket_narrow (k : Bracket α) : (do
    setBracket k
    if Scalar.lt (Scalar.abs (k.high - k.low)) bracketTolerance then finish .targetTolerance :
      Action (Workspace (StrongWolfe α) ω) α Unit) =
      Workspace.modifySolver (adopt (k, narrowness k)) := by
  unfold narrowness
  split
  · rfl
  · rfl

/-- In the growing phase a trial is judged at the step length at hand, and the verdict adopted. -/
theorem grow_eq (A : Setting ω α) {k : Bracket α} (h : k.closed = false) :
    grow A k = (do Workspace.modifySolver (adopt (← judge A k))) := by
  have hnext : next k = k.step := by unfold next; rw [h]; rfl
  unfold grow judge tooLong shortened moved
  simp only [bind_assoc, h, hnext, Bool.false_or]
  refine bind_congr fun found => bind_congr fun s => bind_congr fun start => ?_
  split
  · rfl
  · rw [bind_assoc]
    refine bind_congr fun steep => ?_
    simp only [pure_bind]
    split
    · rfl
    · split
      · rfl
      · rfl

/-- In the zoom phase it does the same, in the middle of the bracket. -/
theorem zoom_eq (A : Setting ω α) {k : Bracket α} (h : k.closed = true) :
    zoom A k = (do Workspace.modifySolver (adopt (← judge A k))) := by
  have hnext : next k = 0.5 * (k.low + k.high) := by unfold next; rw [h]; rfl
  unfold zoom judge tooLong shortened moved
  simp only [bind_assoc, h, hnext, Bool.true_or, Bool.true_and, if_true, setBracket_narrow]
  refine bind_congr fun found => bind_congr fun s => bind_congr fun start => ?_
  split
  · rfl
  · rw [bind_assoc]
    refine bind_congr fun steep => ?_
    simp only [pure_bind]
    split
    · rfl
    · rfl

/-- **An iteration** counts a trial, makes it and adopts the verdict, unless the search is over; then it
    reports the lower end. -/
theorem trial_eq (A : Setting ω α) : trial A = (do
    if (← Workspace.readSolver).line.done.isNone then
      Workspace.modifySolver counted
      let k ← Action.ofExcept (← Workspace.readSolver).requireBracket
      Workspace.modifySolver (adopt (← judge A k))
    Action.ofExcept (← Workspace.readSolver).report) := by
  unfold trial
  refine bind_congr fun s => ?_
  split
  · refine bind_congr fun _ => bind_congr fun s => bind_congr fun k => ?_
    split
    · next h => rw [zoom_eq A h, bind_assoc]
    · next h => rw [grow_eq A (by simpa using h), bind_assoc]
  · rfl

variable {s : StrongWolfe α} {k : Bracket α} {Q : Report α → Workspace (StrongWolfe α) ω → Prop}

omit [Scalar α] in
/-- A verdict on a search that is not over. -/
theorem adopt_eq_concluded (hdone : s.line.done = none) (verdict : Bracket α × Option Reason) :
    s.adopt verdict = s.concluded verdict.1 verdict.2 := by
  unfold adopt
  rw [hdone, Option.or_none]

/-- An iteration of a search that is over reports the lower end once more. -/
theorem ends_trial_of_done (hdone : s.line.done ≠ none) (hreport : ∀ e, s.report = .error e → E e) :
    (trial A).Ends ⟨s, t⟩ (fun report w => s.report = .ok report ∧ w = ⟨s, t⟩) E := by
  have hnone : s.line.done.isNone = false :=
    Option.isNone_eq_false_iff.2 (Option.isSome_iff_ne_none.2 hdone)
  rw [trial_eq]
  simp only [Action.ends_bind, Workspace.ends_readSolver, hnone, Bool.false_eq_true, if_false]
  exact Action.ends_ofExcept (fun report h => ⟨h, rfl⟩) hreport

/-- **An iteration of a search that is not over** is one trial, and what is reported is the lower end
    of the bracket that it leaves. -/
theorem ends_trial_open (hdone : s.line.done = none) (hk : s.bracket = some k)
    (hjudge : (judge A k).Ends ⟨s.counted, t⟩ (fun verdict w =>
      (∀ report, (w.solver.adopt verdict).report = .ok report →
        Q report ⟨w.solver.adopt verdict, w.session⟩) ∧
      ∀ e, (w.solver.adopt verdict).report = .error e → E e) E) : (trial A).Ends ⟨s, t⟩ Q E := by
  have hbracket : s.counted.requireBracket = (.ok k : Except (Failure α) _) := by
    unfold requireBracket counted
    rw [hk]
  rw [trial_eq]
  simp only [Action.ends_bind, Workspace.ends_readSolver, hdone, Option.isNone_none, if_true,
    Workspace.ends_modifySolver, hbracket, Action.ends_ofExcept_ok]
  exact hjudge.mono fun verdict w hw => Action.ends_ofExcept hw.1 hw.2

/-- The start of the search is that of its line; both ends of the bracket are there. -/
theorem ends_init_of {Q : Option (Report α) → Workspace (StrongWolfe α) ω → Prop}
    (hbegin : (Line.begin name A p).Ends ⟨s.line, t⟩ (fun report w => ∃ start : LineStart α,
      w.solver.start = some start ∧ Q (some report) ⟨{ s with
        line := w.solver
        bracket := some ⟨false, w.solver.initialStep, 0.0, start.cost, start.gradient, 0.0⟩ },
          w.session⟩) E) : (solver.init A p).Ends ⟨s, t⟩ Q E := by
  show Action.Ends (_ >>= fun _ => _) _ _ _
  simp only [onLine, Action.ends_bind, Workspace.ends_within, Workspace.ends_readSolver]
  refine hbegin.mono ?_
  rintro report w ⟨start, hstart, hQ⟩
  rw [Line.requireStart_eq hstart, Action.ends_ofExcept_ok]
  exact hQ

end StrongWolfe

/-! ### A search inside a step -/

namespace LineSearch

/-- Gives a line search its direction. -/
def aim {α : Type} (direction : Option (Tensor α)) : Action (Workspace (LineSearch α) ω) α Unit := do
  let search ← Action.ofExcept ((← Workspace.readSolver).setDirection direction)
  Workspace.modifySolver fun _ => search

/-- **A search inside a step** is given its direction and then run. -/
theorem run_eq (A : Setting ω α) (x : Tensor α) (direction : Option (Tensor α)) (cost : Option α)
    (gradient : Option (Tensor α)) : run A x direction cost gradient = (do
      aim direction
      Run.nested solver A fun c => Run.seeded x c.maxIters cost gradient none) := by
  unfold run aim
  simp only [bind_assoc]

/-- So it does what that run does, from the memory with the direction. -/
theorem exec_run (x : Tensor α) (direction : Option (Tensor α)) (cost : Option α)
    (gradient : Option (Tensor α)) (s : LineSearch α) (t : Session ω) :
    (run A x direction cost gradient).exec ⟨s, t⟩ =
      match s.setDirection direction with
      | .ok y => (Run.nested solver A fun c => Run.seeded x c.maxIters cost gradient none).exec ⟨y, t⟩
      | .error e => (.error e, ⟨s, t⟩) := by
  have hread : (Workspace.readSolver : Action (Workspace (LineSearch α) ω) α (LineSearch α)).exec
      ⟨s, t⟩ = (.ok s, ⟨s, t⟩) := rfl
  rw [run_eq, aim, Action.exec_bind, Action.exec_bind, hread]
  dsimp only
  rw [Action.exec_bind, Action.exec_ofExcept]
  cases (s.setDirection direction : Except (Failure α) _) with
  | error e => rfl
  | ok y => rfl

/-- All that a search inside a step can come to. -/
theorem ends_run_parts {x : Tensor α} {direction : Option (Tensor α)} {cost : Option α}
    {gradient : Option (Tensor α)} {s : LineSearch α}
    {Q : Progress α → Workspace (LineSearch α) ω → Prop} :
    (run A x direction cost gradient).Ends ⟨s, t⟩ Q E ↔
      (Action.ofExcept (s.setDirection direction)).Ends t (fun y t =>
        (Run.nested solver A fun c => Run.seeded x c.maxIters cost gradient none).Ends ⟨y, t⟩ Q E)
        E := by
  rw [run_eq, aim]
  simp only [Action.ends_bind, Workspace.ends_readSolver, Workspace.ends_ofExcept,
    Workspace.ends_modifySolver]

end LineSearch

end Minimization
