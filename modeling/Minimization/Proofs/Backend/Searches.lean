import Minimization.Proofs.Backend.Carried
import Minimization.Proofs.LineSearch.Parts

namespace Minimization

/-!
# Line searches on two backends

A search along a line through vectors tries the same step lengths on both backends.

* `Paired.knownCost`, `Paired.knownGradient`, `Paired.knownHessian` — what is taken over or evaluated.
* `Line.kindred_point`, `Line.kindred_slopeOf` — points and slopes along a line; `Line.parallel_begin` —
  the start of a search.
* `Backtracking.carries`, `StrongWolfe.carries`, `LineSearch.carries` — the searches.
-/

variable {ω ω' α β γ : Type} {b b' : Backend} {n : Nat} {M : ω → ω' → Prop} {A : Setting ω α}
  {A' : Setting ω' α} {s : Session ω} {t : Session ω'} {p : Progress α}

/-! ### What is known -/

namespace Paired

variable [Scalar α]

/-- A cost is taken over on both sides or evaluated on both. -/
theorem knownCost (h : Paired M s t) (hA : A.operator.Carries b b' n M A'.operator)
    (hp : p.Shaped b n) :
    Parallel (fun c c' s t => c = c' ∧ Paired M s t) (Paired M) ((Session.knownCost A p).exec s)
      ((Session.knownCost A' (p.onBackend b')).exec t) := by
  unfold Session.knownCost
  rw [ProgressOn.cost_onBackend]
  split
  · exact h.cost hA hp.param
  · exact .pure ⟨rfl, h⟩

omit [Scalar α] in
/-- So is a gradient. -/
theorem knownGradient (h : Paired M s t) (hA : A.operator.Carries b b' n M A'.operator)
    (hp : p.Shaped b n) :
    Parallel (fun g g' s t => Vectors b b' n g g' ∧ Paired M s t) (Paired M)
      ((Session.knownGradient A p).exec s) ((Session.knownGradient A' (p.onBackend b')).exec t) := by
  unfold Session.knownGradient
  rw [ProgressOn.gradient_onBackend]
  cases hgradient : p.gradient with
  | none => exact h.gradient hA hp.param
  | some g => exact .pure ⟨⟨hp.gradient g hgradient, rfl⟩, h⟩

omit [Scalar α] in
/-- So is a Hessian. -/
theorem knownHessian (h : Paired M s t) (hA : A.operator.Carries b b' n M A'.operator)
    (hp : p.Shaped b n) :
    Parallel (fun m m' s t => Matrices b b' n m m' ∧ Paired M s t) (Paired M)
      ((Session.knownHessian A p).exec s) ((Session.knownHessian A' (p.onBackend b')).exec t) := by
  unfold Session.knownHessian
  rw [ProgressOn.hessian_onBackend]
  cases hhessian : p.hessian with
  | none => exact h.hessian hA hp.param
  | some m => exact .pure ⟨⟨hp.hessian m hhessian, rfl⟩, h⟩

end Paired

/-! ### Lines -/

namespace Line

variable {l : Line α} {x d g : Tensor α}

/-- A line with a direction can start anywhere. -/
theorem Shaped.begun (hl : l.Shaped b n) (haimed : l.direction.isSome) {start : LineStart α}
    (hstart : start.Shaped b n) :
    Line.Aimed b n { l with start := some start, trials := 0, done := none } where
  direction := hl
  start := holds_of_some hstart
  aimed _ := haimed

/-- To count a trial does not change where a line goes. -/
theorem Aimed.countTrial (hl : l.Aimed b n) : l.countTrial.Aimed b n :=
  ⟨hl.direction, hl.start, hl.aimed⟩

/-- Neither does the end of a search. -/
theorem Aimed.finish (hl : l.Aimed b n) (reason : Reason) : (l.finish reason).Aimed b n :=
  ⟨hl.direction, hl.start, hl.aimed⟩

/-- The direction is set on both sides or missing on both. -/
theorem kindred_requireDirection (hl : l.Shaped b n) (name : String) :
    Kindred (fun d d' => Vectors b b' n d d' ∧ l.direction.isSome) (l.requireDirection name)
      ((l.onBackend b').requireDirection name) := by
  unfold requireDirection
  rw [direction_onBackend]
  cases hdirection : l.direction with
  | none => exact .error rfl
  | some d => exact .ok ⟨⟨hl d hdirection, rfl⟩, rfl⟩

/-- So is the start. -/
theorem kindred_requireStart (hl : l.Aimed b n) :
    Kindred (fun s s' => Carried (LineStart.Shaped b n) (LineStart.onBackend b') s s' ∧ l.start = some s)
      l.requireStart (l.onBackend b').requireStart := by
  unfold requireStart
  rw [start_onBackend]
  cases hstart : l.start with
  | none => exact .error rfl
  | some s => exact .ok ⟨⟨hl.start s hstart, rfl⟩, rfl⟩

/-- A line that has started has a direction. -/
theorem Aimed.exists_direction (hl : l.Aimed b n) (b' : Backend) {start : LineStart α}
    (h : l.start = some start) :
    ∃ d, l.direction = some d ∧ (l.onBackend b').direction = some (d.onBackend b') ∧
      d.Shaped b [n] := by
  obtain ⟨d, hd⟩ := Option.isSome_iff_exists.1 (hl.aimed (by rw [h]; rfl))
  refine ⟨d, hd, ?_, hl.direction d hd⟩
  show l.direction.map _ = _
  rw [hd]
  rfl

variable [Scalar α]

/-- The points along a line. -/
theorem kindred_point (hl : l.Aimed b n) (step : α) :
    Kindred (Vectors b b' n) (l.point step) ((l.onBackend b').point step) := by
  unfold point
  refine .bind (kindred_requireStart hl) ?_
  rintro start _ ⟨⟨hstart, rfl⟩, hsome⟩
  obtain ⟨d, hd, hd', hshaped⟩ := hl.exists_direction b' hsome
  rw [hd, hd', LineStart.origin_onBackend, hstart.origin.backend, Tensor.backend_onBackend]
  exact Backend.kindred_scaledAdd hstart.origin step hshaped

/-- The slopes along a line. -/
theorem kindred_slopeOf (hl : l.Aimed b n) (hg : g.Shaped b [n]) :
    Kindred (· = ·) (l.slopeOf g) ((l.onBackend b').slopeOf (g.onBackend b')) := by
  unfold slopeOf
  refine .bind (kindred_requireStart hl) ?_
  rintro start _ ⟨⟨hstart, rfl⟩, hsome⟩
  obtain ⟨d, hd, hd', hshaped⟩ := hl.exists_direction b' hsome
  rw [hd, hd', LineStart.origin_onBackend, hstart.origin.backend, Tensor.backend_onBackend]
  exact Backend.kindred_dot hg hshaped

/-- A search begins with the same slope and the same length, so that it is refused on both sides or on
    neither. -/
theorem parallel_settle (hl : l.Shaped b n) (haimed : l.direction.isSome) (hst : Paired M s t)
    (hx : x.Shaped b [n]) (hd : d.Shaped b [n]) (cost : α) (hg : g.Shaped b [n]) :
    Parallel (Workspace.Reporting b b' n M (Carried (Line.Aimed b n) (Line.onBackend b')))
      (Workspace.onSessions (Paired M)) ((settle x d cost g).exec ⟨l, s⟩)
      ((settle (x.onBackend b') (d.onBackend b') cost (g.onBackend b')).exec ⟨l.onBackend b', t⟩) := by
  unfold settle
  rw [hx.backend, Tensor.backend_onBackend]
  refine .ofExcept_bind (Backend.kindred_dot hg hd) hst ?_
  rintro slope _ rfl
  refine .modifying ?_
  refine .ofExcept_bind (Backend.kindred_norm hd.backend) hst ?_
  rintro length _ rfl
  -- The start is kept in the line, and reported as it is kept.
  have hstart : LineStart.Shaped b n ⟨x, cost, g, slope⟩ := ⟨hx, hg⟩
  have hbegun := hl.begun haimed hstart
  have hreport : ReportOn.Shaped b n
      ({ param := some x, cost := some cost, gradient := some g } : Report α) :=
    ⟨holds_of_some hx, holds_of_some hg, nofun⟩
  dsimp only
  split
  · exact .modifying (.pure ⟨⟨hreport, rfl⟩, ⟨hbegun.finish _, rfl⟩, hst⟩)
  · split
    · exact .throw_bind _ hst
    · exact .pure ⟨⟨hreport, rfl⟩, ⟨hbegun, rfl⟩, hst⟩

/-- **The start of a search.** -/
theorem parallel_begin (hA : A.operator.Carries b b' n M A'.operator) (name : String)
    (hp : p.Shaped b n) (hl : l.Shaped b n) (hst : Paired M s t) :
    Parallel (Workspace.Reporting b b' n M (Carried (Line.Aimed b n) (Line.onBackend b')))
      (Workspace.onSessions (Paired M)) ((Line.begin name A p).exec ⟨l, s⟩)
      ((Line.begin name A' (p.onBackend b')).exec ⟨l.onBackend b', t⟩) := by
  rw [Line.begin_eq, Line.begin_eq]
  refine .reading ?_
  refine .ofExcept_bind (kindred_requireDirection hl name) hst ?_
  rintro d _ ⟨⟨hd, rfl⟩, haimed⟩
  refine .onSession_bind (hst.knownCost hA hp) ?_
  rintro cost _ s t rfl hst
  refine .onSession_bind (hst.knownGradient hA hp) ?_
  rintro g _ s t ⟨hg, rfl⟩ hst
  exact parallel_settle hl haimed hst hp.param hd cost hg

end Line

/-! ### Backtracking -/

variable [Scalar α]

omit [Scalar α] in
/-- The report of a trial. -/
theorem ReportOn.Shaped.trial {x : Tensor α} {cost? : Option α} {notes : Notes α} (hx : x.Shaped b [n]) :
    ReportOn.Shaped b n ({ param := some x, cost := cost?, notes := notes } : Report α) :=
  ⟨holds_of_some hx, nofun, nofun⟩

/-- What a trial makes of a search. -/
theorem Backtracking.carried_tried {k : Backtracking α} (hk : k.Aimed b n) (start : LineStart α)
    (c : α) : Carried (Backtracking.Aimed b n) (Backtracking.onBackend b') (k.tried start c)
      ((k.onBackend b').tried (start.onBackend b') c) := by
  have hline : k.line.Aimed b n := hk
  unfold tried
  rw [step_onBackend, sufficient_onBackend]
  split
  · exact ⟨hline.countTrial.finish _, rfl⟩
  · exact ⟨hline.countTrial, rfl⟩

/-- **One trial** looks at the same point. -/
theorem Backtracking.parallel_trial (hA : A.operator.Carries b b' n M A'.operator)
    {k : Backtracking α} (hk : k.Aimed b n) (hst : Paired M s t) :
    Parallel (Workspace.Reporting b b' n M (Carried (Backtracking.Aimed b n) (Backtracking.onBackend b')))
      (Workspace.onSessions (Paired M)) ((trial A).exec ⟨k, s⟩)
      ((trial A').exec ⟨k.onBackend b', t⟩) := by
  rw [trial_eq, trial_eq]
  -- The memory is read once; a search that is over makes no trial.
  refine .reading ?_
  rw [line_onBackend, Line.done_onBackend]
  split
  · exact .pure ⟨⟨⟨nofun, nofun, nofun⟩, rfl⟩, ⟨hk, rfl⟩, hst⟩
  · refine .ofExcept_bind (Line.kindred_point hk k.step) hst ?_
    rintro candidate _ ⟨hcandidate, rfl⟩
    refine .ofExcept_bind (Line.kindred_requireStart hk) hst ?_
    rintro start _ ⟨⟨-, rfl⟩, -⟩
    refine .onSession_bind (hst.cost hA hcandidate) ?_
    rintro cost _ s t rfl hst
    exact .modifying (.pure ⟨⟨.trial hcandidate, rfl⟩, carried_tried hk start cost, hst⟩)

/-- Backtracking tries the same step lengths. -/
theorem Backtracking.carries (hA : A.operator.Carries b b' n M A'.operator) :
    Backtracking.solver.Carries b b' n M (Carried (fun k => k.line.Shaped b n) (Backtracking.onBackend b'))
      (Carried (Backtracking.Aimed b n) (Backtracking.onBackend b')) A A' Backtracking.solver where
  ready h := ⟨h.1.direction, h.2⟩
  init := by
    rintro p ⟨k, s⟩ ⟨_, t⟩ hp ⟨⟨hk, rfl⟩, hst⟩
    -- The search begins on its line, before the rest of its memory is set.
    have hbegin : Parallel
        (Workspace.Reporting b b' n M (Carried (Backtracking.Aimed b n) (Backtracking.onBackend b')))
        (Workspace.onSessions (Paired M)) ((onLine (Line.begin name A p)).exec ⟨k, s⟩)
        ((onLine (Line.begin name A' (p.onBackend b'))).exec ⟨k.onBackend b', t⟩) := by
      refine .within (Line.parallel_begin hA name hp hk hst) ?_
      rintro r _ ⟨l, s⟩ ⟨_, t⟩ ⟨hr, ⟨hl, rfl⟩, hst⟩
      exact ⟨hr, ⟨hl, rfl⟩, hst⟩
    refine .bind hbegin ?_
    rintro r _ ⟨k, s⟩ ⟨_, t⟩ ⟨⟨hr, rfl⟩, ⟨hk, rfl⟩, hst⟩
    exact .modifying (.pure ⟨⟨holds_of_some hr, rfl⟩, ⟨hk, rfl⟩, hst⟩)
  step := by
    rintro p ⟨k, s⟩ ⟨_, t⟩ hp ⟨⟨hk, rfl⟩, hst⟩
    exact parallel_trial hA hk hst
  terminate := by
    rintro p ⟨k, s⟩ ⟨_, t⟩ hp ⟨⟨hk, rfl⟩, hst⟩
    exact .pure ⟨rfl, ⟨hk, rfl⟩, hst⟩

/-! ### The strong Wolfe conditions -/

namespace StrongWolfe

variable {k : StrongWolfe α} {x : Tensor α} {bracket : Bracket α}

/-- A point or a gradient with a number. -/
abbrev Measured (b b' : Backend) (n : Nat) : Tensor α × α → Tensor α × α → Prop :=
  Carried (fun m => m.1.Shaped b [n]) fun m => (m.1.onBackend b', m.2)

/-- The searches have come equally far. -/
abbrev Searching (b b' : Backend) (n : Nat) (M : ω → ω' → Prop) :
    Workspace (StrongWolfe α) ω → Workspace (StrongWolfe α) ω' → Prop :=
  Workspace.Paired M (Carried (Aimed b n) (onBackend b'))

omit [Scalar α] in
/-- A search keeps the shape of its bracket when its line changes. -/
theorem Aimed.setLine (hk : k.Aimed b n) {l : Line α} (hl : l.Aimed b n) :
    StrongWolfe.Aimed b n { k with line := l } :=
  ⟨hl, hk.bracket⟩

omit [Scalar α] in
/-- The bracket is there on both sides or missing on both. -/
theorem kindred_requireBracket (hk : k.Aimed b n) :
    Kindred (Carried (fun bracket => bracket.lowGradient.Shaped b [n]) (Bracket.onBackend b'))
      k.requireBracket (k.onBackend b').requireBracket := by
  unfold requireBracket
  rw [bracket_onBackend]
  cases hbracket : k.bracket with
  | none => exact .error rfl
  | some bracket => exact .ok ⟨hk.bracket bracket hbracket, rfl⟩

/-- What is reported of the lower end. -/
theorem kindred_report (hk : k.Aimed b n) :
    Kindred (Reports b b' n) k.report (k.onBackend b').report := by
  unfold report
  refine .bind (kindred_requireBracket hk) ?_
  rintro bracket _ ⟨hbracket, rfl⟩
  refine .bind (Line.kindred_point hk.line bracket.low) ?_
  rintro x _ ⟨hx, rfl⟩
  exact .pure ⟨⟨holds_of_some hx, holds_of_some hbracket, nofun⟩, rfl⟩

/-- Brackets that say the same, and the same reason to stop. -/
abbrev Verdicts (b b' : Backend) (n : Nat) :
    Bracket α × Option Reason → Bracket α × Option Reason → Prop :=
  Carried (fun v => v.1.lowGradient.Shaped b [n]) fun v => (v.1.onBackend b', v.2)

/-- A step that is too long becomes the upper end on both sides. -/
theorem verdicts_shortened (hbracket : bracket.lowGradient.Shaped b [n]) :
    Verdicts b b' n (shortened bracket) (shortened (bracket.onBackend b')) := by
  unfold shortened
  cases hclosed : bracket.closed with
  | true =>
    rw [Bracket.closed_onBackend, hclosed]
    exact ⟨hbracket, rfl⟩
  | false =>
    rw [Bracket.closed_onBackend, hclosed]
    exact ⟨hbracket, rfl⟩

/-- Any other step becomes the lower end on both sides, since slope and ends are the same numbers. -/
theorem verdicts_moved (k : StrongWolfe α) (start : LineStart α) (bracket : Bracket α) (cost : α)
    {g : Tensor α} (hg : g.Shaped b [n]) (there : α) : Verdicts b b' n
      (k.moved start bracket cost g there) ((k.onBackend b').moved (start.onBackend b')
        (bracket.onBackend b') cost (g.onBackend b') there) := by
  unfold moved
  rw [flat_onBackend, Bracket.closed_onBackend, Bracket.high_onBackend, Bracket.low_onBackend]
  split
  · exact ⟨hg, rfl⟩
  · split
    · exact ⟨hg, rfl⟩
    · split
      · exact ⟨hg, rfl⟩
      · exact ⟨hg, rfl⟩

omit [Scalar α] in
/-- A search that adopts such a verdict keeps its shape. -/
theorem Aimed.adopt (hk : k.Aimed b n) {verdict : Bracket α × Option Reason}
    (hverdict : verdict.1.lowGradient.Shaped b [n]) : (k.adopt verdict).Aimed b n :=
  ⟨⟨hk.line.direction, hk.line.start, hk.line.aimed⟩, holds_of_some hverdict⟩

/-- The same point is tried. -/
theorem parallel_probe (hA : A.operator.Carries b b' n M A'.operator) (step : α)
    (hk : k.Aimed b n) (hst : Paired M s t) :
    Parallel (fun m m' w v => Measured b b' n m m' ∧ Searching b b' n M w v)
      (Workspace.onSessions (Paired M)) ((probe A step).exec ⟨k, s⟩)
      ((probe A' step).exec ⟨k.onBackend b', t⟩) := by
  unfold probe
  refine .reading ?_
  refine .ofExcept_bind (Line.kindred_point hk.line step) hst ?_
  rintro candidate _ ⟨hcandidate, rfl⟩
  refine .onSession_bind (hst.cost hA hcandidate) ?_
  rintro cost _ s t rfl hst
  exact .pure ⟨⟨hcandidate, rfl⟩, ⟨hk, rfl⟩, hst⟩

/-- The same slope is found there. -/
theorem parallel_slopeAt (hA : A.operator.Carries b b' n M A'.operator) (hx : x.Shaped b [n])
    (hk : k.Aimed b n) (hst : Paired M s t) :
    Parallel (fun m m' w v => Measured b b' n m m' ∧ Searching b b' n M w v)
      (Workspace.onSessions (Paired M)) ((slopeAt A x).exec ⟨k, s⟩)
      ((slopeAt A' (x.onBackend b')).exec ⟨k.onBackend b', t⟩) := by
  unfold slopeAt
  refine .onSession_bind (hst.gradient hA hx) ?_
  rintro g _ s t ⟨hg, rfl⟩ hst
  refine .reading ?_
  refine .ofExcept_bind (Line.kindred_slopeOf hk.line hg) hst ?_
  rintro slope _ rfl
  exact .pure ⟨⟨hg, rfl⟩, ⟨hk, rfl⟩, hst⟩

/-- **One trial** comes to the same verdict. -/
theorem parallel_judge (hA : A.operator.Carries b b' n M A'.operator)
    (hbracket : bracket.lowGradient.Shaped b [n]) (hk : k.Aimed b n) (hst : Paired M s t) :
    Parallel (fun v v' w u => Verdicts b b' n v v' ∧ Searching b b' n M w u)
      (Workspace.onSessions (Paired M)) ((judge A bracket).exec ⟨k, s⟩)
      ((judge A' (bracket.onBackend b')).exec ⟨k.onBackend b', t⟩) := by
  unfold judge
  refine .bind (parallel_probe hA (next bracket) hk hst) ?_
  rintro ⟨candidate, cost⟩ _ ⟨k, s⟩ ⟨_, t⟩ ⟨⟨hcandidate, rfl⟩, ⟨hk, rfl⟩, hst⟩
  refine .reading ?_
  refine .ofExcept_bind (Line.kindred_requireStart hk.line) hst ?_
  rintro start _ ⟨⟨-, rfl⟩, -⟩
  -- The condition looks at numbers only, so the answer is the same.
  have hlong : (k.onBackend b').tooLong (start.onBackend b') (bracket.onBackend b') cost =
      k.tooLong start bracket cost := rfl
  dsimp only
  rw [hlong]
  split
  · exact .pure ⟨verdicts_shortened hbracket, ⟨hk, rfl⟩, hst⟩
  · refine .bind (parallel_slopeAt hA hcandidate hk hst) ?_
    rintro ⟨g, slope⟩ _ ⟨k', s⟩ ⟨_, t⟩ ⟨⟨hg, rfl⟩, ⟨hk', rfl⟩, hst⟩
    exact .pure ⟨verdicts_moved k start bracket cost hg slope, ⟨hk', rfl⟩, hst⟩

/-- **An iteration** counts a trial, makes it and reports the same lower end. -/
theorem parallel_trial (hA : A.operator.Carries b b' n M A'.operator) (hk : k.Aimed b n)
    (hst : Paired M s t) :
    Parallel (Workspace.Reporting b b' n M (Carried (Aimed b n) (onBackend b')))
      (Workspace.onSessions (Paired M)) ((trial A).exec ⟨k, s⟩)
      ((trial A').exec ⟨k.onBackend b', t⟩) := by
  -- Whether there has been a trial or not, the lower end is reported.
  have hreport {w : Workspace (StrongWolfe α) ω} {v : Workspace (StrongWolfe α) ω'}
      (h : Searching b b' n M w v) :
      Parallel (Workspace.Reporting b b' n M (Carried (Aimed b n) (onBackend b')))
        (Workspace.onSessions (Paired M))
        ((do Action.ofExcept ((← Workspace.readSolver).report) :
          Action (Workspace (StrongWolfe α) ω) α (Report α)).exec w)
        ((do Action.ofExcept ((← Workspace.readSolver).report) :
          Action (Workspace (StrongWolfe α) ω') α (Report α)).exec v) := by
    obtain ⟨k, s⟩ := w
    obtain ⟨_, t⟩ := v
    obtain ⟨⟨hk, rfl⟩, hst⟩ := h
    refine .reading ?_
    exact .ofExcept (kindred_report hk) (fun _ _ hr => ⟨hr, ⟨hk, rfl⟩, hst⟩) hst
  rw [trial_eq, trial_eq]
  refine .reading ?_
  rw [line_onBackend, Line.done_onBackend]
  dsimp only
  split
  · refine .modifying (.reading ?_)
    have hcounted : k.counted.Aimed b n := hk.setLine hk.line.countTrial
    refine .ofExcept_bind (kindred_requireBracket hcounted) hst ?_
    rintro bracket _ ⟨hbracket, rfl⟩
    refine .bind (parallel_judge hA hbracket hcounted hst) ?_
    rintro verdict _ ⟨k, s⟩ ⟨_, t⟩ ⟨⟨hverdict, rfl⟩, ⟨hk, rfl⟩, hst⟩
    exact .modifying (hreport ⟨⟨hk.adopt hverdict, rfl⟩, hst⟩)
  · exact hreport ⟨⟨hk, rfl⟩, hst⟩

/-- The search for the strong Wolfe conditions. -/
theorem carries (hA : A.operator.Carries b b' n M A'.operator) :
    StrongWolfe.solver.Carries b b' n M (Carried (fun k => k.line.Shaped b n) (onBackend b'))
      (Carried (Aimed b n) (onBackend b')) A A' StrongWolfe.solver where
  ready h := ⟨h.1.line.direction, h.2⟩
  init := by
    rintro p ⟨k, s⟩ ⟨_, t⟩ hp ⟨⟨hk, rfl⟩, hst⟩
    -- The bracket of an earlier run is still there at this point.
    have hbegin : Parallel
        (Workspace.Reporting b b' n M (Carried (fun k => k.line.Aimed b n) (onBackend b')))
        (Workspace.onSessions (Paired M)) ((onLine (Line.begin name A p)).exec ⟨k, s⟩)
        ((onLine (Line.begin name A' (p.onBackend b'))).exec ⟨k.onBackend b', t⟩) := by
      refine .within (Line.parallel_begin hA name hp hk hst) ?_
      rintro r _ ⟨l, s⟩ ⟨_, t⟩ ⟨hr, ⟨hl, rfl⟩, hst⟩
      exact ⟨hr, ⟨hl, rfl⟩, hst⟩
    refine .bind hbegin ?_
    rintro r _ ⟨k, s⟩ ⟨_, t⟩ ⟨⟨hr, rfl⟩, ⟨hk, rfl⟩, hst⟩
    refine .reading ?_
    refine .ofExcept_bind (Line.kindred_requireStart hk) hst ?_
    rintro start _ ⟨⟨hstart, rfl⟩, -⟩
    exact .modifying
      (.pure ⟨⟨holds_of_some hr, rfl⟩, ⟨⟨hk, holds_of_some hstart.gradient⟩, rfl⟩, hst⟩)
  step := by
    rintro p ⟨k, s⟩ ⟨_, t⟩ hp ⟨⟨hk, rfl⟩, hst⟩
    exact parallel_trial hA hk hst
  terminate := by
    rintro p ⟨k, s⟩ ⟨_, t⟩ hp ⟨⟨hk, rfl⟩, hst⟩
    exact .pure ⟨rfl, ⟨hk, rfl⟩, hst⟩

end StrongWolfe

/-! ### Either search -/

namespace LineSearch

omit [Scalar α] in
/-- The search at hand acts on both sides. -/
theorem parallel_dispatch {U : β → γ → Prop} {I : LineSearch α → Prop} {I₁ : Backtracking α → Prop}
    {I₂ : StrongWolfe α → Prop} (h₁ : ∀ k, I (.backtracking k) → I₁ k)
    (h₂ : ∀ k, I (.strongWolfe k) → I₂ k) {m : Action (Workspace (Backtracking α) ω) α β}
    {m' : Action (Workspace (Backtracking α) ω') α γ} {o : Action (Workspace (StrongWolfe α) ω) α β}
    {o' : Action (Workspace (StrongWolfe α) ω') α γ}
    (hm : ∀ {w v}, Workspace.Paired M (Carried I₁ (Backtracking.onBackend b')) w v →
      Parallel (fun r r' w v => U r r' ∧
        Workspace.Paired M (Carried (Backtracking.Aimed b n) (Backtracking.onBackend b')) w v)
        (Workspace.onSessions (Paired M)) (m.exec w) (m'.exec v))
    (ho : ∀ {w v}, Workspace.Paired M (Carried I₂ (StrongWolfe.onBackend b')) w v →
      Parallel (fun r r' w v => U r r' ∧
        Workspace.Paired M (Carried (StrongWolfe.Aimed b n) (StrongWolfe.onBackend b')) w v)
        (Workspace.onSessions (Paired M)) (o.exec w) (o'.exec v))
    {w : Workspace (LineSearch α) ω} {v : Workspace (LineSearch α) ω'}
    (h : Workspace.Paired M (Carried I (onBackend b')) w v) :
    Parallel (fun r r' w v => U r r' ∧ Workspace.Paired M (Carried (Aimed b n) (onBackend b')) w v)
      (Workspace.onSessions (Paired M)) ((dispatch m o).exec w) ((dispatch m' o').exec v) := by
  obtain ⟨k, s⟩ := w
  obtain ⟨_, t⟩ := v
  obtain ⟨⟨hk, rfl⟩, hst⟩ := h
  refine .reading ?_
  -- The two kinds share nothing but the dispatch.
  cases k with
  | backtracking k =>
    refine .wrapping (hm (w := ⟨k, s⟩) (v := ⟨k.onBackend b', t⟩) ⟨⟨h₁ k hk, rfl⟩, hst⟩) ?_
    rintro r r' ⟨k, s⟩ ⟨_, t⟩ ⟨hr, ⟨hk, rfl⟩, hst⟩
    exact ⟨hr, ⟨hk, rfl⟩, hst⟩
  | strongWolfe k =>
    refine .wrapping (ho (w := ⟨k, s⟩) (v := ⟨k.onBackend b', t⟩) ⟨⟨h₂ k hk, rfl⟩, hst⟩) ?_
    rintro r r' ⟨k, s⟩ ⟨_, t⟩ ⟨hr, ⟨hk, rfl⟩, hst⟩
    exact ⟨hr, ⟨hk, rfl⟩, hst⟩
  | unsuited text => exact .throw _ hst

/-- **Both line searches.** -/
theorem carries (hA : A.operator.Carries b b' n M A'.operator) :
    LineSearch.solver.Carries b b' n M (Carried (Shaped b n) (onBackend b'))
      (Carried (Aimed b n) (onBackend b')) A A' LineSearch.solver where
  ready h := ⟨h.1.shaped, h.2⟩
  init hp := parallel_dispatch (I := Shaped b n) (fun _ h => h) (fun _ h => h)
    ((Backtracking.carries hA).init hp) ((StrongWolfe.carries hA).init hp)
  step hp := parallel_dispatch (I := Aimed b n) (fun _ h => h) (fun _ h => h)
    ((Backtracking.carries hA).step hp) ((StrongWolfe.carries hA).step hp)
  terminate hp := parallel_dispatch (I := Aimed b n) (fun _ h => h) (fun _ h => h)
    ((Backtracking.carries hA).terminate hp) ((StrongWolfe.carries hA).terminate hp)

omit [Scalar α] in
/-- A direction is set on both sides. -/
theorem kindred_setDirection (k : LineSearch α) {d : Tensor α} (hd : d.Shaped b [n]) :
    Kindred (Carried (Shaped b n) (onBackend b')) (k.setDirection (some d))
      ((k.onBackend b').setDirection (some (d.onBackend b'))) := by
  have haimed (l : Line α) : Line.Shaped b n { l with direction := some d } := holds_of_some hd
  cases k with
  | backtracking k => exact .ok ⟨haimed k.line, rfl⟩
  | strongWolfe k => exact .ok ⟨haimed k.line, rfl⟩
  | unsuited text => exact .error rfl

end LineSearch

end Minimization
