import Minimization.Proofs.LineSearch.Outcome
import Minimization.Proofs.LineSearch.Start
import Minimization.Proofs.Run.Iteration

namespace Minimization

/-!
# How a line search conducts itself

What the parts of a line search do whatever the numbers are: they may be inexact, infinite, or no
numbers at all.

* `Line.Footing`, `Line.Ground` — what a search may rely on at its start and later on: which costs it
  is told, and how points, evaluations and slopes may fail.
* `Line.ends_begin_opens` — the start of a line, and what has been evaluated for it.
* `Backtracking.ends_trial_tried`, `StrongWolfe.ends_trial_tries` — one trial: what it evaluates, and
  all that it can do to the memory.
* `StrongWolfe.ends_trial_over` — an iteration of a search that is over.
* `LineSearch.ends_init_begun`, `LineSearch.ends_step_over`, `LineSearch.ends_step_advances`,
  `LineSearch.ends_terminate` — the same for either search.
-/

variable {ω α : Type} [Scalar α]

/-! ### What a search may rely on -/

/-- At the start of a search from `p` along `d` the costs satisfy `C`, and all failures satisfy `E`. -/
structure Line.Footing (A : Setting ω α) (p : Progress α) (d : Tensor α) (C : α → Prop)
    (E : Failure α → Prop) : Prop where
  cost : ∀ t : Session ω, (Session.cost A.operator p.param).Ends t
    (fun c u => C c ∧ u.counts = t.counts.tick .cost) E
  gradient : ∀ t : Session ω, (Session.gradient A.operator p.param).Ends t
    (fun v u => (∀ e, p.param.backend.dot v d = .error e → E e) ∧
      u.counts = t.counts.tick .gradient) E
  known : ∀ v, p.gradient = some v → ∀ e, p.param.backend.dot v d = .error e → E e
  norm : ∀ e, p.param.backend.norm d = .error e → E e

/-- At the points of the line `l` the costs satisfy `C`, and all failures satisfy `E`. -/
structure Line.Ground (A : Setting ω α) (l : Line α) (C : α → Prop) (E : Failure α → Prop) :
    Prop where
  point : ∀ step e, l.point step = .error e → E e
  cost : ∀ step x, l.point step = .ok x → ∀ t : Session ω, (Session.cost A.operator x).Ends t
    (fun c u => C c ∧ u.counts = t.counts.tick .cost) E
  gradient : ∀ step x, l.point step = .ok x → ∀ t : Session ω,
    (Session.gradient A.operator x).Ends t
      (fun v u => (∀ e, l.slopeOf v = .error e → E e) ∧ u.counts = t.counts.tick .gradient) E

variable {A : Setting ω α} {C : α → Prop} {E : Failure α → Prop} {t : Session ω}

omit [Scalar α] in
/-- Any evaluation is counted, if nothing is said of its failures. -/
theorem Session.ends_evaluate_anyhow {β : Type} (k : Capability) (m : Action (Host ω) α β) :
    (Session.evaluate k m).Ends t (fun _ u => u.counts = t.counts.tick k) fun _ => True := by
  rw [Session.ends_evaluate]
  exact .intro (fun _ _ _ => rfl) fun _ _ _ => trivial

namespace Line

variable {l l' : Line α} {p : Progress α} {d : Tensor α} {name : String}

/-- If nothing is said of failures, any start will do. -/
theorem Footing.anyhow (A : Setting ω α) (p : Progress α) (d : Tensor α) :
    Footing A p d (fun _ => True) fun _ => True where
  cost _ := (Session.ends_evaluate_anyhow _ _).mono fun _ _ h => ⟨trivial, h⟩
  gradient _ := (Session.ends_evaluate_anyhow _ _).mono fun _ _ h => ⟨fun _ _ => trivial, h⟩
  known _ _ _ _ := trivial
  norm _ _ := trivial

/-- If nothing is said of failures, any line will do. -/
theorem Ground.anyhow (A : Setting ω α) (l : Line α) :
    Ground A l (fun _ => True) fun _ => True where
  point _ _ _ := trivial
  cost _ _ _ _ := (Session.ends_evaluate_anyhow _ _).mono fun _ _ h => ⟨trivial, h⟩
  gradient _ _ _ _ := (Session.ends_evaluate_anyhow _ _).mono fun _ _ h => ⟨fun _ _ => trivial, h⟩

/-- The ground depends on start and direction only. -/
theorem Ground.congr (h : Ground A l C E) (hstart : l'.start = l.start)
    (hdirection : l'.direction = l.direction) : Ground A l' C E := by
  have hpoint := point_congr hstart hdirection
  constructor
  · simp only [hpoint]
    exact h.point
  · simp only [hpoint]
    exact h.cost
  · simp only [hpoint, slopeOf_congr hstart hdirection]
    exact h.gradient

/-- What holds of failures everywhere on a line holds of them at a step length. -/
theorem Ground.firm (h : Ground A l C E) (a : α) : Firm A l a E where
  point := h.point a
  cost x hx t := (h.cost a x hx t).mono fun _ _ _ => trivial
  gradient x hx t := (h.gradient a x hx t).mono fun _ _ hv => hv.1

/-- The cost that a trial measures is one of those that the ground tells of. -/
theorem Ground.cost_of_taken (h : Ground A l C E) {m : Sample α} (hm : m.Taken A l t.host) :
    C m.cost := by
  obtain ⟨after, hcost⟩ := hm.cost
  exact (((Session.ends_evaluate ..).1 (h.cost m.step m.point hm.point t)).of_ok hcost).1

/-! ### The start of a line -/

/-- The line `l` has begun as `l'` from `p` along `d`, with the cost `c` and the gradient `v`.  It is
    over at once if `d` has length zero. -/
structure Opens (l : Line α) (p : Progress α) (d : Tensor α) (c : α) (v : Tensor α) (l' : Line α)
    (slope length : α) : Prop where
  dot : p.param.backend.dot v d = .ok slope
  norm : p.param.backend.norm d = .ok length
  downhill : Scalar.eq length 0.0 = true ∨ Scalar.lt slope 0.0 = true
  line : l' = { l with
    start := some ⟨p.param, c, v, slope⟩
    trials := 0
    done := if Scalar.eq length 0.0 then some .lineSearchCondition else none }

/-- The search is refused along `d`, which has a length and does not lead downhill from `p`.  A gradient
    that is known there is the one that says so. -/
structure Uphill (p : Progress α) (d : Tensor α) (v : Tensor α) (slope length : α) : Prop where
  known : ∀ g, p.gradient = some g → v = g
  dot : p.param.backend.dot v d = .ok slope
  norm : p.param.backend.norm d = .ok length
  moving : Scalar.eq length 0.0 = false
  flat : Scalar.lt slope 0.0 = false

/-- The evaluations at the start of a line: what is not known there. -/
def openingCounts (p : Progress α) : Counts :=
  ⟨if Scalar.isInfinite p.cost then 1 else 0, if p.gradient.isNone then 1 else 0, 0, 0⟩

/-- What is not known at the start is evaluated. -/
theorem ends_knownCost (hA : Footing A p d C E) : (Session.knownCost A p).Ends t
    (fun c u => (Scalar.isInfinite p.cost = true → C c) ∧
      (Scalar.isInfinite p.cost = false → c = p.cost) ∧
      u.counts = t.counts + ⟨if Scalar.isInfinite p.cost then 1 else 0, 0, 0, 0⟩) E := by
  unfold Session.knownCost
  by_cases hcost : Scalar.isInfinite p.cost
  · rw [if_pos hcost]
    refine (hA.cost t).mono fun c u h => ?_
    rw [if_pos hcost, h.2]
    exact ⟨fun _ => h.1, fun hknown => absurd hcost (by simp [hknown]), Counts.tick_eq_add ..⟩
  · rw [if_neg hcost, Action.ends_pure, if_neg hcost]
    exact ⟨fun h => absurd h hcost, fun _ => rfl, rfl⟩

/-- The gradient at the start is evaluated only if it was not handed over. -/
theorem ends_knownGradient (hA : Footing A p d C E) : (Session.knownGradient A p).Ends t
    (fun v u => (∀ g, p.gradient = some g → v = g) ∧
      (∀ e, p.param.backend.dot v d = .error e → E e) ∧
      u.counts = t.counts + ⟨0, if p.gradient.isNone then 1 else 0, 0, 0⟩) E := by
  unfold Session.knownGradient
  cases hgradient : p.gradient with
  | some v => exact ⟨fun _ h => Option.some.inj h, hA.known v hgradient, rfl⟩
  | none => exact (hA.gradient t).mono fun v u h => ⟨nofun, h.1, h.2.trans (Counts.tick_eq_add ..)⟩

/-- **The start of a line**: what is not known is evaluated, and the direction leads downhill. -/
theorem ends_begin_opens (hA : Footing A p d C E) (hl : l.direction = some d)
    (hdown : ∀ v slope length, Uphill p d v slope length → E (.invalid .notDescent)) :
    (begin name A p).Ends ⟨l, t⟩
      (fun report w => ∃ c v slope length, Opens l p d c v w.solver slope length ∧
        report = { param := some p.param, cost := some c, gradient := some v } ∧
        (Scalar.isInfinite p.cost = true → C c) ∧ (Scalar.isInfinite p.cost = false → c = p.cost) ∧
        w.session.counts = t.counts + openingCounts p) E := by
  rw [ends_begin_iff_of_direction hl]
  refine (ends_knownCost hA).mono fun c u hc => (ends_knownGradient hA).mono fun v u' hv => ?_
  have hcounts : u'.counts = t.counts + openingCounts p := by
    rw [hv.2.2, hc.2.2, Counts.add_assoc]
    exact congrArg (t.counts + ·) (Counts.ext (Nat.add_zero _) (Nat.zero_add _) rfl rfl)
  refine ends_settle_of hv.2.1 hA.norm (fun slope length hslope hlength hstill hflat => ?_)
    fun slope length hslope hlength hdownhill => ?_
  · exact hdown v slope length ⟨hv.1, hslope, hlength, hstill, hflat⟩
  · exact ⟨c, v, slope, length, ⟨hslope, hlength, hdownhill, rfl⟩, rfl, hc.1, hc.2.1, hcounts⟩

end Line

/-! ### Backtracking -/

namespace Backtracking

variable {s : Backtracking α}

/-- **One trial** evaluates one cost, and no gradient. -/
theorem ends_trial_tried (hA : Line.Ground A s.line C E) (hdone : s.line.done = none) :
    (trial A).Ends ⟨s, t⟩ (fun report w => ∃ start c, s.line.start = some start ∧ C c ∧
      w.solver = s.tried start c ∧ w.session.counts = t.counts.tick .cost ∧
      report.cost = some c) E := by
  exact ends_trial_of hdone (hA.point s.step) fun x start hx hstart =>
    (hA.cost s.step x hx t).mono fun c u hc => ⟨start, c, hstart, hc.1, rfl, hc.2, rfl⟩

/-- The search after its start, on the line that has begun. -/
theorem ends_init_opens {p : Progress α} {d : Tensor α} (hA : Line.Footing A p d C E)
    (hl : s.line.direction = some d)
    (hdown : ∀ v slope length, Line.Uphill p d v slope length → E (.invalid .notDescent)) :
    (solver.init A p).Ends ⟨s, t⟩ (fun report? w => ∃ c v l slope length,
      Line.Opens s.line p d c v l slope length ∧
      report? = some { param := some p.param, cost := some c, gradient := some v } ∧
      (Scalar.isInfinite p.cost = true → C c) ∧ (Scalar.isInfinite p.cost = false → c = p.cost) ∧
      w.session.counts = t.counts + Line.openingCounts p ∧
      w.solver = { s with line := l, step := l.initialStep }) E := by
  refine ends_init_of ((Line.ends_begin_opens hA hl hdown).mono ?_)
  rintro report w ⟨c, v, slope, length, hopens, rfl, hC, hknown, hcounts⟩
  exact ⟨c, v, w.solver, slope, length, hopens, rfl, hC, hknown, hcounts, rfl⟩

end Backtracking

/-! ### The strong Wolfe conditions -/

namespace StrongWolfe

variable {s : StrongWolfe α} {k : Bracket α}

/-- What a trial at the step length `a` that costs `c` makes of the bracket `k`, for what reason it
    ends the search, if it does, and how many gradients it evaluates. -/
inductive Tries (s : StrongWolfe α) (start : LineStart α) (k : Bracket α) (a c : α) :
    Bracket α → Option Reason → Nat → Prop
  /-- The step is too long: it becomes the upper end. -/
  | long {done : Option Reason} (hdone : done = none ∨ done = some .targetTolerance) :
      Tries s start k a c { k with high := a, closed := true } done 0
  /-- The cost is low enough: the step becomes the lower end. -/
  | short {done : Option Reason} {closed : Bool} {step high : α} {v : Tensor α}
      (hlow : s.sufficient start a c = true) (hstep : step = k.step ∨ step = 2.0 * a)
      (hhigh : high = k.high ∨ high = k.low)
      (hdone : done = none ∨ done = some .lineSearchCondition ∨ done = some .targetTolerance) :
      Tries s start k a c ⟨closed, step, a, c, v, high⟩ done 1

/-- Of all that a trial does, what concerns costs and counts. -/
theorem Outcome.tries {start : LineStart α} {m : Sample α} {k' : Bracket α} {done : Option Reason}
    {n : Nat} (h : Outcome A s start k m k' done n) :
    Tries s start k m.step m.cost k' done n := by
  have hlow (hshort : ¬Long s start k m) : s.sufficient start m.step m.cost = true :=
    sufficient_of_not_long hshort
  have hend (k : Bracket α) : narrowness k = none ∨ narrowness k = some .targetTolerance := by
    unfold narrowness
    split
    · exact .inr rfl
    · exact .inl rfl
  -- Whatever the bracket becomes, its lower end is the old one or the sample.
  cases h with
  | closes => exact .long (.inl rfl)
  | accepts hshort => exact .short (hlow hshort) (.inl rfl) (.inl rfl) (.inr (.inl rfl))
  | turns _ hshort => exact .short (hlow hshort) (.inl rfl) (.inr rfl) (.inl rfl)
  | advances _ hshort => exact .short (hlow hshort) (.inr rfl) (.inl rfl) (.inl rfl)
  | shortens hphase =>
    have hsame : { k with high := m.step } = { k with high := m.step, closed := true } := by
      rw [hphase]
    rw [hsame]
    exact .long (hend _)
  | swaps _ hshort => exact .short (hlow hshort) (.inl rfl) (.inr rfl) ((hend _).imp_right .inr)
  | raises _ hshort => exact .short (hlow hshort) (.inl rfl) (.inl rfl) ((hend _).imp_right .inr)

/-- What is reported is the lower end, whose point has to be found. -/
theorem report_eq (hk : s.bracket = some k) : s.report = (s.line.point k.low).map fun x => {
    param := some x, cost := some k.lowCost, gradient := some k.lowGradient
    notes := [("alpha", .number k.low)] } := by
  unfold report requireBracket
  rw [hk]
  show (s.line.point k.low >>= fun x => pure _) = _
  cases s.line.point k.low <;> rfl

/-- The lower end is reported with its cost. -/
theorem cost_of_report {report : Report α} (hk : s.bracket = some k) (h : s.report = .ok report) :
    report.cost = some k.lowCost := by
  rw [report_eq hk] at h
  cases hx : s.line.point k.low with
  | error e =>
    rw [hx] at h
    cases h
  | ok x =>
    rw [hx] at h
    obtain rfl := Except.ok.inj h
    rfl

/-- If it cannot be reported, there is no point at it. -/
theorem point_of_report {e : Failure α} (hk : s.bracket = some k) (h : s.report = .error e) :
    s.line.point k.low = .error e := by
  rw [report_eq hk] at h
  cases hx : s.line.point k.low with
  | error e' =>
    rw [hx] at h
    exact congrArg Except.error (Except.error.inj h)
  | ok x =>
    rw [hx] at h
    cases h

/-- An iteration of a search that is over shows the cost at the lower end once more. -/
theorem ends_trial_over (hA : Line.Ground A s.line C E) (hdone : s.line.done ≠ none)
    (hk : s.bracket = some k) : (trial A).Ends ⟨s, t⟩
      (fun report w => report.cost = some k.lowCost ∧ w = ⟨s, t⟩) E :=
  (ends_trial_of_done hdone fun e he => hA.point _ e (point_of_report hk he)).mono
    fun _ _ h => ⟨cost_of_report hk h.1, h.2⟩

/-- **One trial** evaluates one cost and at most one gradient, and its iteration reports the cost at
    the lower end that it leaves. -/
theorem ends_trial_tries (hA : Line.Ground A s.line C E) (hdone : s.line.done = none)
    (hk : s.bracket = some k) : (trial A).Ends ⟨s, t⟩
      (fun report w => ∃ start c k' done n, s.line.start = some start ∧ C c ∧
        Tries s.counted start k (next k) c k' done n ∧ w.solver = s.counted.concluded k' done ∧
        w.session.counts = t.counts + ⟨1, n, 0, 0⟩ ∧ report.cost = some k'.lowCost) E := by
  have hground (k' : Bracket α) (done : Option Reason) :
      Line.Ground A (s.counted.concluded k' done).line C E := hA.congr rfl rfl
  -- The report fails only where the lower end has no point.
  refine (ends_trial_outcome (hA.firm _) hdone hk fun m w e _ hleaves he => ?_).mono ?_
  · obtain ⟨-, k', done, -, -, -, -, hw, -⟩ := hleaves
    rw [hw] at he
    exact (hground k' done).point _ e (point_of_report rfl he)
  · rintro report w ⟨m, hm, ⟨start, k', done, n, hstart, htaken, houtcome, hw, hcounts⟩, hreport⟩
    have hcounted : Line.Ground A s.counted.line C E := hA.congr rfl rfl
    have hcost := hcounted.cost_of_taken htaken
    rw [hw] at hreport
    exact ⟨start, m.cost, k', done, n, hstart, hcost, hm ▸ houtcome.tries, hw, hcounts,
      cost_of_report rfl hreport⟩

/-- The search after its start: both ends of its bracket are where the line begins. -/
theorem ends_init_opens {p : Progress α} {d : Tensor α} (hA : Line.Footing A p d C E)
    (hl : s.line.direction = some d)
    (hdown : ∀ v slope length, Line.Uphill p d v slope length → E (.invalid .notDescent)) :
    (solver.init A p).Ends ⟨s, t⟩ (fun report? w => ∃ c v l slope length,
      Line.Opens s.line p d c v l slope length ∧
      report? = some { param := some p.param, cost := some c, gradient := some v } ∧
      (Scalar.isInfinite p.cost = true → C c) ∧ (Scalar.isInfinite p.cost = false → c = p.cost) ∧
      w.session.counts = t.counts + Line.openingCounts p ∧
      w.solver = { s with
        line := l, bracket := some ⟨false, l.initialStep, 0.0, c, v, 0.0⟩ }) E := by
  refine ends_init_of ((Line.ends_begin_opens hA hl hdown).mono ?_)
  rintro report ⟨l, u⟩ ⟨c, v, slope, length, hopens, rfl, hC, hknown, hcounts⟩
  exact ⟨⟨p.param, c, v, slope⟩, by rw [hopens.line],
    c, v, l, slope, length, hopens, rfl, hC, hknown, hcounts, rfl⟩

end StrongWolfe

/-! ### Either search -/

namespace LineSearch

section
variable {β : Type} {onBacktracking : Action (Workspace (Backtracking α) ω) α β}
  {onStrongWolfe : Action (Workspace (StrongWolfe α) ω) α β}
  {Q : β → Workspace (LineSearch α) ω → Prop}

omit [Scalar α] in
/-- What is asked of a search by backtracking is asked of the search at hand. -/
theorem ends_dispatch_backtracking (s : Backtracking α) :
    (dispatch onBacktracking onStrongWolfe).Ends ⟨.backtracking s, t⟩ Q E ↔
      onBacktracking.Ends ⟨s, t⟩ (fun b w => Q b ⟨.backtracking w.solver, w.session⟩) E := by
  unfold dispatch
  rw [Action.ends_bind, Workspace.ends_readSolver]
  exact Workspace.ends_wrapping ..

omit [Scalar α] in
/-- So is what is asked of a search for the strong Wolfe conditions. -/
theorem ends_dispatch_strongWolfe (s : StrongWolfe α) :
    (dispatch onBacktracking onStrongWolfe).Ends ⟨.strongWolfe s, t⟩ Q E ↔
      onStrongWolfe.Ends ⟨s, t⟩ (fun b w => Q b ⟨.strongWolfe w.solver, w.session⟩) E := by
  unfold dispatch
  rw [Action.ends_bind, Workspace.ends_readSolver]
  exact Workspace.ends_wrapping ..

end

section
variable {α : Type}

/-- The search is one for the strong Wolfe conditions. -/
def isStrong : LineSearch α → Bool
  | .strongWolfe _ => true
  | _ => false

/-- The reason that the search itself has to stop. -/
def reason : LineSearch α → Reason
  | .backtracking s => s.line.reason
  | .strongWolfe s => s.line.reason
  | .unsuited _ => .notTerminated

/-- What either search keeps. -/
def line? : LineSearch α → Option (Line α)
  | .backtracking s => some s.line
  | .strongWolfe s => some s.line
  | .unsuited _ => none

/-- The search that has been given a direction. -/
def aimed (way : Tensor α) : LineSearch α → LineSearch α
  | .backtracking s => .backtracking { s with line := { s.line with direction := some way } }
  | .strongWolfe s => .strongWolfe { s with line := { s.line with direction := some way } }
  | .unsuited text => .unsuited text

/-- A search stays of its kind when it gets a direction. -/
theorem isStrong_aimed (way : Tensor α) (m : LineSearch α) : (m.aimed way).isStrong = m.isStrong := by
  cases m <;> rfl

/-- Its line gets the direction, and nothing else. -/
theorem line?_aimed (way : Tensor α) (m : LineSearch α) :
    (m.aimed way).line? = m.line?.map fun l => { l with direction := some way } := by
  cases m <;> rfl

/-- A search takes a direction. -/
theorem setDirection_eq {m : LineSearch α} (hm : m.line?.isSome = true) (way : Tensor α) :
    m.setDirection (some way) = .ok (m.aimed way) := by
  cases m with
  | backtracking s => rfl
  | strongWolfe s => rfl
  | unsuited text => cases hm

/-- The search that has begun on the line `l`, with cost and gradient at its start. -/
def begun (l : Line α) [Scalar α] (c : α) (v : Tensor α) : LineSearch α → LineSearch α
  | .backtracking s => .backtracking { s with line := l, step := l.initialStep }
  | .strongWolfe s => .strongWolfe { s with
      line := l, bracket := some ⟨false, l.initialStep, 0.0, c, v, 0.0⟩ }
  | .unsuited text => .unsuited text

/-- The lower end of the bracket, if there has to be one, has a cost for which `C` holds. -/
def Bracketed (C : α → Prop) : LineSearch α → Prop
  | .strongWolfe s => ∃ k, s.bracket = some k ∧ C k.lowCost
  | _ => True

end

variable {m : LineSearch α} {l : Line α} {p : Progress α}

/-- Only the search itself stops because its conditions are met. -/
theorem own_of_ruling {c : RunConfig α} {own : Reason}
    (h : Run.ruling c p own = .lineSearchCondition) : own = .lineSearchCondition := by
  unfold Run.ruling at h
  split at h
  · exact h
  · split at h
    · cases h
    · split at h
      · cases h
      · cases h

omit [Scalar α] in
/-- A line that gives the line search condition as its reason is done. -/
theorem done_of_reason (h : l.reason = .lineSearchCondition) :
    l.done = some .lineSearchCondition := by
  unfold Line.reason at h
  cases hdone : l.done with
  | some reason =>
    rw [hdone] at h
    exact congrArg some h
  | none =>
    rw [hdone] at h
    dsimp only at h
    split at h
    · cases h
    · cases h

/-- A search is a nested run of the search that has been given the direction. -/
theorem ends_run_iff (hm : m.line?.isSome = true) {x way : Tensor α} {cost? : Option α}
    {gradient? : Option (Tensor α)} {Q : Progress α → Workspace (LineSearch α) ω → Prop} :
    (run A x (some way) cost? gradient?).Ends ⟨m, t⟩ Q E ↔
      (Run.nested solver A fun c => Run.seeded x c.maxIters cost? gradient? none).Ends
        ⟨m.aimed way, t⟩ Q E := by
  rw [ends_run_parts, setDirection_eq hm, Action.ends_ofExcept_ok]

/-- **The start** of either search. -/
theorem ends_init_begun {d : Tensor α} (hA : Line.Footing A p d C E) (hm : m.line? = some l)
    (hl : l.direction = some d)
    (hdown : ∀ v slope length, Line.Uphill p d v slope length → E (.invalid .notDescent)) :
    (solver.init A p).Ends ⟨m, t⟩ (fun report? w => ∃ c v l' slope length,
      Line.Opens l p d c v l' slope length ∧
      report? = some { param := some p.param, cost := some c, gradient := some v } ∧
      (Scalar.isInfinite p.cost = true → C c) ∧ (Scalar.isInfinite p.cost = false → c = p.cost) ∧
      w.session.counts = t.counts + Line.openingCounts p ∧ w.solver = m.begun l' c v) E := by
  -- Both searches begin on their line, and add a step length or a bracket.
  cases m with
  | backtracking s =>
    obtain rfl := Option.some.inj hm
    show (dispatch _ _).Ends _ _ _
    rw [ends_dispatch_backtracking]
    refine (Backtracking.ends_init_opens hA hl hdown).mono ?_
    rintro report? w ⟨c, v, l', slope, length, hopens, hreport, hC, hknown, hcounts, hw⟩
    exact ⟨c, v, l', slope, length, hopens, hreport, hC, hknown, hcounts, congrArg _ hw⟩
  | strongWolfe s =>
    obtain rfl := Option.some.inj hm
    show (dispatch _ _).Ends _ _ _
    rw [ends_dispatch_strongWolfe]
    refine (StrongWolfe.ends_init_opens hA hl hdown).mono ?_
    rintro report? w ⟨c, v, l', slope, length, hopens, hreport, hC, hknown, hcounts, hw⟩
    exact ⟨c, v, l', slope, length, hopens, hreport, hC, hknown, hcounts, congrArg _ hw⟩
  | unsuited text => cases hm

/-- Asking either search for a reason to stop changes nothing. -/
theorem ends_terminate_line (hm : m.line? = some l) : (solver.terminate p).Ends ⟨m, t⟩
    (fun own w => own = l.reason ∧ w = ⟨m, t⟩) E := by
  cases m with
  | backtracking s =>
    obtain rfl := Option.some.inj hm
    show (dispatch _ _).Ends _ _ _
    rw [ends_dispatch_backtracking]
    exact ⟨rfl, rfl⟩
  | strongWolfe s =>
    obtain rfl := Option.some.inj hm
    show (dispatch _ _).Ends _ _ _
    rw [ends_dispatch_strongWolfe]
    exact ⟨rfl, rfl⟩
  | unsuited text => cases hm

/-- **An iteration of a search that is over** evaluates nothing and changes nothing. -/
theorem ends_step_over (hA : Line.Ground A l C E) (hm : m.line? = some l) (hdone : l.done ≠ none)
    (hbracket : m.Bracketed C) : (solver.step A p).Ends ⟨m, t⟩
      (fun report w => (∀ c, report.cost = some c → C c) ∧ w = ⟨m, t⟩) E := by
  -- A search that is over has nothing to report, or its lower end once more.
  cases m with
  | backtracking s =>
    obtain rfl := Option.some.inj hm
    show (dispatch _ _).Ends _ _ _
    rw [ends_dispatch_backtracking]
    refine (Backtracking.ends_trial_over hdone).mono ?_
    rintro report w ⟨rfl, rfl⟩
    exact ⟨nofun, rfl⟩
  | strongWolfe s =>
    obtain rfl := Option.some.inj hm
    obtain ⟨k, hk, hlow⟩ := hbracket
    show (dispatch _ _).Ends _ _ _
    rw [ends_dispatch_strongWolfe]
    refine (StrongWolfe.ends_trial_over hA hdone hk).mono ?_
    rintro report w ⟨hreport, rfl⟩
    refine ⟨fun c hc => ?_, rfl⟩
    obtain rfl := Option.some.inj (hreport.symm.trans hc)
    exact hlow
  | unsuited text => cases hm

/-- A trial takes `m`, whose line is `l`, to `m'`; it evaluates one cost and `n` gradients. -/
structure Advances (C : α → Prop) (m m' : LineSearch α) (l : Line α) (n : Nat) : Prop where
  line : ∃ done, m'.line? = some { l.countTrial with done := done } ∧
    (done = none ∨ done = some .lineSearchCondition ∨
      m.isStrong = true ∧ done = some .targetTolerance)
  isStrong : m'.isStrong = m.isStrong
  bracketed : m'.Bracketed C
  gradients : n ≤ 1
  gradientFree : m.isStrong = false → n = 0

/-- **A trial of either search.** -/
theorem ends_step_advances (hA : Line.Ground A l C E) (hm : m.line? = some l)
    (hdone : l.done = none) (hbracket : m.Bracketed C) : (solver.step A p).Ends ⟨m, t⟩
      (fun report w => ∃ c n, report.cost = some c ∧ C c ∧ Advances C m w.solver l n ∧
        w.session.counts = t.counts + ⟨1, n, 0, 0⟩) E := by
  -- One trial is counted by either search; a gradient only by the one for the strong Wolfe conditions.
  cases m with
  | backtracking s =>
    obtain rfl := Option.some.inj hm
    show (dispatch _ _).Ends _ _ _
    rw [ends_dispatch_backtracking]
    refine (Backtracking.ends_trial_tried hA hdone).mono ?_
    rintro report w ⟨start, c, hstart, hc, hw, hcounts, hreport⟩
    refine ⟨c, 0, hreport, hc, ⟨?_, rfl, trivial, Nat.zero_le _, fun _ => rfl⟩,
      hcounts.trans (Counts.tick_eq_add ..)⟩
    dsimp only
    rw [hw]
    unfold Backtracking.tried
    split
    · exact ⟨_, rfl, .inr (.inl rfl)⟩
    · refine ⟨none, ?_, .inl rfl⟩
      show some s.line.countTrial = _
      rw [← hdone]
      rfl
  | strongWolfe s =>
    obtain rfl := Option.some.inj hm
    obtain ⟨k, hk, hlow⟩ := hbracket
    show (dispatch _ _).Ends _ _ _
    rw [ends_dispatch_strongWolfe]
    refine (StrongWolfe.ends_trial_tries hA hdone hk).mono ?_
    rintro report w ⟨start, c, k', done, n, hstart, hc, htries, hw, hcounts, hreport⟩
    refine ⟨k'.lowCost, n, hreport, ?_⟩
    dsimp only
    rw [hw]
    cases htries with
    | long hend =>
      refine ⟨hlow, ⟨⟨done, rfl, ?_⟩, rfl, ⟨_, rfl, hlow⟩, Nat.zero_le _, fun _ => rfl⟩, hcounts⟩
      exact hend.imp_right fun h => .inr ⟨rfl, h⟩
    | short _ _ _ hend =>
      refine ⟨hc, ⟨⟨done, rfl, ?_⟩, rfl, ⟨_, rfl, hc⟩, Nat.le_refl _, nofun⟩, hcounts⟩
      exact hend.imp_right (Or.imp_right fun h => ⟨rfl, h⟩)
  | unsuited text => cases hm

end LineSearch

end Minimization
