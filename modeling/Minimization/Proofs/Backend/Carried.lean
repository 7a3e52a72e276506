import Minimization.Method.Basic
import Minimization.Proofs.Backend.Kernel
import Minimization.Proofs.Progress.Merge

namespace Minimization

/-!
# Runs on another backend

Points, gradients and Hessians on one backend have their counterparts on another one, and so has all
that a run keeps in them.

* `ReportOn.onBackend`, `ProgressOn.onBackend` — the same report and the same progress on another
  backend; `ProgressOn.update_onBackend` — bookkeeping does not depend on the backend.
* `Line.onBackend` and the maps beside it — the same memory of a solver.
* `ReportOn.Shaped`, `ProgressOn.Shaped`, `LineSearch.Shaped`, `Method.Shaped` — the points are vectors of
  one length, and the Hessians square matrices of that size; `LineSearch.Aimed`, `Method.Aimed` — a
  search that has started has a direction.
* `Operator.Carries` — two operators answer alike.
* `Paired`, `Workspace.Paired` — sessions and workspaces that have come equally far.
* `Solver.Carries` — a solver does alike on the two backends.
-/

variable {σ ω ω' α β γ : Type}

/-! ### Reports and progress -/

/-- What holds of a value holds of whatever is known if that is the value. -/
theorem holds_of_some {P : β → Prop} {x : β} (hx : P x) : ∀ y, some x = some y → P y := by
  rintro _ ⟨⟩
  exact hx

/-- The same report on another backend. -/
def ReportOn.onBackend (b : Backend) (r : Report α) : Report α :=
  { r with
    param := r.param.map (·.onBackend b)
    gradient := r.gradient.map (·.onBackend b)
    hessian := r.hessian.map (·.onBackend b) }

@[simp] theorem ReportOn.notes_onBackend (b : Backend) (r : Report α) :
    (r.onBackend b).notes = r.notes := rfl

/-- A report of vectors and square matrices. -/
structure ReportOn.Shaped (b : Backend) (n : Nat) (r : Report α) : Prop where
  param : ∀ x, r.param = some x → x.Shaped b [n]
  gradient : ∀ g, r.gradient = some g → g.Shaped b [n]
  hessian : ∀ h, r.hessian = some h → h.Square b n

namespace ProgressOn

/-- The same progress on another backend: the same costs, iterations and reason to stop, and the same entries
    in all tensors. -/
def onBackend (b : Backend) (p : Progress α) : Progress α :=
  { p with
    param := p.param.onBackend b
    prevParam := p.prevParam.onBackend b
    bestParam := p.bestParam.onBackend b
    prevBestParam := p.prevBestParam.onBackend b
    gradient := p.gradient.map (·.onBackend b)
    prevGradient := p.prevGradient.map (·.onBackend b)
    hessian := p.hessian.map (·.onBackend b)
    prevHessian := p.prevHessian.map (·.onBackend b) }

@[simp] theorem param_onBackend (b : Backend) (p : Progress α) :
    (p.onBackend b).param = p.param.onBackend b := rfl

@[simp] theorem cost_onBackend (b : Backend) (p : Progress α) : (p.onBackend b).cost = p.cost := rfl

@[simp] theorem prevCost_onBackend (b : Backend) (p : Progress α) :
    (p.onBackend b).prevCost = p.prevCost := rfl

@[simp] theorem gradient_onBackend (b : Backend) (p : Progress α) :
    (p.onBackend b).gradient = p.gradient.map (·.onBackend b) := rfl

@[simp] theorem hessian_onBackend (b : Backend) (p : Progress α) :
    (p.onBackend b).hessian = p.hessian.map (·.onBackend b) := rfl

@[simp] theorem reason_onBackend (b : Backend) (p : Progress α) :
    (p.onBackend b).reason = p.reason := rfl

@[simp] theorem maxIters_onBackend (b : Backend) (p : Progress α) :
    (p.onBackend b).maxIters = p.maxIters := rfl

@[simp] theorem iter_onBackend (b : Backend) (p : Progress α) : (p.onBackend b).iter = p.iter := rfl

/-- The current point is a vector, its gradient as well, and its Hessian is a square matrix. -/
structure Shaped (b : Backend) (n : Nat) (p : Progress α) : Prop where
  param : p.param.Shaped b [n]
  gradient : ∀ g, p.gradient = some g → g.Shaped b [n]
  hessian : ∀ h, p.hessian = some h → h.Square b n

variable {b : Backend} {n : Nat} {p : Progress α} {r : Report α}

/-- To merge a report and to move to another backend is the same in either order. -/
theorem merge_onBackend (b : Backend) (p : Progress α) (r : Report α) :
    (p.onBackend b).merge (r.onBackend b) = (p.merge r).onBackend b := by
  obtain ⟨_ | _, _ | _, _ | _, _ | _, _⟩ := r <;> rfl

/-- **Bookkeeping does not depend on the backend.** -/
theorem update_onBackend [Scalar α] (b : Backend) (p : Progress α) (r : Report α) :
    (p.onBackend b).update (r.onBackend b) = ((p.update r).1.onBackend b, (p.update r).2) := by
  have hcost : ((p.merge r).onBackend b).cost = (p.merge r).cost := rfl
  have hbest : ((p.merge r).onBackend b).bestCost = (p.merge r).bestCost := rfl
  have hsome : (r.onBackend b).cost.isSome = r.cost.isSome := rfl
  unfold update
  dsimp only
  rw [merge_onBackend, hcost, hbest, hsome]
  split <;> rfl

/-- A report of the right shape leaves a progress of the right shape. -/
theorem Shaped.update [Scalar α] (hp : p.Shaped b n) (hr : r.Shaped b n) :
    (p.update r).1.Shaped b n where
  param := by
    rw [param_update]
    -- What is not reported was shaped before.
    cases hparam : r.param with
    | none => exact hp.param
    | some x => exact hr.param x hparam
  gradient := by
    rw [gradient_update]
    cases hgradient : r.gradient with
    | none => exact hp.gradient
    | some g =>
      rintro _ ⟨⟩
      exact hr.gradient g hgradient
  hessian := by
    rw [hessian_update]
    cases hhessian : r.hessian with
    | none => exact hp.hessian
    | some h =>
      rintro _ ⟨⟩
      exact hr.hessian h hhessian

/-- The number of the iteration has no shape. -/
theorem Shaped.increment (hp : p.Shaped b n) : p.increment.Shaped b n :=
  ⟨hp.param, hp.gradient, hp.hessian⟩

/-- Neither has the reason to stop. -/
theorem Shaped.stopped (hp : p.Shaped b n) (reason : Reason) :
    ProgressOn.Shaped b n { p with reason := reason } :=
  ⟨hp.param, hp.gradient, hp.hessian⟩

end ProgressOn

/-- Reports on the backends `b` and `b'`. -/
abbrev Reports (b b' : Backend) (n : Nat) : Report α → Report α → Prop :=
  Carried (ReportOn.Shaped b n) (ReportOn.onBackend b')

/-! ### The memory of solvers -/

/-- The same start of a line on another backend. -/
def LineStart.onBackend (b : Backend) (s : LineStart α) : LineStart α :=
  { s with origin := s.origin.onBackend b, gradient := s.gradient.onBackend b }

/-- The origin of a line moves with it. -/
@[simp] theorem LineStart.origin_onBackend (b : Backend) (s : LineStart α) :
    (s.onBackend b).origin = s.origin.onBackend b := rfl

/-- The same line on another backend. -/
def Line.onBackend (b : Backend) (l : Line α) : Line α :=
  { l with direction := l.direction.map (·.onBackend b), start := l.start.map (·.onBackend b) }

/-- So does its direction. -/
@[simp] theorem Line.direction_onBackend (b : Backend) (l : Line α) :
    (l.onBackend b).direction = l.direction.map (·.onBackend b) := rfl

/-- So does the start of a search along it. -/
@[simp] theorem Line.start_onBackend (b : Backend) (l : Line α) :
    (l.onBackend b).start = l.start.map (·.onBackend b) := rfl

/-- Whether a search is over does not depend on the backend. -/
@[simp] theorem Line.done_onBackend (b : Backend) (l : Line α) : (l.onBackend b).done = l.done := rfl

/-- The same search by backtracking on another backend. -/
def Backtracking.onBackend (b : Backend) (s : Backtracking α) : Backtracking α :=
  { s with line := s.line.onBackend b }

/-- The line of a search moves with the search. -/
@[simp] theorem Backtracking.line_onBackend (b : Backend) (s : Backtracking α) :
    (s.onBackend b).line = s.line.onBackend b := rfl

/-- The step length is a number, and stays. -/
@[simp] theorem Backtracking.step_onBackend (b : Backend) (s : Backtracking α) :
    (s.onBackend b).step = s.step := rfl

/-- A search looks at numbers to decide what is low enough. -/
@[simp] theorem Backtracking.sufficient_onBackend [Scalar α] (b : Backend) (s : Backtracking α)
    (start : LineStart α) (step cost : α) :
    (s.onBackend b).sufficient (start.onBackend b) step cost = s.sufficient start step cost := rfl

/-- The same bracket on another backend. -/
def Bracket.onBackend (b : Backend) (k : Bracket α) : Bracket α :=
  { k with lowGradient := k.lowGradient.onBackend b }

/-- A bracket does not change its phase when it moves. -/
@[simp] theorem Bracket.closed_onBackend (b : Backend) (k : Bracket α) :
    (k.onBackend b).closed = k.closed := rfl

/-- The step that is tried next is a number, and stays. -/
@[simp] theorem Bracket.step_onBackend (b : Backend) (k : Bracket α) :
    (k.onBackend b).step = k.step := rfl

/-- So is the lower end. -/
@[simp] theorem Bracket.low_onBackend (b : Backend) (k : Bracket α) : (k.onBackend b).low = k.low := rfl

/-- So is the cost there. -/
@[simp] theorem Bracket.lowCost_onBackend (b : Backend) (k : Bracket α) :
    (k.onBackend b).lowCost = k.lowCost := rfl

/-- So is the upper end. -/
@[simp] theorem Bracket.high_onBackend (b : Backend) (k : Bracket α) :
    (k.onBackend b).high = k.high := rfl

/-- The same search for the strong Wolfe conditions on another backend. -/
def StrongWolfe.onBackend (b : Backend) (s : StrongWolfe α) : StrongWolfe α :=
  { s with line := s.line.onBackend b, bracket := s.bracket.map (·.onBackend b) }

@[simp] theorem StrongWolfe.line_onBackend (b : Backend) (s : StrongWolfe α) :
    (s.onBackend b).line = s.line.onBackend b := rfl

@[simp] theorem StrongWolfe.bracket_onBackend (b : Backend) (s : StrongWolfe α) :
    (s.onBackend b).bracket = s.bracket.map (·.onBackend b) := rfl

/-- The tests of a search compare numbers, so that their answers are the same. -/
@[simp] theorem StrongWolfe.sufficient_onBackend [Scalar α] (b : Backend) (s : StrongWolfe α)
    (start : LineStart α) (step cost : α) :
    (s.onBackend b).sufficient (start.onBackend b) step cost = s.sufficient start step cost := rfl

/-- The test of curvature answers the same, too. -/
@[simp] theorem StrongWolfe.flat_onBackend [Scalar α] (b : Backend) (s : StrongWolfe α)
    (start : LineStart α) (slope : α) :
    (s.onBackend b).flat (start.onBackend b) slope = s.flat start slope := rfl

/-- The same line search on another backend. -/
def LineSearch.onBackend (b : Backend) : LineSearch α → LineSearch α
  | .backtracking s => .backtracking (s.onBackend b)
  | .strongWolfe s => .strongWolfe (s.onBackend b)
  | .unsuited text => .unsuited text

/-- The same quasi-Newton method on another backend. -/
def QuasiNewton.onBackend (b : Backend) (s : QuasiNewton α) : QuasiNewton α :=
  ⟨s.inverseHessian.onBackend b, s.search.onBackend b⟩

/-- The same method on another backend. -/
def Method.onBackend (b : Backend) : Method α → Method α
  | .steepestDescent s => .steepestDescent (s.onBackend b)
  | .quasiNewton s => .quasiNewton (s.onBackend b)
  | .lineSearch s => .lineSearch (s.onBackend b)
  | m => m

/-- A line that starts at a vector with a gradient there. -/
structure LineStart.Shaped (b : Backend) (n : Nat) (s : LineStart α) : Prop where
  origin : s.origin.Shaped b [n]
  gradient : s.gradient.Shaped b [n]

/-- A line along a vector, if along any. -/
def Line.Shaped (b : Backend) (n : Nat) (l : Line α) : Prop :=
  ∀ d, l.direction = some d → d.Shaped b [n]

/-- A line along a vector that starts, if it has started, at a vector, and still has its direction then. -/
structure Line.Aimed (b : Backend) (n : Nat) (l : Line α) : Prop where
  direction : l.Shaped b n
  start : ∀ s, l.start = some s → s.Shaped b n
  aimed : l.start.isSome → l.direction.isSome

/-- A search by backtracking in the middle of a run. -/
def Backtracking.Aimed (b : Backend) (n : Nat) (s : Backtracking α) : Prop := s.line.Aimed b n

/-- A search for the strong Wolfe conditions in the middle of a run. -/
structure StrongWolfe.Aimed (b : Backend) (n : Nat) (s : StrongWolfe α) : Prop where
  line : s.line.Aimed b n
  bracket : ∀ k, s.bracket = some k → k.lowGradient.Shaped b [n]

/-- A line search along a vector, if along any.  What is left of an earlier run does not matter. -/
def LineSearch.Shaped (b : Backend) (n : Nat) : LineSearch α → Prop
  | .backtracking s => s.line.Shaped b n
  | .strongWolfe s => s.line.Shaped b n
  | .unsuited _ => True

/-- Such a search in the middle of a run. -/
def LineSearch.Aimed (b : Backend) (n : Nat) : LineSearch α → Prop
  | .backtracking s => s.Aimed b n
  | .strongWolfe s => s.Aimed b n
  | .unsuited _ => True

/-- A search that has begun has lines of the right shape. -/
theorem LineSearch.Aimed.shaped {b : Backend} {n : Nat} {s : LineSearch α} (h : s.Aimed b n) :
    s.Shaped b n := by
  cases s with
  | backtracking s => exact h.direction
  | strongWolfe s => exact h.line.direction
  | unsuited text => trivial

/-- A built-in method for vectors: the direction of a line search is a vector, and the inverse Hessian of
    a quasi-Newton method is a square matrix.  The others keep numbers only, or directions that they set
    themselves. -/
def Method.Shaped (b : Backend) (n : Nat) : Method α → Prop
  | .quasiNewton s => s.inverseHessian.Square b n
  | .lineSearch s => s.Shaped b n
  | .script _ => False
  | _ => True

/-- Such a method in the middle of a run. -/
def Method.Aimed (b : Backend) (n : Nat) : Method α → Prop
  | .lineSearch s => s.Aimed b n
  | m => m.Shaped b n

/-! ### Operators and sessions -/

/-- Hosts with related memories in which an interrupt is received in the same way. -/
structure Host.Paired (M : ω → ω' → Prop) (h : Host ω) (k : Host ω') : Prop where
  memory : M h.memory k.memory
  interrupt : k.interrupt = h.interrupt

/-- Sessions that have come equally far.  What the loggers have heard may differ. -/
structure Paired (M : ω → ω' → Prop) (s : Session ω) (t : Session ω') : Prop where
  host : s.host.Paired M t.host
  counts : t.counts = s.counts

/-- Workspaces that have come equally far; `V` relates the memories of the solvers. -/
structure Workspace.Paired (M : ω → ω' → Prop) (V : σ → σ → Prop) (w : Workspace σ ω)
    (v : Workspace σ ω') : Prop where
  solver : V w.solver v.solver
  session : Minimization.Paired M w.session v.session

/-- Memories that belong together more closely belong together. -/
theorem Workspace.Paired.mono {M : ω → ω' → Prop} {U V : σ → σ → Prop} {w : Workspace σ ω}
    {v : Workspace σ ω'} (h : Workspace.Paired M V w v) (hV : ∀ {x y}, V x y → U x y) :
    Workspace.Paired M U w v :=
  ⟨hV h.solver, h.session⟩

/-- The same report, and workspaces that have come equally far. -/
abbrev Workspace.Reporting (b b' : Backend) (n : Nat) (M : ω → ω' → Prop) (V : σ → σ → Prop)
    (r r' : Report α) (w : Workspace σ ω) (v : Workspace σ ω') : Prop :=
  Reports b b' n r r' ∧ Workspace.Paired M V w v

/-- Two operators answer alike at vectors of length `n`: costs are the same, gradients are vectors, and
    Hessians are square matrices.  Where one fails, so does the other, with a failure of that kind. -/
structure Operator.Carries (b b' : Backend) (n : Nat) (M : ω → ω' → Prop) (op : Operator ω α)
    (op' : Operator ω' α) : Prop where
  cost : ∀ {x h k}, x.Shaped b [n] → Host.Paired M h k →
    Parallel (fun c c' h k => c = c' ∧ Host.Paired M h k) (Host.Paired M) ((op.cost x).exec h)
      ((op'.cost (x.onBackend b')).exec k)
  gradient : ∀ {x h k}, x.Shaped b [n] → Host.Paired M h k →
    Parallel (fun g g' h k => Vectors b b' n g g' ∧ Host.Paired M h k) (Host.Paired M)
      ((op.gradient x).exec h) ((op'.gradient (x.onBackend b')).exec k)
  hessian : ∀ {x h k}, x.Shaped b [n] → Host.Paired M h k →
    Parallel (fun m m' h k => Matrices b b' n m m' ∧ Host.Paired M h k) (Host.Paired M)
      ((op.hessian x).exec h) ((op'.hessian (x.onBackend b')).exec k)

namespace Paired

variable {M : ω → ω' → Prop} {s : Session ω} {t : Session ω'}

/-- An evaluation is counted on both sides. -/
theorem evaluate {V : β → γ → Prop} {m : Action (Host ω) α β} {m' : Action (Host ω') α γ}
    (h : Paired M s t) (k : Capability)
    (hm : Parallel (fun b c h k => V b c ∧ Host.Paired M h k) (Host.Paired M) (m.exec s.host)
      (m'.exec t.host)) :
    Parallel (fun b c s t => V b c ∧ Paired M s t) (Paired M) ((Session.evaluate k m).exec s)
      ((Session.evaluate k m').exec t) := by
  have hcounts : t.counts.tick k = s.counts.tick k := by rw [h.counts]
  show Parallel _ _ ((Session.onHost m).exec { s with counts := s.counts.tick k })
    ((Session.onHost m').exec { t with counts := t.counts.tick k })
  unfold Session.onHost
  exact .focus hm (fun _ _ _ _ hV => ⟨hV.1, hV.2, hcounts⟩) fun _ _ hh => ⟨hh, hcounts⟩

variable {b b' : Backend} {n : Nat} {A : Setting ω α} {A' : Setting ω' α} {x : Tensor α}

/-- **The same cost** is evaluated on both sides. -/
theorem cost (h : Paired M s t) (hA : A.operator.Carries b b' n M A'.operator) (hx : x.Shaped b [n]) :
    Parallel (fun c c' s t => c = c' ∧ Paired M s t) (Paired M) ((Session.cost A.operator x).exec s)
      ((Session.cost A'.operator (x.onBackend b')).exec t) :=
  h.evaluate .cost (hA.cost hx h.host)

/-- Gradients are the same but for the backend. -/
theorem gradient (h : Paired M s t) (hA : A.operator.Carries b b' n M A'.operator)
    (hx : x.Shaped b [n]) :
    Parallel (fun g g' s t => Vectors b b' n g g' ∧ Paired M s t) (Paired M)
      ((Session.gradient A.operator x).exec s)
      ((Session.gradient A'.operator (x.onBackend b')).exec t) :=
  h.evaluate .gradient (hA.gradient hx h.host)

/-- So are Hessians. -/
theorem hessian (h : Paired M s t) (hA : A.operator.Carries b b' n M A'.operator)
    (hx : x.Shaped b [n]) :
    Parallel (fun m m' s t => Matrices b b' n m m' ∧ Paired M s t) (Paired M)
      ((Session.hessian A.operator x).exec s)
      ((Session.hessian A'.operator (x.onBackend b')).exec t) :=
  h.evaluate .hessian (hA.hessian hx h.host)

end Paired

/-! ### Solvers -/

/-- A solver does alike on the backends `b` and `b'`.  At the start of a run its memories are related by
    `U`, and from then on by `V`. -/
structure Solver.Carries (b b' : Backend) (n : Nat) (M : ω → ω' → Prop) (U V : σ → σ → Prop)
    (A : Setting ω α) (A' : Setting ω' α) (S : Solver σ ω α) (S' : Solver σ ω' α) : Prop where
  ready : ∀ {x y}, V x y → U x y
  init : ∀ {p w v}, p.Shaped b n → Workspace.Paired M U w v →
    Parallel (fun r? r?' w v => Carried (fun r? => ∀ r, r? = some r → r.Shaped b n)
        (Option.map (ReportOn.onBackend b')) r? r?' ∧ Workspace.Paired M V w v)
      (Workspace.onSessions (Paired M)) ((S.init A p).exec w) ((S'.init A' (p.onBackend b')).exec v)
  step : ∀ {p w v}, p.Shaped b n → Workspace.Paired M V w v →
    Parallel (Workspace.Reporting b b' n M V) (Workspace.onSessions (Paired M)) ((S.step A p).exec w)
      ((S'.step A' (p.onBackend b')).exec v)
  terminate : ∀ {p w v}, p.Shaped b n → Workspace.Paired M V w v →
    Parallel (fun own own' w v => own = own' ∧ Workspace.Paired M V w v)
      (Workspace.onSessions (Paired M)) ((S.terminate p).exec w)
      ((S'.terminate (p.onBackend b')).exec v)

end Minimization
