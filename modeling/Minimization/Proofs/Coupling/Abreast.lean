import Minimization.Method.Basic
import Minimization.Proofs.Coupling.Bond
import Minimization.Proofs.Method.Ordinary

namespace Minimization

/-!
# Solvers that part at most

The solvers of the library touch an operator through counted evaluations only, and the loggers by
writing lines.  If these keep to a bond of sessions, then so does every solver, and a line search
keeps its settings on the way.

* `Abreast` — evaluations and log lines keep to a bond.
* `Ordinary.related` — so that every ordinary computation does.
* `Solver.Joined`, `Solver.Bonded` — a solver keeps to a bond of workspaces, outside its steps or all
  the time.
* `Solver.Ordinary.bonded` — an ordinary solver keeps to it all the time; `Landweber.bonded`,
  `Newton.bonded`, `Dogleg.bonded`, `LineSearch.bonded` — those that run no other solver.
* `SteepestDescent.bonded`, `QuasiNewton.bonded`, `TrustRegion.bonded` — solvers that do; their steps
  keep to a bond if the nested run does.
* `Method.BuiltIn`, `Method.dispatch_bonded`, `Method.joined` — the method at hand, unless it is a
  script.
-/

variable {σ ω ω' α β : Type}

/-- Evaluations and log lines under two settings keep to a bond. -/
structure Abreast (B : Bond (Session ω) (Session ω')) (A : Setting ω α) (A' : Setting ω' α) :
    Prop where
  cost : ∀ x, B.Related (Session.cost A.operator x) (Session.cost A'.operator x)
  gradient : ∀ x, B.Related (Session.gradient A.operator x) (Session.gradient A'.operator x)
  hessian : ∀ x, B.Related (Session.hessian A.operator x) (Session.hessian A'.operator x)
  /-- Both sides write the same line. -/
  log : ∀ level logger message,
    B.Related (Session.log level logger message : Action (Session ω) α Unit)
      (Session.log level logger message)

/-- Before the first iteration and after every one, a solver keeps to a bond. -/
structure Solver.Joined (W : Bond (Workspace σ ω) (Workspace σ ω')) (A : Setting ω α)
    (A' : Setting ω' α) (S : Solver σ ω α) (S' : Solver σ ω' α) : Prop where
  name : S'.name = S.name
  init : ∀ p, W.Related (S.init A p) (S'.init A' p)
  terminate : ∀ p, W.Related (S.terminate p) (S'.terminate p)

/-- A solver keeps to a bond all the time, whichever of the two settings it works in. -/
structure Solver.Bonded (W : Bond (Workspace σ ω) (Workspace σ ω')) (A : Setting ω α)
    (A' : Setting ω' α) (S : Solver σ ω α) (S' : Solver σ ω' α) : Prop
    extends S.Joined W A A' S' where
  step : ∀ p, W.Related (S.step A p) (S'.step A' p)

variable {B : Bond (Session ω) (Session ω')} {A : Setting ω α} {A' : Setting ω' α}

open Bond

/-! ### Ordinary computations -/

/-- Inquiries keep to the bond that evaluations and log lines keep to. -/
theorem Inquiry.related {m : Uniform α Session β} (hm : Inquiry m) (h : Abreast B A A') :
    B.Related (m ω A) (m ω' A') := by
  induction hm with
  | pure b => exact .pure b
  | bind _ _ hm hf => exact hm.bind hf
  | cost x => exact h.cost x
  | gradient x => exact h.gradient x
  | hessian x => exact h.hessian x
  | log level logger message => exact h.log level logger message

/-- **Ordinary computations** keep to it as well, with the same memory on both sides. -/
theorem Ordinary.related {I : σ → Prop} {m : Uniform α (Workspace σ) β} (hm : Ordinary I m)
    (h : Abreast B A A') : (B.keeping I).Related (m ω A) (m ω' A') := by
  induction hm with
  | pure b => exact .pure b
  | throw he => exact .throw _
  | bind _ _ hm hf => exact hm.bind hf
  | calculating _ _ hf => exact .trying hf
  | reading _ hf => exact .reading hf
  | modifying hf => exact .modifySolver hf
  | onSession hm => exact .onSession (hm.related h)
  | within hpart hput _ hm => exact hm.within hpart hput
  | wrapping hx hwrap _ hm => exact hm.wrapping _ hx hwrap

/-- So does an ordinary solver. -/
theorem Solver.Ordinary.bonded {I : σ → Prop} {S : (ω : Type) → Solver σ ω α}
    (hS : Solver.Ordinary I S) (h : Abreast B A A') :
    (S ω).Bonded (B.keeping I) A A' (S ω') where
  name := hS.name ω ω'
  init p := (hS.init p).related h
  step p := (hS.step p).related h
  terminate p := (hS.terminate p).related h

/-! ### Solvers on their own -/

variable [Scalar α]

/-- Landweber iteration, with any property of its memory. -/
theorem Landweber.bonded (h : Abreast B A A') (I : Landweber α → Prop) :
    (Landweber.solver (ω := ω)).Bonded (B.keeping I) A A' Landweber.solver :=
  (Landweber.ordinary I).bonded h

/-- Newton's method. -/
theorem Newton.bonded (h : Abreast B A A') (I : Newton α → Prop) :
    (Newton.solver (ω := ω)).Bonded (B.keeping I) A A' Newton.solver :=
  (Newton.ordinary I).bonded h

/-- The dogleg method. -/
theorem Dogleg.bonded (h : Abreast B A A') (I : Dogleg α → Prop) :
    (Dogleg.solver (ω := ω)).Bonded (B.keeping I) A A' Dogleg.solver :=
  (Dogleg.ordinary I).bonded h

/-- A line search keeps its settings as well. -/
theorem LineSearch.bonded (h : Abreast B A A') (l₀ : LineSearch α) :
    (LineSearch.solver (ω := ω)).Bonded (B.fixing LineSearch.blank l₀) A A'
      LineSearch.solver :=
  (LineSearch.ordinary l₀).bonded h

/-! ### Solvers that run another one -/

/-- Steepest descent measures, searches and reports. -/
theorem SteepestDescent.bonded (h : Abreast B A A') (I : LineSearch α → Prop)
    (hrun : ∀ x d c g, (B.keeping I).Related (LineSearch.run A x d c g)
      (LineSearch.run A' x d c g)) :
    (SteepestDescent.solver (ω := ω) (α := α)).Bonded (B.keeping I) A A'
      SteepestDescent.solver where
  name := rfl
  init _ := .pure _
  terminate _ := .pure _
  step p := by
    show (B.keeping I).Related (SteepestDescent.step A p) (SteepestDescent.step A' p)
    rw [SteepestDescent.step_parts A, SteepestDescent.step_parts A']
    exact .bind ((SteepestDescent.ordinary_measure I p.param).related h) fun _ =>
      .bind (hrun _ _ _ _) fun found => .pure _

/-- The start of a quasi-Newton run asks for cost and gradient, and its stopping rule calculates. -/
theorem QuasiNewton.joined (h : Abreast B A A') (I : QuasiNewton α → Prop) :
    (QuasiNewton.solver (ω := ω) (α := α)).Joined (B.keeping I) A A' QuasiNewton.solver where
  name := rfl
  init p := (QuasiNewton.ordinary_init I p).related h
  terminate _ := .ofExcept _

/-- What is kept of the memory is kept of the search in it. -/
theorem QuasiNewton.learn_bonded (h : Abreast B A A') {I : LineSearch α → Prop}
    (x oldGradient inverse : Tensor α) (found : Progress α) :
    (B.keeping fun s : QuasiNewton α => I s.search).Related
      (QuasiNewton.learn A x oldGradient inverse found)
      (QuasiNewton.learn A' x oldGradient inverse found) :=
  (QuasiNewton.ordinary_learn (fun _ _ hs => hs) x oldGradient inverse found).related h

/-- A quasi-Newton step aims, searches and learns; only the search is nested. -/
theorem QuasiNewton.bonded (h : Abreast B A A') (I : LineSearch α → Prop)
    (hrun : ∀ x d c g, (B.keeping I).Related (LineSearch.run A x d c g)
      (LineSearch.run A' x d c g)) :
    (QuasiNewton.solver (ω := ω) (α := α)).Bonded
      (B.keeping fun s : QuasiNewton α => I s.search) A A' QuasiNewton.solver where
  toJoined := QuasiNewton.joined h _
  step p := by
    show Bond.Related _ (QuasiNewton.step A p) (QuasiNewton.step A' p)
    rw [QuasiNewton.step_parts A, QuasiNewton.step_parts A']
    refine .bind ((QuasiNewton.ordinary_aim _ p).related h) fun (oldGradient, inverse, direction) => ?_
    refine .bind (.within (J := I) (fun _ hs => hs) (fun _ _ _ hy => hy) (hrun _ _ _ _)) fun found => ?_
    exact QuasiNewton.learn_bonded h p.param oldGradient inverse found

/-- The start of a trust-region run asks for everything, and its stopping rule calculates. -/
theorem TrustRegion.joined (h : Abreast B A A') (I : TrustRegion α → Prop) :
    (TrustRegion.solver (ω := ω) (α := α)).Joined (B.keeping I) A A' TrustRegion.solver where
  name := rfl
  init p := (TrustRegion.ordinary_init I p).related h
  terminate _ := .bind .readSolver fun _ => .ofExcept _

/-- A trust-region step makes a trial, sets the radius and decides; only the run inside the trial is
    nested. -/
theorem TrustRegion.bonded (h : Abreast B A A')
    (hrun : ∀ x g hess, (B.workspace _).Related (TrustRegion.subproblemStep A x g hess)
      (TrustRegion.subproblemStep A' x g hess)) :
    (TrustRegion.solver (ω := ω) (α := α)).Bonded (B.workspace _) A A' TrustRegion.solver where
  toJoined := TrustRegion.joined h _
  step p := by
    -- All but the subproblem is ordinary, and what that does is given.
    have hexplore : (B.workspace _).Related (TrustRegion.explore A p) (TrustRegion.explore A' p) := by
      rw [TrustRegion.explore_parts A, TrustRegion.explore_parts A']
      refine .bind (.ofExcept _) fun gradient => .bind (.ofExcept _) fun hessian => ?_
      refine .bind (hrun _ gradient hessian) fun direction => ?_
      exact .bind ((TrustRegion.ordinary_weigh _ p gradient hessian direction).related h) fun t => .pure _
    show (B.workspace _).Related (TrustRegion.step A p) (TrustRegion.step A' p)
    rw [TrustRegion.step_parts A, TrustRegion.step_parts A', TrustRegion.attempt_eq A,
      TrustRegion.attempt_eq A']
    -- The radius is adapted between exploration and conclusion, whatever becomes of the point.
    refine .bind (.bind hexplore fun (gradient, hessian, t) => ?_) fun (gradient, hessian, t) => ?_
    · exact .bind (.modifySolver fun _ hs => hs) fun _ => .pure _
    · exact (TrustRegion.ordinary_conclude _ p gradient hessian t).related h

/-! ### The method at hand -/

/-- The methods that the library comes with; a script may do anything. -/
def Method.BuiltIn : Method α → Prop
  | .script _ => False
  | _ => True

/-- The method that acts is the one whose memory is at hand. -/
def Method.acting (act : {σ : Type} → Solver σ ω α → Action (Workspace σ ω) α β) :
    Method α → Action (Workspace (Method α) ω) α β
  | .landweber s => Workspace.wrapping .landweber s (act Landweber.solver)
  | .newton s => Workspace.wrapping .newton s (act Newton.solver)
  | .steepestDescent s => Workspace.wrapping .steepestDescent s (act SteepestDescent.solver)
  | .quasiNewton s => Workspace.wrapping .quasiNewton s (act QuasiNewton.solver)
  | .lineSearch s => Workspace.wrapping .lineSearch s (act LineSearch.solver)
  | .dogleg s => Workspace.wrapping .dogleg s (act Dogleg.solver)
  | .trustRegion s => Workspace.wrapping .trustRegion s (act TrustRegion.solver)
  | .script s => Workspace.wrapping .script s (act Script.solver)

/-- To act on the method at hand is to act on its own memory. -/
theorem Method.exec_dispatch (act : {σ : Type} → Solver σ ω α → Action (Workspace σ ω) α β)
    (w : Workspace (Method α) ω) : (dispatch act).exec w = (acting act w.solver).exec w := by
  rcases w with ⟨m, s⟩
  unfold dispatch
  rw [Action.exec_bind]
  cases m <;> rfl

/-- So is the initialisation. -/
theorem Method.exec_init (A : Setting ω α) (p : Progress α) (w : Workspace (Method α) ω) :
    (Method.solver.init A p).exec w = (acting (fun S => S.init A p) w.solver).exec w :=
  Method.exec_dispatch (fun S => S.init A p) w

/-- So is a step. -/
theorem Method.exec_step (A : Setting ω α) (p : Progress α) (w : Workspace (Method α) ω) :
    (Method.solver.step A p).exec w = (acting (fun S => S.step A p) w.solver).exec w :=
  Method.exec_dispatch (fun S => S.step A p) w

/-- Methods with a property keep to a bond if each of them does and stays one of them. -/
theorem Method.dispatch_bonded {I : Method α → Prop}
    (act : {σ : Type} → Solver σ ω α → Action (Workspace σ ω) α β)
    (act' : {σ : Type} → Solver σ ω' α → Action (Workspace σ ω') α β)
    (h : ∀ m, I m → (B.keeping I).Related (Method.acting act m) (Method.acting act' m)) :
    (B.keeping I).Related (Method.dispatch act) (Method.dispatch act') := by
  intro w v hwv
  have hmemory : v.solver = w.solver := by rw [hwv.2.2]
  rw [Method.exec_dispatch, Method.exec_dispatch, hmemory]
  exact h w.solver hwv.2.1 hwv

/-- A line search on its own, whatever its settings. -/
theorem LineSearch.bonded_workspace (h : Abreast B A A') :
    (LineSearch.solver (ω := ω)).Bonded (B.workspace _) A A' LineSearch.solver where
  name := rfl
  init p := .forget fun l₀ => (LineSearch.bonded h l₀).init p
  step p := .forget fun l₀ => (LineSearch.bonded h l₀).step p
  terminate p := .forget fun l₀ => (LineSearch.bonded h l₀).terminate p

/-- Before the first iteration and after every one, every built-in method keeps to a bond. -/
theorem Method.joined (h : Abreast B A A') :
    (Method.solver (ω := ω) (α := α)).Joined (B.keeping Method.BuiltIn) A A' Method.solver where
  name := rfl
  init p := by
    refine dispatch_bonded (fun S => S.init A p) (fun S => S.init A' p) fun m hm => ?_
    -- Only the methods with a cost and a gradient of their own have something to do at the start.
    cases m with
    | landweber x => exact .wrapped (fun _ => trivial) x (.pure _)
    | newton x => exact .wrapped (fun _ => trivial) x (.pure _)
    | steepestDescent x => exact .wrapped (fun _ => trivial) x (.pure _)
    | quasiNewton x => exact .wrapped (fun _ => trivial) x ((QuasiNewton.joined h _).init p)
    | lineSearch x =>
      exact .wrapped (fun _ => trivial) x ((LineSearch.bonded_workspace h).init p)
    | dogleg x => exact .wrapped (fun _ => trivial) x (.pure _)
    | trustRegion x => exact .wrapped (fun _ => trivial) x ((TrustRegion.joined h _).init p)
    | script x => exact hm.elim
  terminate p := by
    refine dispatch_bonded (fun S => S.terminate p) (fun S => S.terminate p) fun m hm => ?_
    cases m with
    | landweber x => exact .wrapped (fun _ => trivial) x (.pure _)
    | newton x => exact .wrapped (fun _ => trivial) x (.pure _)
    | steepestDescent x => exact .wrapped (fun _ => trivial) x (.pure _)
    | quasiNewton x =>
      exact .wrapped (fun _ => trivial) x ((QuasiNewton.joined h _).terminate p)
    | lineSearch x =>
      exact .wrapped (fun _ => trivial) x ((LineSearch.bonded_workspace h).terminate p)
    | dogleg x => exact .wrapped (fun _ => trivial) x (.pure _)
    | trustRegion x =>
      exact .wrapped (fun _ => trivial) x ((TrustRegion.joined h _).terminate p)
    | script x => exact hm.elim

end Minimization
