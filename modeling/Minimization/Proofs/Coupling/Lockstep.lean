import Minimization.Proofs.Coupling.Abreast

namespace Minimization

/-!
# Solvers side by side

The solvers of the library touch an operator through counted evaluations only, and the loggers by
writing lines.  If these keep to a coupling of sessions, then so does every solver.

* `Lockstep` — evaluations and log lines keep to a coupling.
* `Solver.Attends`, `Solver.Follows` — a solver keeps to a coupling of workspaces, outside its steps
  or all the time.
* `Lockstep.abreast`, `Solver.Bonded.follows` — a coupling is a bond, and what is known of bonds holds
  of it.
* `Landweber.follows`, `Newton.follows`, `Dogleg.follows`, `LineSearch.follows` — solvers that run
  no other solver.
* `TrustRegion.follows` — a solver that does; its steps keep to a coupling if the nested run does.
* `Method.dispatch_related`, `Method.attends` — the method at hand, unless it is a script.
-/

variable {σ ω ω' α β : Type}

/-- Relations between sessions that only look at what all runs have, and let it change. -/
structure Frame (R : Session ω → Session ω' → Prop) : Prop where
  logbook : ∀ {s t}, R s t → t.logbook = s.logbook
  relog : ∀ {s t}, R s t → ∀ b : Logbook, R { s with logbook := b } { t with logbook := b }
  interrupt : ∀ {s t}, R s t → t.host.interrupt = s.host.interrupt
  receive : ∀ {s t}, R s t → ∀ i : Interrupt, R { s with host := { s.host with interrupt := i } }
    { t with host := { t.host with interrupt := i } }

/-- Sessions under two settings keep to a coupling, whatever a solver does in them. -/
structure Lockstep (C : Coupling (Session ω) (Session ω')) (A : Setting ω α) (A' : Setting ω' α) :
    Prop where
  debug : A'.debug = A.debug
  cost : ∀ x, C.Related (Session.cost A.operator x) (Session.cost A'.operator x)
  gradient : ∀ x, C.Related (Session.gradient A.operator x) (Session.gradient A'.operator x)
  hessian : ∀ x, C.Related (Session.hessian A.operator x) (Session.hessian A'.operator x)
  counts : ∀ {s t}, C.states s t → t.counts = s.counts
  states : Frame C.states
  failed : Frame C.failed

/-- Before the first iteration and after every one, a solver keeps to a coupling. -/
structure Solver.Attends (W : Coupling (Workspace σ ω) (Workspace σ ω')) (A : Setting ω α)
    (A' : Setting ω' α) (S : Solver σ ω α) (S' : Solver σ ω' α) : Prop where
  name : S'.name = S.name
  init : ∀ p, W.Related (S.init A p) (S'.init A' p)
  terminate : ∀ p, W.Related (S.terminate p) (S'.terminate p)

/-- A solver keeps to a coupling all the time, whichever of the two settings it works in. -/
structure Solver.Follows (W : Coupling (Workspace σ ω) (Workspace σ ω')) (A : Setting ω α)
    (A' : Setting ω' α) (S : Solver σ ω α) (S' : Solver σ ω' α) : Prop
    extends S.Attends W A A' S' where
  step : ∀ p, W.Related (S.step A p) (S'.step A' p)

variable {C : Coupling (Session ω) (Session ω')} {A : Setting ω α} {A' : Setting ω' α}

/-- Both sides write the same line. -/
theorem Lockstep.log (h : Lockstep C A A') (level : Int) (logger : String)
    (message : Unit → String) :
    C.Related (Session.log level logger message : Action (Session ω) α Unit)
      (Session.log level logger message) := by
  refine Coupling.Related.modify ?_
  intro s t hst
  rw [h.states.logbook hst]
  exact h.states.relog hst _

/-- A coupling is a bond in which neither side fails alone. -/
theorem Lockstep.abreast (h : Lockstep C A A') : Abreast C.bond A A' where
  cost x := Bond.related_bond_iff.2 (h.cost x)
  gradient x := Bond.related_bond_iff.2 (h.gradient x)
  hessian x := Bond.related_bond_iff.2 (h.hessian x)
  log level logger message := Bond.related_bond_iff.2 (h.log level logger message)

section
variable {I : σ → Prop} {S : Solver σ ω α} {S' : Solver σ ω' α}

/-- A solver that keeps to the bond outside its steps keeps to the coupling there. -/
theorem Solver.Joined.attends (h : S.Joined (C.bond.keeping I) A A' S') :
    S.Attends (C.keeping I) A A' S' :=
  ⟨h.name, fun p => (h.init p).coupled, fun p => (h.terminate p).coupled⟩

/-- One that keeps to the bond all the time keeps to the coupling. -/
theorem Solver.Bonded.follows (h : S.Bonded (C.bond.keeping I) A A' S') :
    S.Follows (C.keeping I) A A' S' :=
  ⟨h.toJoined.attends, fun p => (h.step p).coupled⟩

end

variable [Scalar α]

/-! ### The solvers of the library -/

/-- Landweber iteration in lockstep. -/
theorem Landweber.follows (h : Lockstep C A A') :
    (Landweber.solver (ω := ω)).Follows (C.workspace _) A A' Landweber.solver :=
  (Landweber.bonded h.abreast _).follows

/-- Newton's method in lockstep. -/
theorem Newton.follows (h : Lockstep C A A') :
    (Newton.solver (ω := ω)).Follows (C.workspace _) A A' Newton.solver :=
  (Newton.bonded h.abreast _).follows

/-- The dogleg method in lockstep. -/
theorem Dogleg.follows (h : Lockstep C A A') :
    (Dogleg.solver (ω := ω)).Follows (C.workspace _) A A' Dogleg.solver :=
  (Dogleg.bonded h.abreast _).follows

/-- Line searches in lockstep. -/
theorem LineSearch.follows (h : Lockstep C A A') :
    (LineSearch.solver (ω := ω)).Follows (C.workspace _) A A' LineSearch.solver :=
  (LineSearch.bonded_workspace h.abreast).follows

/-- What follows the search of a quasi-Newton step. -/
theorem QuasiNewton.learn_related (h : Lockstep C A A') (x oldGradient inverse : Tensor α)
    (found : Progress α) : (C.workspace _).Related (QuasiNewton.learn A x oldGradient inverse found)
      (QuasiNewton.learn A' x oldGradient inverse found) :=
  (QuasiNewton.learn_bonded (I := fun _ => True) h.abreast x oldGradient inverse found).coupled

/-- A trust-region method in lockstep, if the run inside its steps is. -/
theorem TrustRegion.follows (h : Lockstep C A A')
    (hrun : ∀ x g hess, (C.workspace _).Related (TrustRegion.subproblemStep A x g hess)
      (TrustRegion.subproblemStep A' x g hess)) :
    (TrustRegion.solver (ω := ω) (α := α)).Follows (C.workspace _) A A' TrustRegion.solver :=
  (TrustRegion.bonded h.abreast fun x g hess => (hrun x g hess).bonded).follows

/-! ### The method at hand -/

/-- Methods with a property keep to a coupling if each of them does and stays one of them. -/
theorem Method.dispatch_related {I : Method α → Prop}
    (act : {σ : Type} → Solver σ ω α → Action (Workspace σ ω) α β)
    (act' : {σ : Type} → Solver σ ω' α → Action (Workspace σ ω') α β)
    (h : ∀ m, I m → (C.keeping I).Related (Method.acting act m) (Method.acting act' m)) :
    (C.keeping I).Related (Method.dispatch act) (Method.dispatch act') := by
  intro w v hwv
  have hmemory : v.solver = w.solver := by rw [hwv.2.2]
  rw [Method.exec_dispatch, Method.exec_dispatch, hmemory]
  exact h w.solver hwv.2.1 hwv

/-- Before the first iteration and after every one, every built-in method keeps to a coupling. -/
theorem Method.attends (h : Lockstep C A A') :
    (Method.solver (ω := ω) (α := α)).Attends (C.keeping Method.BuiltIn) A A' Method.solver :=
  (Method.joined h.abreast).attends

end Minimization
