import Minimization.Proofs.Coupling.Alone
import Minimization.Proofs.LineSearch.Renewal

namespace Minimization

/-!
# Methods between two steps

What a method keeps from step to step is little: the quasi-Newton method its inverse Hessian, and the
methods with a line search the settings of that.  A step that fails keeps it, and a step that succeeds
looks at nothing else.

* `Method.Stateless`, `Method.resting` — the methods without a radius or a script, and what they keep.
* `Method.solver_of_init`, `Method.resting_of_step_failed`, `Method.step_of_resting` — what an
  initialisation, a step that fails and a step that succeeds do with that.
* `Method.Lasting`, `Method.Lasting.bonded` — a class of methods that a run does not leave, beside
  themselves; `Method.lasting_stateless` — these methods are such a class.
* `Method.StatelessLike` — what such a method stays, whatever it does.
-/

variable {ω α : Type}

/-- The methods that keep nothing of a step but an inverse Hessian. -/
def Method.Stateless : Method α → Prop
  | .landweber _ => True
  | .newton _ => True
  | .steepestDescent _ => True
  | .quasiNewton _ => True
  | _ => False

/-- They are methods of the library. -/
theorem Method.Stateless.builtIn {m : Method α} (h : m.Stateless) : m.BuiltIn := by
  cases m with
  | script s => exact h.elim
  | _ => trivial

/-- A method stays what it is. -/
theorem Method.stateless_dispatch [Scalar α] {β : Type}
    (act : {σ : Type} → Solver σ ω α → Action (Workspace σ ω) α β) (w : Workspace (Method α) ω)
    (hm : w.solver.Stateless) : ((Method.dispatch act).exec w).2.solver.Stateless := by
  obtain ⟨m, t⟩ := w
  rw [Method.exec_dispatch]
  -- A dispatch never turns one method into another.
  cases m with
  | landweber s => trivial
  | newton s => trivial
  | steepestDescent s => trivial
  | quasiNewton s => trivial
  | lineSearch s => exact hm.elim
  | dogleg s => exact hm.elim
  | trustRegion s => exact hm.elim
  | script s => exact hm.elim

/-- The quasi-Newton method. -/
def Method.IsQuasiNewton : Method α → Prop
  | .quasiNewton _ => True
  | _ => False

/-- A method does not become the quasi-Newton method. -/
theorem Method.isQuasiNewton_of_dispatch [Scalar α] {β : Type}
    (act : {σ : Type} → Solver σ ω α → Action (Workspace σ ω) α β) (w : Workspace (Method α) ω)
    (h : ((Method.dispatch act).exec w).2.solver.IsQuasiNewton) : w.solver.IsQuasiNewton := by
  obtain ⟨m, t⟩ := w
  rw [Method.exec_dispatch] at h
  cases m with
  | quasiNewton s => trivial
  | _ => exact h

/-- One of these methods, and the quasi-Newton method only if `m` is. -/
def Method.StatelessLike (m m' : Method α) : Prop :=
  m'.Stateless ∧ (m'.IsQuasiNewton → m.IsQuasiNewton)

/-- Whatever such a method does, in whatever way it ends. -/
theorem Method.StatelessLike.of_dispatch [Scalar α] {β : Type}
    (act : {σ : Type} → Solver σ ω α → Action (Workspace σ ω) α β) {m : Method α}
    {w v : Workspace (Method α) ω} {x : Except (Failure α) β} (hw : m.StatelessLike w.solver)
    (h : (Method.dispatch act).exec w = (x, v)) : m.StatelessLike v.solver := by
  obtain rfl : ((Method.dispatch act).exec w).2 = v := congrArg Prod.snd h
  exact ⟨stateless_dispatch act w hw.1, fun hv => hw.2 (isQuasiNewton_of_dispatch act w hv)⟩

/-- A method with nothing in it that a search has left. -/
def Method.resting : Method α → Method α
  | .steepestDescent s => .steepestDescent s.blank
  | .quasiNewton s => .quasiNewton ⟨s.inverseHessian, s.search.blank⟩
  | m => m

variable [Scalar α] {A : Setting ω α} {p : Progress α}

/-- An initialisation leaves the method as it is, whether it succeeds or fails. -/
theorem Method.solver_of_init (A : Setting ω α) (p : Progress α) {w : Workspace (Method α) ω}
    (hm : w.solver.Stateless) : ((Method.solver.init A p).exec w).2.solver = w.solver := by
  obtain ⟨m, t⟩ := w
  rw [Method.exec_init]
  cases m with
  | landweber s => rfl
  | newton s => rfl
  | steepestDescent s => rfl
  -- The other methods have no initialisation; that of the quasi-Newton method does not write to the
  -- solver.
  | quasiNewton s =>
    exact congrArg Method.quasiNewton (((QuasiNewton.joined A.operator.keeps_nothing.hosts.toAbreast
      (· = s)).init p).kept (w := ⟨s, t⟩) trivial rfl).2
  | lineSearch s => exact hm.elim
  | dogleg s => exact hm.elim
  | trustRegion s => exact hm.elim
  | script s => exact hm.elim

/-- A class of built-in methods that they do not leave. -/
structure Method.Lasting (I : Method α → Prop) : Prop where
  builtIn : ∀ {m}, I m → m.BuiltIn
  dispatch : ∀ {ω β : Type} (act : {σ : Type} → Solver σ ω α → Action (Workspace σ ω) α β)
    (w : Workspace (Method α) ω), I w.solver → I ((Method.dispatch act).exec w).2.solver

/-- The methods of such a class keep to a bond, nested runs included. -/
theorem Method.Lasting.bonded {I : Method α → Prop} (hI : Method.Lasting I) {ω' : Type}
    {B D : Bond (Session ω) (Session ω')} {A' : Setting ω' α} (hB : Abreast B A A')
    (hnest : B.Nests D) (h : Hosts D A A') :
    (Method.solver (ω := ω) (α := α)).Bonded (B.keeping I) A A' Method.solver where
  name := rfl
  init p := ((Method.bonded hB hnest h).init p).narrow (fun _ => hI.builtIn)
    (hI.dispatch fun S => S.init A p)
  step p := ((Method.bonded hB hnest h).step p).narrow (fun _ => hI.builtIn)
    (hI.dispatch fun S => S.step A p)
  terminate p := ((Method.bonded hB hnest h).terminate p).narrow (fun _ => hI.builtIn)
    (hI.dispatch fun S => S.terminate p)

/-- The methods that keep little are such a class. -/
theorem Method.lasting_stateless : Method.Lasting (Method.Stateless (α := α)) where
  builtIn := Stateless.builtIn
  dispatch := stateless_dispatch

/-- **A step that fails** keeps what the method keeps. -/
theorem Method.resting_of_step_failed {e : Failure α} {w v : Workspace (Method α) ω}
    (hm : w.solver.Stateless) (h : (Method.solver.step A p).exec w = (.error e, v)) :
    v.solver.resting = w.solver.resting := by
  have hhosts := A.operator.keeps_nothing.hosts
  obtain ⟨m, t⟩ := w
  rw [Method.exec_step] at h
  obtain rfl : _ = v := congrArg Prod.snd h
  -- A fixed step never writes to its solver; steepest descent only moves its search, which resting puts
  -- aside; the quasi-Newton method assigns its inverse Hessian last.
  cases m with
  | landweber s =>
    exact congrArg Method.landweber (((Landweber.bonded hhosts.toAbreast (· = s)).step p).kept
      (w := ⟨s, t⟩) trivial rfl).2
  | newton s =>
    exact congrArg Method.newton (((Newton.bonded hhosts.toAbreast (· = s)).step p).kept
      (w := ⟨s, t⟩) trivial rfl).2
  | steepestDescent s => exact congrArg Method.steepestDescent (SteepestDescent.blank_step A p ⟨s, t⟩)
  | quasiNewton s =>
    have hblank := QuasiNewton.blank_step A p ⟨s, t⟩
    rcases hstep : (QuasiNewton.solver.step A p).exec ⟨s, t⟩ with ⟨e' | report, u⟩
    · have hinverse := QuasiNewton.inverseHessian_of_step_failed hstep
      rw [hstep] at hblank
      have hresting : (⟨u.solver.inverseHessian, u.solver.search.blank⟩ : QuasiNewton α) =
          ⟨s.inverseHessian, s.search.blank⟩ := by rw [hinverse, hblank]
      have hsolver : ((Method.acting (fun S => S.step A p) (.quasiNewton s)).exec
          ⟨.quasiNewton s, t⟩).2.solver =
            .quasiNewton ((QuasiNewton.solver.step A p).exec ⟨s, t⟩).2.solver :=
        rfl
      rw [hsolver, hstep]
      exact congrArg Method.quasiNewton hresting
    · have hok : ((QuasiNewton.solver.step A p).exec ⟨s, t⟩).1 = .error e := congrArg Prod.fst h
      rw [hstep] at hok
      cases hok
  | lineSearch s => exact hm.elim
  | dogleg s => exact hm.elim
  | trustRegion s => exact hm.elim
  | script s => exact hm.elim

/-- A step that starts anew does so inside the method at hand. -/
theorem Method.step_of_renews {σ κ : Type} {wrap : σ → Method α} {S : Solver σ ω α} {view : σ → κ}
    (hexec : ∀ x t, (Method.solver.step A p).exec ⟨wrap x, t⟩ = (((S.step A p).exec ⟨x, t⟩).1,
      ⟨wrap ((S.step A p).exec ⟨x, t⟩).2.solver, ((S.step A p).exec ⟨x, t⟩).2.session⟩))
    (h : Renews view (S.step A p)) {x x' : σ} (hview : view x' = view x) {t : Session ω}
    {report : Report α} {v : Workspace (Method α) ω}
    (hok : (Method.solver.step A p).exec ⟨wrap x, t⟩ = (.ok report, v)) :
    (Method.solver.step A p).exec ⟨wrap x', t⟩ = (.ok report, v) := by
  rw [hexec] at hok ⊢
  obtain ⟨hreport, rfl⟩ := Prod.mk.inj hok
  -- A step sees its solver through the view only, and a successful one renews the rest.
  rw [h hview (Prod.ext hreport rfl)]

/-- **A step that succeeds** depends on what the method keeps alone. -/
theorem Method.step_of_resting {m m' : Method α} (hm : m.Stateless) (h : m'.resting = m.resting)
    {t : Session ω} {report : Report α} {v : Workspace (Method α) ω}
    (hok : (Method.solver.step A p).exec ⟨m, t⟩ = (.ok report, v)) :
    (Method.solver.step A p).exec ⟨m', t⟩ = (.ok report, v) := by
  -- Methods that rest alike are of the same kind.
  cases m with
  | landweber s =>
    cases m' with
    | landweber s' =>
      obtain rfl : s' = s := Method.landweber.inj h
      exact hok
    | _ => cases h
  | newton s =>
    cases m' with
    | newton s' =>
      obtain rfl : s' = s := Method.newton.inj h
      exact hok
    | _ => cases h
  | steepestDescent s =>
    cases m' with
    | steepestDescent s' =>
      exact step_of_renews (fun x t => exec_step A p ⟨.steepestDescent x, t⟩)
        (SteepestDescent.step_sees p).renews
        (Method.steepestDescent.inj h) hok
    | _ => cases h
  | quasiNewton s =>
    cases m' with
    | quasiNewton s' =>
      obtain ⟨hinverse, hblank⟩ := QuasiNewton.mk.inj (Method.quasiNewton.inj h)
      exact step_of_renews (fun x t => exec_step A p ⟨.quasiNewton x, t⟩)
        (QuasiNewton.step_sees p).renews (Prod.ext hinverse hblank) hok
    | _ => cases h
  | lineSearch s => exact hm.elim
  | dogleg s => exact hm.elim
  | trustRegion s => exact hm.elim
  | script s => exact hm.elim

end Minimization
