import Minimization.Backend.Operations
import Minimization.Logbook.Basic
import Minimization.Operator.Basic
import Minimization.Progress.Basic

namespace Minimization

/-!
# Sessions: evaluating an operator and counting it

* `Session` — what lasts from step to step: the operator's memory, the counts of the wrapper in use,
  the loggers.
* `Session.cost`, `Session.gradient`, `Session.hessian`, `Session.jacobian` — counted evaluations.
  The count goes up before the operator is asked, so a failing evaluation counts.
* `Setting` — what stays the same during a run.
* `Workspace` — a session together with the memory of a solver.
* `Workspace.nested` — a computation with counts of its own, which are added to the outer ones when
  it has come to its end, and are lost when it fails.
-/

/-- What lasts from step to step. -/
structure Session (ω : Type) where
  host : Host ω
  counts : Counts
  logbook : Logbook

/-- What stays the same during a run. -/
structure Setting (ω α : Type) where
  operator : Operator ω α
  /-- Extra checks after every iteration. -/
  debug : Bool

/-- A session and the memory of a solver. -/
structure Workspace (σ ω : Type) where
  solver : σ
  session : Session ω

namespace Session

variable {ω α β : Type}

/-- A session at its start. -/
def start (memory : ω) : Session ω := ⟨⟨memory, .unguarded⟩, .zero, .initial⟩

/-- Lets the operator act. -/
def onHost (m : Action (Host ω) α β) : Action (Session ω) α β :=
  m.focus (·.host) fun h s => { s with host := h }

/-- Counts an evaluation and carries it out. -/
def evaluate (capability : Capability) (m : Action (Host ω) α β) : Action (Session ω) α β := do
  modify fun s => { s with counts := s.counts.tick capability }
  onHost m

/-- The cost at a point. -/
def cost (op : Operator ω α) (x : Tensor α) : Action (Session ω) α α :=
  evaluate .cost (op.cost x)

/-- The gradient at a point. -/
def gradient (op : Operator ω α) (x : Tensor α) : Action (Session ω) α (Tensor α) :=
  evaluate .gradient (op.gradient x)

/-- The Hessian at a point. -/
def hessian (op : Operator ω α) (x : Tensor α) : Action (Session ω) α (Tensor α) :=
  evaluate .hessian (op.hessian x)

/-- The Jacobian at a point. -/
def jacobian (op : Operator ω α) (x : Tensor α) : Action (Session ω) α (Tensor α) :=
  evaluate .jacobian (op.jacobian x)

/-- Emits a log record. -/
def log (level : Int) (logger : String) (message : Unit → String) : Action (Session ω) α Unit :=
  modify fun s => { s with logbook := s.logbook.emit level logger message }

end Session

namespace Workspace

variable {σ τ ω α β : Type}

/-- Lets the session act. -/
def onSession (m : Action (Session ω) α β) : Action (Workspace σ ω) α β :=
  m.focus (·.session) fun s w => { w with session := s }

/-- Reads the memory of the solver. -/
def readSolver : Action (Workspace σ ω) α σ := do return (← get).solver

/-- Changes the memory of the solver. -/
def modifySolver (f : σ → σ) : Action (Workspace σ ω) α Unit :=
  modify fun w => { w with solver := f w.solver }

/-- Works on a part of the memory. -/
def within (part : σ → τ) (put : τ → σ → σ) (m : Action (Workspace τ ω) α β) :
    Action (Workspace σ ω) α β :=
  m.focus (fun w => ⟨part w.solver, w.session⟩) fun v w => ⟨put v.solver w.solver, v.session⟩

/-- Works with the memory `t`, one of the kinds of memory that `σ` wraps. -/
def wrapping (wrap : τ → σ) (t : τ) (m : Action (Workspace τ ω) α β) :
    Action (Workspace σ ω) α β :=
  m.focus (fun w => ⟨t, w.session⟩) fun v _ => ⟨wrap v.solver, v.session⟩

/-- Replaces the counts. -/
def withCounts (w : Workspace σ ω) (counts : Counts) : Workspace σ ω :=
  { w with session := { w.session with counts := counts } }

/-- Works on a fresh wrapper.  Its counts are added to the outer ones at the end; if the computation
    fails, they are lost. -/
def nested (m : Action (Workspace σ ω) α β) : Action (Workspace σ ω) α β :=
  .ofFun fun w =>
    match m.exec (w.withCounts .zero) with
    | (.ok b, v) => (.ok b, v.withCounts (w.session.counts + v.session.counts))
    -- What the nested wrapper counted is gone with it.
    | (.error e, v) => (.error e, v.withCounts w.session.counts)

end Workspace

end Minimization
