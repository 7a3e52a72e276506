import Minimization.Action
import Minimization.Tensor.Basic

namespace Minimization

/-!
# Operators: what a run minimises

An operator answers questions about a point.  Answering may change what the operator remembers, may
deliver an interrupt, and may fail.

* `Interrupt` — what a request of the user to stop does at the moment.
* `Host` — what an operator can touch: its memory and the interrupt.
* `Operator` — the questions an operator can answer.
-/

/-- How a request of the user to stop is received. -/
inductive Interrupt where
  /-- It ends the computation at once. -/
  | unguarded
  /-- It is noted down for the run to look at. -/
  | guarded (raised : Bool)
deriving Repr, DecidableEq

/-- What an operator can touch. -/
structure Host (ω : Type) where
  memory : ω
  interrupt : Interrupt

/-- The user asks to stop. -/
def Host.deliver {ω α : Type} : Action (Host ω) α Unit := do
  match (← get).interrupt with
  | .unguarded => throw .interrupted
  | .guarded _ => modify fun h => { h with interrupt := .guarded true }

/-- An operator with memory `ω` on points with entries `α`. -/
structure Operator (ω α : Type) where
  /-- The name that failures mention. -/
  name : String
  cost? : Option (Tensor α → Action (Host ω) α α) := none
  gradient? : Option (Tensor α → Action (Host ω) α (Tensor α)) := none
  hessian? : Option (Tensor α → Action (Host ω) α (Tensor α)) := none
  jacobian? : Option (Tensor α → Action (Host ω) α (Tensor α)) := none

namespace Operator

variable {ω α : Type}

/-- Answers a question, or fails because the capability is missing. -/
def ask {β : Type} (op : Operator ω α) (capability : Capability)
    (answer? : Option (Tensor α → Action (Host ω) α β)) (x : Tensor α) : Action (Host ω) α β :=
  match answer? with
  | some answer => answer x
  | none => throw (.unsupported op.name capability)

/-- The cost at a point. -/
def cost (op : Operator ω α) (x : Tensor α) : Action (Host ω) α α := op.ask .cost op.cost? x

/-- The gradient at a point. -/
def gradient (op : Operator ω α) (x : Tensor α) : Action (Host ω) α (Tensor α) :=
  op.ask .gradient op.gradient? x

/-- The Hessian at a point. -/
def hessian (op : Operator ω α) (x : Tensor α) : Action (Host ω) α (Tensor α) :=
  op.ask .hessian op.hessian? x

/-- The Jacobian at a point. -/
def jacobian (op : Operator ω α) (x : Tensor α) : Action (Host ω) α (Tensor α) :=
  op.ask .jacobian op.jacobian? x

end Operator

end Minimization
