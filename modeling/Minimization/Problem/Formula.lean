import Minimization.Operator.Basic
import Minimization.Tensor.Nested

namespace Minimization

/-!
# Functions given by formulas

* `Formula` — an arithmetic expression in the entries of a point.  It may also depend on the number
  of the call, fail, or ask the run to stop.
* `Formula.eval` — operands are evaluated from the left.
* `FormulaProblem` — formulas for cost, gradient, Hessian and Jacobian, each with its own count of
  calls.
-/

/-- An expression in the entries of a point. -/
inductive Formula (α : Type) where
  | number (x : α)
  /-- An entry of the point; negative positions count from the end. -/
  | entry (i : Int)
  /-- The number of the current call, counted from one. -/
  | call
  | add (a b : Formula α)
  | sub (a b : Formula α)
  | mul (a b : Formula α)
  | div (a b : Formula α)
  | neg (a : Formula α)
  | abs (a : Formula α)
  | sqrt (a : Formula α)
  | exp (a : Formula α)
  /-- The third expression if the first is at most the second, else the fourth. -/
  | ifLe (a b t e : Formula α)
  | fail (text : String)
  /-- Delivers an interrupt before the value is computed. -/
  | interrupt (a : Formula α)
deriving Repr

namespace Formula

variable {ω α : Type} [Scalar α]

/-- An entry of a point. -/
def entryAt (xs : List α) (i : Int) : Except (Failure α) α :=
  let position := if i < 0 then i + xs.length else i
  if position < 0 then .error .indexOutOfRange
  else
    match xs[position.toNat]? with
    | some x => .ok x
    | none => .error .indexOutOfRange

/-- The square root of a number that is not negative; all others have none. -/
def root (x : α) : α := if Scalar.le 0.0 x then Scalar.sqrt x else Scalar.notANumber

/-- The value of a formula at a point, in the given call. -/
def eval (xs : List α) (call : Nat) : Formula α → Action (Host ω) α α
  | .number x => pure x
  | .entry i => Action.ofExcept (entryAt xs i)
  | .call => pure (Scalar.ofNat call)
  | .add a b => do return (← eval xs call a) + (← eval xs call b)
  | .sub a b => do return (← eval xs call a) - (← eval xs call b)
  | .mul a b => do return (← eval xs call a) * (← eval xs call b)
  | .div a b => do return (← eval xs call a) / (← eval xs call b)
  | .neg a => do return -(← eval xs call a)
  | .abs a => do return Scalar.abs (← eval xs call a)
  | .sqrt a => do return root (← eval xs call a)
  | .exp a => do return Scalar.exp (← eval xs call a)
  | .ifLe a b t e => do
    let x ← eval xs call a
    let y ← eval xs call b
    if Scalar.le x y then eval xs call t else eval xs call e
  | .fail text => throw (.operator text)
  | .interrupt a => do
    Host.deliver
    eval xs call a

end Formula

/-- Formulas for the capabilities of an operator.  A missing derivative is a missing capability; a
    cost is asked for even if there is none. -/
structure FormulaProblem (α : Type) where
  /-- The family of the derivatives. -/
  backend : Backend
  cost : Option (Formula α) := none
  gradient : Option (List (Formula α)) := none
  hessian : Option (List (List (Formula α))) := none
  jacobian : Option (List (List (Formula α))) := none

namespace FormulaProblem

variable {α : Type} [Scalar α]

/-- Counts a call of a capability and carries it out with its number. -/
def called {β : Type} (k : Capability) (act : Nat → Action (Host Counts) α β) :
    Action (Host Counts) α β := do
  modify fun h => { h with memory := h.memory.tick k }
  act ((← get).memory.get k)

/-- The values of formulas as a vector. -/
def vector (b : Backend) (fs : List (Formula α)) (x : Tensor α) (call : Nat) :
    Action (Host Counts) α (Tensor α) := do
  return .vector b (← fs.mapM (Formula.eval x.entries call))

/-- The values of formulas as a matrix. -/
def matrix (b : Backend) (rows : List (List (Formula α))) (x : Tensor α) (call : Nat) :
    Action (Host Counts) α (Tensor α) := do
  let values ← rows.mapM fun row => row.mapM (Formula.eval x.entries call)
  Action.ofExcept (Tensor.ofRows b values)

/-- The cost, which cannot be computed without a formula. -/
def costAt (p : FormulaProblem α) (x : Tensor α) : Action (Host Counts) α α :=
  match p.cost with
  | some f => called .cost (Formula.eval x.entries · f)
  | none => throw .notANumber

/-- The formulas as an operator that remembers its calls. -/
def operator (p : FormulaProblem α) : Operator Counts α where
  name := "Problem"
  cost? := some p.costAt
  gradient? := p.gradient.map fun fs x => called .gradient (vector p.backend fs x)
  hessian? := p.hessian.map fun rows x => called .hessian (matrix p.backend rows x)
  jacobian? := p.jacobian.map fun rows x => called .jacobian (matrix p.backend rows x)

end FormulaProblem

end Minimization
