import Minimization.Backend.Operations
import Minimization.Operator.Basic

namespace Minimization.Differences

/-!
# Derivatives by central differences

* `gradient` — two evaluations per entry.
* `hessian` — one evaluation at the point, two per entry and four per pair of entries.
* `operator` — an operator whose derivatives are approximations.

The step is added to one part along the first axis at a time.  A vector has as many such parts as
entries; a matrix with several columns runs out of rows.  Points and derivatives are general arrays.
-/

variable {ω α : Type} [Scalar α]

/-- A function whose evaluations may change the host, and may fail. -/
abbrev Function (ω α : Type) := Tensor α → Action (Host ω) α α

/-- The array that holds the step at one position of the first axis and zeros elsewhere. -/
def unit (x : Tensor α) (i : Nat) (step : α) : Except (Failure α) (Tensor α) :=
  if i < x.shape.headD 0 then
    let marked (j : Nat) : α := if j / x.stride = i then step else 0.0
    .ok ⟨.array, x.shape, (List.range x.size).map marked⟩
  else .error .indexOutOfRange

/-- The sum of two tensors of one shape. -/
def plus (x y : Tensor α) : Action (Host ω) α (Tensor α) := Action.ofExcept (Backend.add x y)

/-- The difference of two tensors of one shape. -/
def minus (x y : Tensor α) : Action (Host ω) α (Tensor α) := Action.ofExcept (Backend.sub x y)

/-- A unit vector as an action. -/
def unitOf (x : Tensor α) (i : Nat) (step : α) : Action (Host ω) α (Tensor α) :=
  Action.ofExcept (unit x i step)

/-- The step must be positive. -/
def checkStep (step : α) : Except (Failure α) Unit :=
  if Scalar.le step 0.0 then .error (.invalid .differenceStep) else .ok ()

/-- The difference quotient by one entry. -/
def slope (f : Function ω α) (x : Tensor α) (step : α) (i : Nat) : Action (Host ω) α α := do
  let e ← unitOf x i step
  let right ← f (← plus x e)
  let left ← f (← minus x e)
  return (right - left) / (2.0 * step)

/-- The gradient, in the shape of the point. -/
def gradient (f : Function ω α) (x : Tensor α) (step : α) : Action (Host ω) α (Tensor α) := do
  Action.ofExcept (checkStep step)
  let x := x.onBackend .array
  return ⟨.array, x.shape, ← (List.range x.size).mapM (slope f x step)⟩

/-- A quotient whose divisor must not vanish. -/
def quotient (x y : α) : Except (Failure α) α :=
  if Scalar.eq y 0.0 then .error .divisionByZero else .ok (x / y)

/-- The square of a step, which must not overflow. -/
def squaredStep (step : α) : Except (Failure α) α :=
  match Scalar.square? step with
  | some s => .ok s
  | none => .error .overflow

/-- The second difference quotient by one entry. -/
def bend (f : Function ω α) (x : Tensor α) (center step : α) (i : Nat) :
    Action (Host ω) α α := do
  let e ← unitOf x i step
  let right ← f (← plus x e)
  let left ← f (← minus x e)
  Action.ofExcept do quotient (right - 2.0 * center + left) (← squaredStep step)

/-- The second difference quotient by two entries. -/
def twist (f : Function ω α) (x : Tensor α) (step : α) (i j : Nat) : Action (Host ω) α α := do
  let ei ← unitOf x i step
  let ej ← unitOf x j step
  -- The four corners of a square around the point.
  let a ← f (← plus (← plus x ei) ej)
  let b ← f (← minus (← plus x ei) ej)
  let c ← f (← plus (← minus x ei) ej)
  let d ← f (← minus (← minus x ei) ej)
  Action.ofExcept do quotient (a - b - c + d) (4.0 * (← squaredStep step))

/-- One row of the Hessian from the diagonal on. -/
def upperRow (f : Function ω α) (x : Tensor α) (center step : α) (n i : Nat) :
    Action (Host ω) α (List α) := do
  let first ← bend f x center step i
  let rest ← ((List.range n).drop (i + 1)).mapM (twist f x step i)
  return first :: rest

/-- The symmetric matrix with the given rows from the diagonal on. -/
def symmetric (upper : List (List α)) (i j : Nat) : α :=
  (upper.getD (min i j) []).getD (max i j - min i j) 0.0

/-- The Hessian. -/
def hessian (f : Function ω α) (x : Tensor α) (step : α) : Action (Host ω) α (Tensor α) := do
  Action.ofExcept (checkStep step)
  let x := x.onBackend .array
  let n := x.size
  -- One evaluation at the point serves all entries of the diagonal.
  let center ← f x
  let upper ← (List.range n).mapM (upperRow f x center step n)
  return .matrix .array n ((List.range n).map fun i => (List.range n).map (symmetric upper i))

/-- The steps that are taken unless others are given. -/
def gradientStep : α := 1e-6
def hessianStep : α := 1e-4

/-- A function with approximate derivatives as an operator. -/
def operator (f : Function ω α) (gradientStep hessianStep : α) : Operator ω α where
  name := "Problem"
  cost? := some f
  gradient? := some fun x => gradient f x gradientStep
  hessian? := some fun x => hessian f x hessianStep

end Minimization.Differences
