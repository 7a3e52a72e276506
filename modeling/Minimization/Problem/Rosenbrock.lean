import Minimization.Operator.Basic
import Minimization.Tensor.Product

namespace Minimization.Rosenbrock

/-!
# The Rosenbrock function

The chained form `Σ (a - xᵢ)² + b (xᵢ₊₁ - xᵢ²)²` over neighbouring entries; for positive `b` it has
its minimum at `(a, a², …)`.

* `cost`, `gradient`, `hessian` — the function and its derivatives on lists of entries.
* `costAt`, `gradientAt`, `hessianAt` — the same on tensors.  The parts along the first axis take
  the part of the entries; only a vector has a Hessian.
* `operator` — the function as an operator.
-/

variable {α : Type} [Scalar α]

/-- The usual constants, with the minimum at `(1, 1, …)`. -/
def usualA : α := 1.0
def usualB : α := 100.0

/-- The term of two neighbouring entries. -/
def term (a b x y : α) : α :=
  (a - x) * (a - x) + b * ((y - x * x) * (y - x * x))

/-- The function value; neighbours are `width` entries apart. -/
def cost (a b : α) (width : Nat) (xs : List α) : α :=
  Scalar.sum (List.zipWith (term a b) xs (xs.drop width))

/-- The distance of an entry from the square of the entry before it. -/
def gap (x y : α) : α := y - x * x

/-- Derivative of a term by its first entry. -/
def termByFirst (a b x y : α) : α := -2.0 * (a - x) - 4.0 * b * x * gap x y

/-- Derivative of a term by its second entry. -/
def termBySecond (b x y : α) : α := 2.0 * b * gap x y

/-- The gradient: every entry is the first of one term and the second of another one, but for the
    `width` entries at either end. -/
def gradient (a b : α) (width : Nat) (xs : List α) : List α :=
  if xs.isEmpty then []
  else
    let none := List.replicate width 0.0
    List.zipWith (· + ·)
      (List.zipWith (fun x y => 0.0 + termByFirst a b x y) xs (xs.drop width) ++ none)
      (none ++ List.zipWith (termBySecond b) xs (xs.drop width))

/-- The second derivatives by one and the same entry. -/
def diagonal (b : α) (xs : List α) : List α :=
  if xs.isEmpty then []
  else
    List.zipWith (· + ·)
      (List.zipWith (fun x y => 0.0 + (2.0 + 12.0 * b * (x * x) - 4.0 * b * y)) xs xs.tail ++ [0.0])
      (0.0 :: xs.tail.map fun _ => 2.0 * b)

/-- The second derivatives by neighbouring entries. -/
def offDiagonal (b : α) (xs : List α) : List α := (xs.dropLast).map fun x => -4.0 * b * x

/-- One entry of a symmetric matrix with three diagonals. -/
def tridiagonal (main off : List α) (i j : Nat) : α :=
  if i = j then main.getD i 0.0
  else if j = i + 1 then off.getD i 0.0
  else if i = j + 1 then off.getD j 0.0
  else 0.0

/-- The Hessian, row after row. -/
def hessian (b : α) (xs : List α) : List (List α) :=
  let main := diagonal b xs
  let off := offDiagonal b xs
  (List.range xs.length).map fun i =>
    (List.range xs.length).map fun j => tridiagonal main off i j

/-! ### On tensors -/

/-- The function value, with the parts along the first axis as neighbours. -/
def costAt (a b : α) (x : Tensor α) : Except (Failure α) α :=
  if x.shape.isEmpty then .error .indexOutOfRange else .ok (cost a b x.stride x.entries)

/-- The gradient, in the shape of the point. -/
def gradientAt (a b : α) (x : Tensor α) : Except (Failure α) (Tensor α) :=
  if x.shape.isEmpty then .error .indexOutOfRange
  else .ok ⟨.array, x.shape, gradient a b x.stride x.entries⟩

/-- The Hessian at a vector. -/
def hessianAt (b : α) (x : Tensor α) : Except (Failure α) (Tensor α) :=
  match x.shape with
  | [] => .error .indexOutOfRange
  | [n] => .ok (.matrix .array n (hessian b x.entries))
  | _ => .error (.shapes .array)

/-- The function as an operator. -/
def operator {ω : Type} (a b : α) : Operator ω α where
  name := "Rosenbrock"
  cost? := some fun x => Action.ofExcept (costAt a b x)
  gradient? := some fun x => Action.ofExcept (gradientAt a b x)
  hessian? := some fun x => Action.ofExcept (hessianAt b x)

end Minimization.Rosenbrock
