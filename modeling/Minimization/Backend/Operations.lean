import Minimization.Failure
import Minimization.Tensor.Inverse

namespace Minimization.Backend

/-!
# The operations that solvers are written in

Every update rule of a solver is a composition of the operations below.  On shapes that fit together
the two backends agree; where they do not, each fails in its own way.

* `add`, `sub`, `scale`, `scaledAdd`, `scaledSub` — entry by entry.
* `dot`, `norm`, `weightedDot` — numbers.
* `apply`, `outer`, `transpose`, `eyeLike`, `inv` — matrices.

Sums, differences and products of a strict tensor and a general array follow the rules of arrays, if
the strict tensor stands on the left; the operations that belong to strict tensors alone refuse
arrays.
-/

variable {α : Type}

/-- A result that exists only if shapes fit. -/
def fit {β : Type} (b : Backend) : Option β → Except (Failure α) β
  | some x => .ok x
  | none => .error (.shapes b)

/-- The rules for an operation between two tensors. -/
def between (x y : Tensor α) : Except (Failure α) Backend :=
  match x.backend, y.backend with
  | .array, .tensor => .error .notANumber
  | .tensor, .array => .ok .array
  | b, _ => .ok b

/-- Tensors of one family may always be combined. -/
theorem between_of_eq {x y : Tensor α} {b : Backend} (hx : x.backend = b) (hy : y.backend = b) :
    between x y = .ok b := by
  cases b <;> simp [between, hx, hy]

/-- A tensor as a backend takes it: general arrays convert, strict tensors refuse arrays. -/
def take (b : Backend) (x : Tensor α) : Except (Failure α) (Tensor α) :=
  match b, x.backend with
  | .array, _ => .ok (x.onBackend .array)
  | .tensor, .tensor => .ok x
  | .tensor, .array => .error .notANumber

/-- A tensor of the family is taken as it is. -/
theorem take_of_eq {b : Backend} {x : Tensor α} (h : x.backend = b) : b.take x = .ok x := by
  cases x
  cases b <;> simp_all [take, Tensor.onBackend]

/-- An array for the operations that general arrays convert their arguments for. -/
def convert (b : Backend) (x : Tensor α) : Tensor α :=
  match b with
  | .array => x.onBackend .array
  | .tensor => x

variable [Scalar α]

/-- The sum of two tensors. -/
def add (x y : Tensor α) : Except (Failure α) (Tensor α) := do
  (← between x y).fit (x.combine? (· + ·) y)

/-- The difference of two tensors. -/
def sub (x y : Tensor α) : Except (Failure α) (Tensor α) := do
  (← between x y).fit (x.combine? (· - ·) y)

/-- The entrywise product of two tensors. -/
def mul (x y : Tensor α) : Except (Failure α) (Tensor α) := do
  (← between x y).fit (x.combine? (· * ·) y)

/-- Every entry times a number. -/
def scale (b : Backend) (x : Tensor α) (factor : α) : Tensor α := (b.convert x).map (· * factor)

/-- `x + factor * y` -/
def scaledAdd (b : Backend) (x : Tensor α) (factor : α) (y : Tensor α) :
    Except (Failure α) (Tensor α) :=
  add (b.convert x) ((b.convert y).map (factor * ·))

/-- `x - factor * y` -/
def scaledSub (b : Backend) (x : Tensor α) (factor : α) (y : Tensor α) :
    Except (Failure α) (Tensor α) :=
  sub (b.convert x) ((b.convert y).map (factor * ·))

/-- The product of a matrix with a vector or a matrix; numbers are no factors. -/
def apply (m v : Tensor α) : Except (Failure α) (Tensor α) := do
  (← between m v).fit (m.product? v)

/-- The inner product of general arrays, which must be a number: one position is left. -/
def contract (x y : Tensor α) : Except (Failure α) α :=
  match Tensor.contracted? x.shape y.shape with
  | none => .error (.shapes .array)
  | some shape =>
    if volume shape ≠ 1 then .error .notANumber
    -- A number is a factor, and no sum is formed.
    else if x.shape = [] ∨ y.shape = [] then
      match x.entries, y.entries with
      | [p], [q] => .ok (p * q)
      | _, _ => .error .notANumber
    else .ok (Scalar.inner x.entries y.entries)

/-- The inner product.  General arrays multiply as far as they can and then want a number; strict
    tensors flatten both sides first. -/
def dot (b : Backend) (x y : Tensor α) : Except (Failure α) α := do
  let x ← b.take x
  let y ← b.take y
  match b with
  | .array => contract x y
  | .tensor =>
    if x.entries.length = y.entries.length then return Scalar.inner x.entries y.entries
    else throw (.shapes b)

/-- The square root of the sum of squares. -/
def norm (b : Backend) (x : Tensor α) : Except (Failure α) α := do return (← b.take x).norm

/-- `x · (m y)` -/
def weightedDot (b : Backend) (x m y : Tensor α) : Except (Failure α) α := do
  b.dot x (← apply m y)

/-- The matrix of all products.  General arrays flatten both sides, strict tensors want vectors. -/
def outer (b : Backend) (x y : Tensor α) : Except (Failure α) (Tensor α) := do
  let x ← b.take x
  let y ← b.take y
  if b = .array ∨ (x.shape.length = 1 ∧ y.shape.length = 1) then
    return Tensor.outer b x.entries y.entries
  else throw (.shapes b)

/-- The identity matrix with as many rows as the first axis is long. -/
def eyeLike (b : Backend) (x : Tensor α) : Except (Failure α) (Tensor α) := do
  match x.shape with
  | [] => throw .indexOutOfRange
  | n :: _ => return Tensor.identity (← b.take x).backend n

/-- The size of a matrix and the axes in front of it, if the matrix is square. -/
def squareAxes? (b : Backend) (shape : List Nat) : Except (Failure α) (List Nat × Nat) :=
  let failed (cause : InversionFailure) : Except (Failure α) (List Nat × Nat) :=
    match b with
    | .array => .error (.numerical (.inversion cause))
    | .tensor => .error (.shapes b)
  match shape.reverse with
  | n :: m :: batch => if n = m then .ok (batch.reverse, n) else failed .notSquare
  | _ => failed (.tooFewAxes shape.length)

/-- The inverse of a square matrix without a zero pivot, or of all such matrices along leading
    axes. -/
def inv (b : Backend) (m : Tensor α) : Except (Failure α) (Tensor α) := do
  let m ← b.take m
  let (batch, n) ← b.squareAxes? m.shape
  match Tensor.invertEach n 0 (pieces (volume batch) (n * n) m.entries) with
  | .ok xs => return ⟨b, m.shape, xs⟩
  | .error (place, position) =>
    match b with
    | .array => throw (.numerical (.inversion .singular))
    | .tensor =>
      let place := if batch.isEmpty then none else some place
      throw (.numerical (.inversion (.zeroPivot place position)))

/-- The inner product of two vectors of the same length. -/
@[simp] theorem dot_vector (b : Backend) {xs ys : List α} (h : xs.length = ys.length) :
    b.dot (.vector b xs) (.vector b ys) = .ok (Scalar.inner xs ys) := by
  cases b <;>
    simp [dot, take, contract, Tensor.contracted?, Tensor.rightAxes?, Tensor.vector,
      Tensor.onBackend, volume, h, pure, Except.pure, bind, Except.bind]

end Minimization.Backend
