import Minimization.Backend.Operations

namespace Minimization

/-!
# Operations on tensors and plain numbers

The operations of a backend may be called with plain numbers instead of tensors.  General arrays
convert them to arrays without axes; strict tensors compute with them entry by entry and refuse them
everywhere else.

* `Operand` — a number, a tensor, or nothing at all.
* `Operand.arithmetic` — sums, differences and products entry by entry.
* `Operand.tensor?` — the tensor for an operation that needs one.
-/

/-- What an operation may be called with. -/
inductive Operand (α : Type) where
  | number (x : α)
  | tensor (t : Tensor α)
  | absent

namespace Operand

variable {α : Type} [Scalar α]

/-- The backend that operates on a value; everything but a strict tensor is taken for an array. -/
def backend : Operand α → Backend
  | .tensor t => t.backend
  | _ => .array

/-- A value as an array; nothing is not a number. -/
def toArray : Operand α → Tensor α
  | .number x => .scalar .array x
  | .tensor t => t.onBackend .array
  | .absent => .scalar .array Scalar.notANumber

/-- An operation entry by entry.  A number stands for all entries of a tensor. -/
def arithmetic (f : Tensor α → Tensor α → Except (Failure α) (Tensor α)) :
    Operand α → Operand α → Except (Failure α) (Operand α)
  | .tensor x, .tensor y => (f x y).map .tensor
  | .tensor x, .number y => (f x (.scalar x.backend y)).map .tensor
  | .number x, .tensor y => (f (.scalar y.backend x) y).map .tensor
  | .number x, .number y => (f (.scalar .array x) (.scalar .array y)).map .tensor
  | _, _ => .error .notANumber

/-- The sum of two values. -/
def add : Operand α → Operand α → Except (Failure α) (Operand α) := arithmetic Backend.add

/-- The difference of two values. -/
def sub : Operand α → Operand α → Except (Failure α) (Operand α) := arithmetic Backend.sub

/-- A value in the form in which entries of it are multiplied. -/
def factor (b : Backend) (x : Operand α) : Operand α :=
  match b with
  | .array => .tensor x.toArray
  | .tensor => x

/-- A value times a factor, which may be a tensor itself. -/
def scale (b : Backend) (x c : Operand α) : Except (Failure α) (Operand α) :=
  arithmetic Backend.mul (x.factor b) c

/-- `x + c * y` -/
def scaledAdd (b : Backend) (x c y : Operand α) : Except (Failure α) (Operand α) := do
  arithmetic Backend.add (x.factor b) (← arithmetic Backend.mul c (y.factor b))

/-- `x - c * y` -/
def scaledSub (b : Backend) (x c y : Operand α) : Except (Failure α) (Operand α) := do
  arithmetic Backend.sub (x.factor b) (← arithmetic Backend.mul c (y.factor b))

/-- The tensor of a value; a backend of strict tensors fails with `refusal` if it is none. -/
def tensor? (b : Backend) (refusal : Failure α) (x : Operand α) : Except (Failure α) (Tensor α) :=
  match x, b with
  | .tensor t, _ => .ok t
  | _, .tensor => .error refusal
  | .number x, .array => .ok (.scalar .array x)
  | .absent, .array => .error .notANumber

/-- The inner product. -/
def dot (b : Backend) (x y : Operand α) : Except (Failure α) α := do
  b.dot (← x.tensor? b .noSuchSetting) (← y.tensor? b .noSuchSetting)

/-- The square root of the sum of squares. -/
def norm (b : Backend) (x : Operand α) : Except (Failure α) α := do
  b.norm (← x.tensor? b .notANumber)

/-- The product of a matrix with a vector or a matrix.  A number has no axes for a product. -/
def product (b : Backend) : Operand α → Operand α → Except (Failure α) (Tensor α)
  | .tensor m, .tensor v => Backend.apply m v
  | .tensor _, _ | _, .tensor _ =>
    match b with
    | .array => .error (.shapes b)
    | .tensor => .error .notANumber
  | _, _ => .error .notANumber

/-- `x · (m y)` -/
def weightedDot (b : Backend) (x m y : Operand α) : Except (Failure α) α := do
  x.dot b (.tensor (← product b m y))

/-- The matrix of all products. -/
def outer (b : Backend) (x y : Operand α) : Except (Failure α) (Tensor α) := do
  b.outer (← x.tensor? b .notANumber) (← y.tensor? b .notANumber)

/-- The transpose. -/
def transpose : Operand α → Except (Failure α) (Tensor α)
  | .tensor t => .ok t.transpose
  | _ => .error .noSuchSetting

/-- The identity matrix with as many rows as the first axis is long. -/
def eyeLike (b : Backend) (x : Operand α) : Except (Failure α) (Tensor α) := do
  b.eyeLike (← x.tensor? b .noSuchSetting)

/-- The inverse matrix. -/
def inv (b : Backend) (x : Operand α) : Except (Failure α) (Tensor α) := do
  b.inv (← x.tensor? b .notANumber)

/-- A copy, or the entries as they are. -/
def copy (b : Backend) (x : Operand α) : Except (Failure α) (Tensor α) :=
  match b with
  | .array => .ok x.toArray
  | .tensor => x.tensor? b .noSuchSetting

/-- All entries are finite. -/
def isFinite (b : Backend) (x : Operand α) : Except (Failure α) Bool := do
  return (← x.tensor? b .notANumber).isFinite

end Operand

end Minimization
