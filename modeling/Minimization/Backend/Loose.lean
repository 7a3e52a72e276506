import Minimization.Backend.Number
import Minimization.Tensor.Nested

namespace Minimization

/-!
# Operations on nested lists of numbers

General arrays also work on nested lists of whole numbers and doubles.  Most operations convert the
lists to arrays; the others treat lists as lists.

* `Loose` — a number or a list.
* `Loose.toArray` — the array of nested lists, with entries of one kind.
* `Loose.toTensor` — the array of doubles.
* `Loose.add`, `Loose.sub` — numbers are added and subtracted, lists are joined.
* `Loose.dot`, `Loose.outer`, `Loose.norm`, … — the operations that convert.
-/

/-- A number or a list of loose values. -/
abbrev Loose := Nested Number

namespace Loose

/-- The loose value of an array of doubles. -/
def ofTensor (t : Tensor Double) : Loose := (t.map .real).nested

/-- The array of nested lists, and the kind of its entries. -/
def toArray (v : Loose) : Except (Failure Double) (NumberKind × Tensor Number) := do
  let t ← (v.toTensor .array).mapError fun _ => .unknownValue
  let kind := Number.kindOf t.entries
  return (kind, { t with entries := ← t.entries.mapM (·.toKind kind) })

/-- An array of doubles. -/
def realEntries (t : Tensor Number) : Except (Failure Double) (Tensor Double) := do
  return ⟨t.backend, t.shape, ← t.entries.mapM Number.toReal⟩

/-- The array of doubles. -/
def toTensor (v : Loose) : Except (Failure Double) (Tensor Double) := do
  realEntries (← v.toArray).2

/-! ### Lists as lists -/

/-- Adds numbers, joins lists. -/
def add : Loose → Loose → Except (Failure Double) Loose
  | .list xs, .list ys => .ok (.list (xs ++ ys))
  | .entry x, .entry y => (Number.add .exact x y).map .entry
  | _, _ => .error .notANumber

/-- Subtracts numbers. -/
def sub : Loose → Loose → Except (Failure Double) Loose
  | .entry x, .entry y => (Number.combine (· - ·) (· - ·) x y).map .entry
  | _, _ => .error .notANumber

/-- Loose values are no matrices, and have no product. -/
def product (_v _w : Loose) : Except (Failure Double) Loose := .error .notANumber

/-- Loose values have no transpose. -/
def transpose (_v : Loose) : Except (Failure Double) Loose := .error .noSuchSetting

/-! ### Lists as arrays -/

/-- The array of nested lists as nested lists again. -/
def toList (v : Loose) : Except (Failure Double) Loose := do return (← v.toArray).2.nested

/-- A copy in doubles. -/
def copy (v : Loose) : Except (Failure Double) Loose := do return ofTensor (← v.toTensor)

/-- Every entry times a factor, which may be an array itself. -/
def scale (v factor : Loose) : Except (Failure Double) Loose := do
  let x ← v.toTensor
  return ofTensor (← Backend.mul x (← factor.toTensor))

/-- `v + factor * w`, or any other operation between `v` and the product. -/
def scaled (combine : Tensor Double → Tensor Double → Except (Failure Double) (Tensor Double))
    (v factor w : Loose) : Except (Failure Double) Loose := do
  let x ← v.toTensor
  let y ← w.toTensor
  return ofTensor (← combine x (← Backend.mul (← factor.toTensor) y))

/-- `v + factor * w` -/
def scaledAdd : Loose → Loose → Loose → Except (Failure Double) Loose := scaled Backend.add

/-- `v - factor * w` -/
def scaledSub : Loose → Loose → Loose → Except (Failure Double) Loose := scaled Backend.sub

/-- Two arrays with entries of one kind. -/
def toArrays (v w : Loose) :
    Except (Failure Double) (NumberKind × Tensor Number × Tensor Number) := do
  let (k, x) ← v.toArray
  let (l, y) ← w.toArray
  let kind := k.join l
  return (kind, { x with entries := ← x.entries.mapM (·.toKind kind) },
    { y with entries := ← y.entries.mapM (·.toKind kind) })

/-- The inner product, which must be one number. -/
def dot (v w : Loose) : Except (Failure Double) Double := do
  let (kind, x, y) ← v.toArrays w
  -- Whole numbers stay whole until their sum is known; doubles are contracted as they are.
  if kind = .real then Backend.contract (← realEntries x) (← realEntries y)
  else
    match Tensor.contracted? x.shape y.shape with
    | none => throw (.shapes .array)
    | some shape =>
      if volume shape = 1 then (← Number.inner kind x.entries y.entries).toReal
      else throw .notANumber

/-- All products of entries of two arrays. -/
def outer (v w : Loose) : Except (Failure Double) Loose := do
  let (kind, x, y) ← v.toArrays w
  return .list (← x.entries.mapM fun p => do
    return .list (← y.entries.mapM fun q => return .entry (← Number.mul kind p q)))

/-- The square root of the sum of squares.  Numbers of any size have no square root. -/
def norm (v : Loose) : Except (Failure Double) Double := do
  match ← v.toArray with
  | (.exact, t) =>
    match ← Number.inner .exact t.entries t.entries with
    | .whole _ => throw .notANumber
    | .real s => return Scalar.sqrt s
  | (_, t) => return (← realEntries t).norm

/-- All entries are finite; numbers of any size cannot be asked. -/
def isFinite (v : Loose) : Except (Failure Double) Bool := do
  match ← v.toArray with
  | (.exact, _) => throw .notANumber
  | (_, t) => return (← realEntries t).isFinite

/-- The identity matrix with as many rows as the list has items. -/
def eyeLike (v : Loose) : Except (Failure Double) Loose := do
  match (← v.toArray).2.shape with
  | [] => throw .indexOutOfRange
  | n :: _ => return ofTensor (Tensor.identity .array n)

/-- The inverse matrix; there is none for numbers of any size. -/
def inv (v : Loose) : Except (Failure Double) Loose := do
  let (kind, t) ← v.toArray
  -- The shape is checked first, so a matrix that is not square is reported as such whatever its entries
  -- are.
  discard (Backend.array.squareAxes? t.shape)
  if kind = .exact then throw .notANumber
  return ofTensor (← Backend.array.inv (← realEntries t))

end Loose

end Minimization
