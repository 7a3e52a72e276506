import Minimization.Tensor.Basic

namespace Minimization.Tensor

/-!
# Products and transposes

* `product?` — the product of two tensors whose inner lengths agree, matrix by matrix along the
  leading axes; every entry is an inner product summed from the left.
* `contracted?` — the axes of the general inner product, which pairs every leading position of one
  side with every one of the other.
* `outer`, `transpose`, `identity`, `norm` — the other building blocks of the solvers.
-/

variable {α : Type}

/-- The columns of rows of the given width. -/
def columns : Nat → List (List α) → List (List α)
  | 0, _ => []
  | width + 1, rows => rows.filterMap List.head? :: columns width (rows.map List.tail)

/-- The entries with all axes in the opposite order. -/
def transposeEntries : List Nat → List α → List α
  | [], xs => xs
  | n :: ns, xs =>
    (columns (volume ns) ((pieces n (volume ns) xs).map (transposeEntries ns))).flatten

/-- All axes in the opposite order; a vector or number is its own transpose. -/
def transpose (t : Tensor α) : Tensor α :=
  match t.shape with
  | [] | [_] => t
  | ns => ⟨t.backend, ns.reverse, transposeEntries ns t.entries⟩

/-- A left factor: leading axes, rows and columns.  A vector is a row, which the product lacks. -/
def leftAxes? : List Nat → Option (List Nat × Nat × Nat × List Nat)
  | [] => none
  | [k] => some ([], 1, k, [])
  | [m, k] => some ([], m, k, [m])
  | n :: ns => (leftAxes? ns).map fun (batch, m, k, kept) => (n :: batch, m, k, kept)

/-- A right factor: leading axes, rows and columns.  A vector is a column, which the product
    lacks. -/
def rightAxes? : List Nat → Option (List Nat × Nat × Nat × List Nat)
  | [] => none
  | [k] => some ([], k, 1, [])
  | [k, n] => some ([], k, n, [n])
  | n :: ns => (rightAxes? ns).map fun (batch, k, m, kept) => (n :: batch, k, m, kept)

/-- The axes of the general inner product, if the last axis of the left side is as long as the axis
    of the right side that it meets: the only one of a vector, else the last but one.  A number is a
    factor of every entry. -/
def contracted? (s t : List Nat) : Option (List Nat) :=
  if s = [] then some t
  else if t = [] then some s
  else do
    let (batch, k, _, kept) ← rightAxes? t
    if s.getLast? = some k then some (s.dropLast ++ batch ++ kept) else none

variable [Scalar α]

/-- The product of two matrices given by their entries. -/
def blockProduct (m k n : Nat) (xs ys : List α) : List α :=
  let cols := columns n (pieces k n ys)
  (pieces m k xs).flatMap fun row => cols.map (Scalar.inner row)

/-- The matrices of a tensor along its leading axes. -/
def blocks (t : Tensor α) (batch : List Nat) (size : Nat) : Tensor (List α) :=
  ⟨t.backend, batch, pieces (volume batch) size t.entries⟩

/-- The product of two tensors with at least one axis each, if the inner lengths agree and the
    leading axes fit. -/
def product? (x y : Tensor α) : Option (Tensor α) := do
  let (batchX, m, k, keptX) ← leftAxes? x.shape
  let (batchY, k', n, keptY) ← rightAxes? y.shape
  if k = k' then
    let z ← combine? (blockProduct m k n) (x.blocks batchX (m * k)) (y.blocks batchY (k * n))
    return ⟨z.backend, z.shape ++ keptX ++ keptY, z.entries.flatten⟩
  else none

/-- The matrix of all products of an entry of the first list and an entry of the second. -/
def outer (b : Backend) (xs ys : List α) : Tensor α :=
  matrix b ys.length (xs.map fun x => ys.map (x * ·))

/-- One row of the identity matrix. -/
def identityRow (n i : Nat) : List α := (List.range n).map fun j => if i = j then 1.0 else 0.0

/-- The identity matrix. -/
def identity (b : Backend) (n : Nat) : Tensor α := matrix b n ((List.range n).map (identityRow n))

/-- Square root of the sum of the squares of all entries. -/
def norm (t : Tensor α) : α := Scalar.sqrt (Scalar.inner t.entries t.entries)

end Minimization.Tensor
