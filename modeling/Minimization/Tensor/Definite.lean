import Minimization.Backend.Operations

namespace Minimization.Tensor

/-!
# Positive definite matrices

All eigenvalues of a symmetric matrix `S` exceed a bound exactly when `S` minus that bound on its
diagonal is positive definite, and that holds exactly when elimination without exchanges meets only
positive pivots.

* `positivePivots` — the pivot test.
* `hasEigenvaluesAbove` — the test of a symmetric matrix.
* `isPositiveDefinite` — the test of the symmetric part of a matrix.
-/

variable {α : Type} [Scalar α]

/-- Elimination of `fuel` rows meets only positive pivots. -/
def positivePivots : Nat → List (List α) → Bool
  | 0, _ => true
  | _ + 1, [] => true
  | fuel + 1, row :: rows =>
    match row.head? with
    | none => true
    | some lead => Scalar.lt 0.0 lead && positivePivots fuel (rows.map (clearLead row))

/-- Subtracts a number from the diagonal, counting rows from `i`. -/
def shiftDiagonal (bound : α) : Nat → List (List α) → List (List α)
  | _, [] => []
  | i, row :: rows => row.modify i (· - bound) :: shiftDiagonal bound (i + 1) rows

/-- The bound that is used unless another is given. -/
def usualBound : α := 1e-12

/-- The symmetric matrix with the entries on and below the diagonal of some rows. -/
def ofLowerTriangle (rows : List (List α)) : List (List α) :=
  let positions := List.range rows.length
  positions.map fun i => positions.map fun j => (rows.getD (max i j) []).getD (min i j) 0.0

/-- All eigenvalues of the symmetric matrix with the given rows exceed `bound`. -/
def hasEigenvaluesAbove (bound : α) (rows : List (List α)) : Except (Failure α) Bool :=
  if rows.flatten.all Scalar.isFinite then
    .ok (positivePivots rows.length (shiftDiagonal bound 0 rows))
  else
    -- Without finite entries the search for eigenvalues goes as far as it can.
    match rows with
    | [[x]] => .ok (Scalar.lt bound x)
    | [_, _] => .ok false
    | _ => .error .notAMatrix

/-- All eigenvalues of the symmetric part of a matrix exceed `bound`; of several matrices along
    leading axes, those of all. -/
def isPositiveDefinite (m : Tensor α) (bound : α) : Except (Failure α) Bool := do
  let m := m.onBackend .array
  let total ← Backend.add m m.transpose
  let half := total.map (0.5 * ·)
  match half.shape.reverse with
  | n :: k :: batch =>
    if n ≠ k then throw .notAMatrix
    let matrices := (pieces (volume batch) (n * n) half.entries).map (pieces n n)
    return (← matrices.mapM fun rows => hasEigenvaluesAbove bound (ofLowerTriangle rows)).all id
  | _ => throw .notAMatrix

end Minimization.Tensor
