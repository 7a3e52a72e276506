import Minimization.Tensor.Product

namespace Minimization.Tensor

/-!
# Inverses of square matrices

Elimination with partial pivoting on the rows of `[A | B]`, followed by back substitution.

* `takePivot` — the row whose leading entry is largest in size, and the rest with the first row
  moved to its place.
* `eliminate` — the pivot rows, each without the columns that earlier pivots have cleared, or the
  position (counted from one) of the first pivot that is zero.
* `backSubstitute` — the rows of the solution, from the last pivot row up.
* `invertRows` — the solution for the identity matrix.
* `invertEach` — the inverses of matrices along leading axes.
-/

variable {α : Type} [Scalar α]

/-- The largest leading entry so far, searching the rows from a position on. -/
def pivotFrom : Nat → Nat → α → List (List α) → Nat
  | _, best, _, [] => best
  | i, best, size, row :: rows =>
    let here := (row.head?.map Scalar.abs).getD 0.0
    if Scalar.lt size here then pivotFrom (i + 1) i here rows else pivotFrom (i + 1) best size rows

/-- Splits off the row with the largest leading entry; the first row takes its place. -/
def takePivot : List (List α) → Option (List α × List (List α))
  | [] => none
  | first :: rest =>
    match pivotFrom 1 0 ((first.head?.map Scalar.abs).getD 0.0) rest with
    | 0 => some (first, rest)
    | p + 1 =>
      match rest[p]? with
      | some row => some (row, rest.set p first)
      | none => some (first, rest)

/-- Subtracts the multiple of the pivot row that clears the leading entry, and drops that entry. -/
def clearLead (pivot row : List α) : List α :=
  match pivot, row with
  | p :: pivotTail, r :: rowTail =>
    let factor := r / p
    List.zipWith (fun x y => x - factor * y) rowTail pivotTail
  | _, _ => []

/-- Eliminates the leading columns of `fuel` rows, counting positions from `position`. -/
def eliminate : Nat → Nat → List (List α) → Except Nat (List (List α))
  | 0, _, _ => .ok []
  | fuel + 1, position, rows =>
    match takePivot rows with
    | none => .ok []
    | some (pivot, rest) =>
      match pivot.head? with
      | none => .ok []
      | some lead =>
        -- The pivot is the largest entry of its column, so a zero here is a column of zeros.
        if Scalar.eq lead 0.0 then .error position
        else (eliminate fuel (position + 1) (rest.map (clearLead pivot))).map (pivot :: ·)

/-- The rows that solve the system given by pivot rows and their right-hand sides. -/
def backSubstitute : List (List α) → List (List α)
  | [] => []
  | row :: rows =>
    let solved := backSubstitute rows
    match row with
    | [] => solved
    | lead :: tail =>
      -- The row holds the other unknowns first and the right-hand sides behind them.
      let coefficients := tail.take solved.length
      let right := tail.drop solved.length
      let reduced := (List.zip coefficients solved).foldr
        (fun (c, xs) acc => List.zipWith (fun a x => a - c * x) acc xs) right
      reduced.map (· / lead) :: solved

/-- Solves `A X = B` for square `A`, given the rows of both. -/
def solveRows (left right : List (List α)) : Except Nat (List (List α)) :=
  (eliminate left.length 1 (List.zipWith (· ++ ·) left right)).map backSubstitute

/-- The inverse of a square matrix, given by its rows, or the position of the first pivot that is
    zero. -/
def invertRows (rows : List (List α)) : Except Nat (List (List α)) :=
  solveRows rows ((List.range rows.length).map (identityRow rows.length))

/-- The inverses of square matrices, or the place of the first that has none and the position of its
    zero pivot. -/
def invertEach (n : Nat) : Nat → List (List α) → Except (Nat × Nat) (List α)
  | _, [] => .ok []
  | i, xs :: rest => do
    let rows ← (invertRows (pieces n n xs)).mapError fun position => (i, position)
    return rows.flatten ++ (← invertEach n (i + 1) rest)

end Minimization.Tensor
