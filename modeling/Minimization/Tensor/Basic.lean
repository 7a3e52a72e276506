import Minimization.Backend.Basic
import Minimization.Scalar.Basic

namespace Minimization

/-!
# Points, gradients and Hessians

* `Tensor` — numbers along any count of axes, given by the lengths of the axes and the list of all
  entries, in which the position on the last axis changes fastest.
* `Tensor.scalar`, `Tensor.vector`, `Tensor.matrix` — tensors with none, one and two axes.
* `pieces` — a list cut into parts of one length; `pieces_flatten` and `flatten_pieces` say that
  cutting and joining undo each other.
* `Tensor.combine?` — an operation on corresponding entries.  An axis of length one, or a missing
  leading axis, is stretched to the length of the other side; other lengths do not fit.
-/

/-- The count of entries of a tensor with axes of the given lengths. -/
def volume : List Nat → Nat
  | [] => 1
  | n :: ns => n * volume ns

/-- The first `count` parts of length `width` of a list. -/
def pieces {α : Type} : Nat → Nat → List α → List (List α)
  | 0, _, _ => []
  | count + 1, width, xs => xs.take width :: pieces count width (xs.drop width)

/-- There are as many parts as asked for. -/
@[simp] theorem length_pieces {α : Type} (count width : Nat) (xs : List α) :
    (pieces count width xs).length = count := by
  induction count generalizing xs with
  | zero => rfl
  | succ count ih => simp [pieces, ih]

/-- Rows put together can be cut apart again. -/
theorem pieces_flatten {α : Type} {width : Nat} :
    ∀ rows : List (List α), (∀ row ∈ rows, row.length = width) →
      pieces rows.length width rows.flatten = rows
  | [], _ => rfl
  | row :: rows, h => by
    have hrow : row.length = width := h row (by simp)
    have hrows := pieces_flatten rows fun r hr => h r (by simp [hr])
    simp only [List.flatten_cons, List.length_cons, pieces]
    rw [← hrow, List.take_left, List.drop_left, hrow, hrows]

/-- Parts can be put together again. -/
theorem flatten_pieces {α : Type} (count width : Nat) (xs : List α)
    (h : xs.length = count * width) : (pieces count width xs).flatten = xs := by
  induction count generalizing xs with
  | zero =>
    have : xs = [] := List.length_eq_zero_iff.mp (by simpa using h)
    simp [pieces, this]
  | succ count ih =>
    have hlen : (xs.drop width).length = count * width := by
      rw [List.length_drop, h, Nat.succ_mul]
      omega
    simp [pieces, ih _ hlen]

/-- Numbers along axes. -/
structure Tensor (α : Type) where
  backend : Backend
  shape : List Nat
  entries : List α
deriving Repr, DecidableEq

namespace Tensor

variable {α β γ : Type}

/-- There are as many entries as the axes have positions. -/
def WellFormed (t : Tensor α) : Prop := t.entries.length = volume t.shape

/-- A number as a tensor without axes. -/
def scalar (b : Backend) (x : α) : Tensor α := ⟨b, [], [x]⟩

/-- A tensor with one axis. -/
def vector (b : Backend) (xs : List α) : Tensor α := ⟨b, [xs.length], xs⟩

/-- A tensor with two axes, given by its width and its rows. -/
def matrix (b : Backend) (width : Nat) (rows : List (List α)) : Tensor α :=
  ⟨b, [rows.length, width], rows.flatten⟩

/-- A vector is as long as its axis. -/
theorem wellFormed_vector (b : Backend) (xs : List α) : (vector b xs).WellFormed := by
  simp [WellFormed, vector, volume]

/-- The count of entries. -/
def size (t : Tensor α) : Nat := t.entries.length

/-- The count of entries in one part along the first axis. -/
def stride (t : Tensor α) : Nat := volume t.shape.tail

/-- The rows of a matrix. -/
def rows (t : Tensor α) : List (List α) :=
  match t.shape with
  | [count, width] => pieces count width t.entries
  | _ => []

/-- Applies a function to every entry. -/
def map (f : α → β) (t : Tensor α) : Tensor β := ⟨t.backend, t.shape, t.entries.map f⟩

/-- The same entries in another family. -/
def onBackend (b : Backend) (t : Tensor α) : Tensor α := { t with backend := b }

/-! ### Operations on corresponding entries -/

/-- The length that two axes have after stretching. -/
def commonLength? (m n : Nat) : Option Nat :=
  if m = n then some m else if m = 1 then some n else if n = 1 then some m else none

/-- Adds leading axes of length one. -/
def padShape (axes : Nat) (shape : List Nat) : List Nat :=
  List.replicate (axes - shape.length) 1 ++ shape

/-- The axes that two tensors have after stretching, if they fit. -/
def commonShape? (s t : List Nat) : Option (List Nat) :=
  let axes := max s.length t.length
  (List.zipWith commonLength? (padShape axes s) (padShape axes t)).mapM id

/-- Entries along the given axes, repeated along axes of length one until they fill other axes. -/
def stretch : List Nat → List Nat → List α → List α
  | n :: ns, m :: ms, xs =>
    let parts := (pieces n (volume ns) xs).map (stretch ns ms)
    if n = m then parts.flatten else (List.replicate m (parts.headD [])).flatten
  | _, _, xs => xs

/-- The entries of a tensor, stretched to a shape with at least as many axes. -/
def stretchTo (shape : List Nat) (t : Tensor α) : List α :=
  stretch (padShape shape.length t.shape) shape t.entries

/-- Combines two tensors entry by entry, if their shapes fit. -/
def combine? (f : α → β → γ) (x : Tensor α) (y : Tensor β) : Option (Tensor γ) :=
  let b := x.backend.join y.backend
  if x.shape = y.shape then some ⟨b, x.shape, List.zipWith f x.entries y.entries⟩
  else do
    let shape ← commonShape? x.shape y.shape
    return ⟨b, shape, List.zipWith f (x.stretchTo shape) (y.stretchTo shape)⟩

/-- Tensors of the same shape are combined without any stretching. -/
theorem combine?_of_shape_eq (f : α → β → γ) {x : Tensor α} {y : Tensor β}
    (h : x.shape = y.shape) : combine? f x y =
      some ⟨x.backend.join y.backend, x.shape, List.zipWith f x.entries y.entries⟩ := by
  simp [combine?, h]

/-- So are vectors of the same length. -/
@[simp] theorem combine?_vector (f : α → β → γ) (b : Backend) {xs : List α} {ys : List β}
    (h : xs.length = ys.length) :
    combine? f (vector b xs) (vector b ys) = some (vector b (List.zipWith f xs ys)) := by
  simp [combine?, vector, h]

/-- A tensor without numbers that are infinite or not a number. -/
def isFinite [Scalar α] (t : Tensor α) : Bool := t.entries.all Scalar.isFinite

end Tensor

end Minimization
