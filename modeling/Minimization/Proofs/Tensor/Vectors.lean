import Mathlib.Data.List.OfFn
import Mathlib.Data.Matrix.Mul
import Mathlib.LinearAlgebra.Matrix.DotProduct
import Mathlib.Algebra.BigOperators.Fin
import Minimization.Backend.Operations
import Minimization.Proofs.Scalar.Finite

namespace Minimization

/-!
# Tensors of finite numbers

On tensors of finite numbers with fitting shapes the operations of a backend never fail, and they
are those of linear algebra.

* `Tensor.real` — finite numbers along axes, in either family; entrywise operations are those of
  the lists of entries.
* `Tensor.ofVec`, `Tensor.ofMat` — vectors and matrices.  Sums, multiples, inner and outer products,
  products with a matrix, transposes and identities are the ones of linear algebra.
* `Backend.norm_ofVec` — only the zero vector has length zero.
-/

variable {K : Type}

/-! ### Lists of entries -/

/-- A list of known length is a vector. -/
theorem exists_ofFn {α : Type} {n : Nat} {xs : List α} (h : xs.length = n) :
    ∃ v : Fin n → α, List.ofFn v = xs := by
  subst h
  exact ⟨fun i => xs[i], List.ofFn_getElem⟩

/-- Vectors are combined entry by entry. -/
theorem zipWith_ofFn {α β γ : Type} {n : Nat} (f : α → β → γ) (u : Fin n → α) (v : Fin n → β) :
    List.zipWith f (List.ofFn u) (List.ofFn v) = List.ofFn fun i => f (u i) (v i) := by
  refine List.ext_getElem (by simp) fun i _ _ => ?_
  simp

/-- The rows of a matrix, one after another. -/
def rowsOf {α : Type} {m n : Nat} (M : Fin m → Fin n → α) : List (List α) :=
  List.ofFn fun i => List.ofFn (M i)

/-- A matrix has its number of rows. -/
theorem length_rowsOf {α : Type} {m n : Nat} (M : Fin m → Fin n → α) :
    (rowsOf M).length = m := by
  simp [rowsOf]

/-- All rows have the same length. -/
theorem length_of_mem_rowsOf {α : Type} {m n : Nat} {M : Fin m → Fin n → α} :
    ∀ row ∈ rowsOf M, row.length = n := by
  intro row hrow
  obtain ⟨i, rfl⟩ := (List.mem_ofFn' _ row).1 hrow
  simp

/-- A change of the entries is a change in every row. -/
theorem map_rowsOf {α β : Type} {m n : Nat} (f : α → β) (M : Fin m → Fin n → α) :
    (rowsOf M).map (List.map f) = rowsOf fun i j => f (M i j) := by
  unfold rowsOf
  rw [List.map_ofFn]
  congr 1
  funext i
  exact List.map_ofFn ..

/-- Matrices are combined row by row. -/
theorem zipWith_rowsOf {α β γ : Type} {m n : Nat} (f : α → β → γ) (M : Fin m → Fin n → α)
    (N : Fin m → Fin n → β) : List.zipWith f (rowsOf M).flatten (rowsOf N).flatten =
      (rowsOf fun i j => f (M i j) (N i j)).flatten := by
  -- By induction on the rows, which the flattened lists have one after the other.
  induction m with
  | zero => rfl
  | succ m ih =>
    simp only [rowsOf, List.ofFn_succ, List.flatten_cons]
    rw [List.zipWith_append (by simp), zipWith_ofFn]
    congr 1
    exact ih (fun i => M i.succ) (fun i => N i.succ)

/-- The columns of a matrix are the rows of its transpose. -/
theorem columns_rowsOf {α : Type} {m n : Nat} (M : Fin m → Fin n → α) :
    Tensor.columns n (rowsOf M) = rowsOf fun j i => M i j := by
  induction n with
  | zero => rfl
  | succ n ih =>
    -- The first column is the list of heads, and the others are the columns of the tails.
    have hheads : (rowsOf M).filterMap List.head? = List.ofFn fun i => M i 0 := by
      have hrows : rowsOf M =
          (List.ofFn M).map fun row => row 0 :: List.ofFn fun j => row j.succ := by
        unfold rowsOf
        rw [List.map_ofFn]
        congr 1
        funext i
        exact List.ofFn_succ
      rw [hrows, List.filterMap_map]
      show (List.ofFn M).filterMap (fun row => some (row 0)) = _
      rw [List.filterMap_eq_map', List.map_ofFn]
      rfl
    have htails : (rowsOf M).map List.tail = rowsOf fun i j => M i j.succ := by
      unfold rowsOf
      rw [List.map_ofFn]
      congr 1
      funext i
      show (List.ofFn (M i)).tail = _
      rw [List.ofFn_succ]
      rfl
    show (rowsOf M).filterMap List.head? :: Tensor.columns n ((rowsOf M).map List.tail) = _
    rw [hheads, htails, ih]
    show _ = List.ofFn fun j => List.ofFn fun i => M i j
    rw [List.ofFn_succ]
    rfl

/-- A list of numbers is a matrix with one column. -/
theorem pieces_ofFn_one {α : Type} {n : Nat} (v : Fin n → α) :
    pieces n 1 (List.ofFn v) = rowsOf fun i (_ : Fin 1) => v i := by
  induction n with
  | zero => rfl
  | succ n ih =>
    rw [List.ofFn_succ]
    show [v 0] :: pieces n 1 (List.ofFn fun i => v i.succ) = _
    rw [ih]
    simp [rowsOf, List.ofFn_succ]

/-- A matrix with one column is a list of numbers. -/
theorem flatten_rowsOf_one {α : Type} {n : Nat} (v : Fin n → α) :
    (rowsOf fun i (_ : Fin 1) => v i).flatten = List.ofFn v := by
  rw [← pieces_ofFn_one, flatten_pieces n 1 _ (by simp)]

/-- A function of positions is a vector. -/
theorem map_range {α : Type} (n : Nat) (f : Nat → α) :
    (List.range n).map f = List.ofFn fun i : Fin n => f i := by
  refine List.ext_getElem (by simp) fun i _ _ => ?_
  simp

/-- A matrix has the product of its sides for entries. -/
theorem length_flatten_rowsOf {α : Type} {m n : Nat} (M : Fin m → Fin n → α) :
    (rowsOf M).flatten.length = m * n := by
  simp [rowsOf, List.length_flatten, List.map_ofFn, Function.comp_def]

/-- Its entries can be cut into its rows again. -/
theorem pieces_rowsOf {α : Type} {m n : Nat} (M : Fin m → Fin n → α) :
    pieces m n (rowsOf M).flatten = rowsOf M := by
  have h := pieces_flatten (rowsOf M) length_of_mem_rowsOf
  rwa [length_rowsOf] at h

/-! ### Entry by entry -/

namespace Tensor

/-- Finite numbers along axes. -/
def real (b : Backend) (shape : List Nat) (xs : List K) : Tensor (Exact K) :=
  ⟨b, shape, xs.map .finite⟩

/-- A vector of finite numbers. -/
def ofVec (b : Backend) {n : Nat} (v : Fin n → K) : Tensor (Exact K) := real b [n] (List.ofFn v)

/-- A matrix of finite numbers. -/
def ofMat (b : Backend) {m n : Nat} (M : Matrix (Fin m) (Fin n) K) : Tensor (Exact K) :=
  real b [m, n] (rowsOf fun i j => M i j).flatten

/-- Such a tensor is of the family that it is made for. -/
@[simp] theorem backend_real (b : Backend) (shape : List Nat) (xs : List K) :
    (real b shape xs).backend = b := rfl

/-- So is a vector. -/
@[simp] theorem backend_ofVec (b : Backend) {n : Nat} (v : Fin n → K) :
    (ofVec b v).backend = b := rfl

/-- The entries of a vector are its numbers. -/
theorem entries_ofVec (b : Backend) {n : Nat} (v : Fin n → K) :
    (ofVec b v).entries = List.ofFn fun i => Exact.finite (v i) :=
  List.map_ofFn ..

/-- A vector has as many entries as it should. -/
@[simp] theorem size_ofVec (b : Backend) {n : Nat} (v : Fin n → K) : (ofVec b v).size = n := by
  rw [size, entries_ofVec, List.length_ofFn]

/-- In another family it is the same vector. -/
@[simp] theorem onBackend_ofVec (b c : Backend) {n : Nat} (v : Fin n → K) :
    (ofVec b v).onBackend c = ofVec c v := rfl

/-- Different vectors are different tensors. -/
theorem ofVec_injective (b : Backend) {n : Nat} :
    Function.Injective (ofVec b : (Fin n → K) → Tensor (Exact K)) := by
  intro u v h
  have hentries : (List.ofFn u).map Exact.finite = (List.ofFn v).map Exact.finite :=
    congrArg Tensor.entries h
  have hfinite : Function.Injective (Exact.finite : K → Exact K) := fun _ _ => Exact.finite.inj
  exact List.ofFn_injective (List.map_injective_iff.2 hfinite hentries)

end Tensor

namespace Backend

open Tensor

variable [Field K] [LinearOrder K] [Roots K] (b : Backend) {shape : List Nat} (xs ys : List K)

omit [Field K] [LinearOrder K] [Roots K] in
/-- Finite numbers need not be converted. -/
@[simp] theorem convert_real : b.convert (real b shape xs) = real b shape xs := by
  cases b <;> rfl

omit [Field K] [LinearOrder K] [Roots K] in
/-- Nor are they refused. -/
@[simp] theorem take_real : b.take (real b shape xs) = .ok (real b shape xs) :=
  take_of_eq rfl

omit [Field K] [LinearOrder K] [Roots K] in
/-- Two tensors of one family go together. -/
@[simp] theorem between_real {s t : List Nat} :
    between (real b s xs) (real b t ys) = (.ok b : Except (Failure (Exact K)) Backend) :=
  between_of_eq rfl rfl

omit [Field K] [LinearOrder K] [Roots K] in
/-- What is finite for any two numbers is finite entry by entry. -/
theorem combine?_real (f : Exact K → Exact K → Exact K) (g : K → K → K)
    (h : ∀ x y, f (.finite x) (.finite y) = .finite (g x y)) :
    combine? f (real b shape xs) (real b shape ys) =
      some (real b shape (List.zipWith g xs ys)) := by
  rw [combine?_of_shape_eq f (x := real b shape xs) (y := real b shape ys) rfl]
  simp [real, List.zipWith_map, List.map_zipWith, h]

/-- Multiples of finite numbers. -/
@[simp] theorem scale_real (a : K) :
    b.scale (real b shape xs) (.finite a) = real b shape (xs.map (· * a)) := by
  rw [scale, convert_real]
  simp [Tensor.map, real, Function.comp_def]

/-- Sums of finite numbers. -/
@[simp] theorem add_real : add (real b shape xs) (real b shape ys) =
    .ok (real b shape (List.zipWith (· + ·) xs ys)) := by
  rw [add, between_real, combine?_real b xs ys (· + ·) (· + ·) Exact.finite_add]
  rfl

/-- Differences of finite numbers. -/
@[simp] theorem sub_real : sub (real b shape xs) (real b shape ys) =
    .ok (real b shape (List.zipWith (· - ·) xs ys)) := by
  rw [sub, between_real, combine?_real b xs ys (· - ·) (· - ·) Exact.finite_sub]
  rfl

/-- A factor from the left. -/
theorem map_mul_real (a : K) :
    (real b shape ys).map (Exact.finite a * ·) = real b shape (ys.map (a * ·)) := by
  simp [Tensor.map, real, Function.comp_def]

/-- A point along a line, entry by entry. -/
@[simp] theorem scaledAdd_real (a : K) :
    b.scaledAdd (real b shape xs) (.finite a) (real b shape ys) =
      .ok (real b shape (List.zipWith (fun x y => x + a * y) xs ys)) := by
  rw [scaledAdd, convert_real, convert_real, map_mul_real, add_real, List.zipWith_map_right]

/-- The same in the other direction. -/
@[simp] theorem scaledSub_real (a : K) :
    b.scaledSub (real b shape xs) (.finite a) (real b shape ys) =
      .ok (real b shape (List.zipWith (fun x y => x - a * y) xs ys)) := by
  rw [scaledSub, convert_real, convert_real, map_mul_real, sub_real, List.zipWith_map_right]

/-- Finite numbers have a finite sum, however it is accumulated. -/
theorem sum_finite (xs : List K) :
    Scalar.sum (xs.map Exact.finite) = (.finite xs.sum : Exact K) := by
  have h (xs : List K) (s : K) :
      (xs.map Exact.finite).foldl (· + ·) (Exact.finite s) = .finite (s + xs.sum) := by
    induction xs generalizing s with
    | nil => simp
    | cons x xs ih =>
      rw [List.map_cons, List.foldl_cons, Exact.finite_add, ih, List.sum_cons, add_assoc]
  rw [Scalar.sum, Exact.lit_zero, h, zero_add]

/-- They have a finite inner product. -/
theorem inner_finite (xs ys : List K) : Scalar.inner (xs.map Exact.finite) (ys.map Exact.finite) =
    (.finite (List.zipWith (· * ·) xs ys).sum : Exact K) := by
  rw [Scalar.inner, List.zipWith_map, ← sum_finite, List.map_zipWith]
  rfl

/-- It is the inner product of vectors. -/
theorem inner_ofFn {n : Nat} (u w : Fin n → K) : Scalar.inner (List.ofFn fun i => Exact.finite (u i))
    (List.ofFn fun i => Exact.finite (w i)) = (.finite (u ⬝ᵥ w) : Exact K) := by
  have h := inner_finite (List.ofFn u) (List.ofFn w)
  rw [List.map_ofFn, List.map_ofFn, zipWith_ofFn, List.sum_ofFn] at h
  exact h

/-- The length is the root of the sum of squares, if there is one. -/
theorem norm_real : b.norm (real b shape xs) =
    .ok (Exact.ofOption (Roots.root? (List.zipWith (· * ·) xs xs).sum)) := by
  have hnorm : (real b shape xs).norm =
      Scalar.sqrt (.finite (List.zipWith (· * ·) xs xs).sum : Exact K) := by
    rw [Tensor.norm, ← inner_finite]
    rfl
  simp [norm, hnorm, bind, Except.bind, pure, Except.pure]
  rfl

/-! ### Vectors -/

variable {m n : Nat} (u v : Fin n → K) (M N : Matrix (Fin m) (Fin n) K)

/-- A multiple of a vector. -/
@[simp] theorem scale_ofVec (a : K) : b.scale (ofVec b v) (.finite a) = ofVec b (a • v) := by
  rw [ofVec, scale_real, List.map_ofFn]
  congr 2
  funext i
  exact mul_comm (v i) a

/-- The sum of two vectors. -/
@[simp] theorem add_ofVec : add (ofVec b u) (ofVec b v) = .ok (ofVec b (u + v)) := by
  rw [ofVec, ofVec, add_real, zipWith_ofFn]
  rfl

/-- Their difference. -/
@[simp] theorem sub_ofVec : sub (ofVec b u) (ofVec b v) = .ok (ofVec b (u - v)) := by
  rw [ofVec, ofVec, sub_real, zipWith_ofFn]
  rfl

/-- A point along a line. -/
@[simp] theorem scaledAdd_ofVec (a : K) :
    b.scaledAdd (ofVec b u) (.finite a) (ofVec b v) = .ok (ofVec b (u + a • v)) := by
  rw [ofVec, ofVec, scaledAdd_real, zipWith_ofFn]
  rfl

/-- A point in the other direction. -/
@[simp] theorem scaledSub_ofVec (a : K) :
    b.scaledSub (ofVec b u) (.finite a) (ofVec b v) = .ok (ofVec b (u - a • v)) := by
  rw [ofVec, ofVec, scaledSub_real, zipWith_ofFn]
  rfl

omit [Field K] [LinearOrder K] [Roots K] in
/-- A vector is a tensor with one axis. -/
theorem ofVec_eq_vector : ofVec b v = .vector b ((List.ofFn v).map .finite) := by
  simp [ofVec, real, vector]

/-- The inner product of two vectors. -/
@[simp] theorem dot_ofVec : b.dot (ofVec b u) (ofVec b v) = .ok (.finite (u ⬝ᵥ v)) := by
  rw [ofVec_eq_vector, ofVec_eq_vector, dot_vector b (by simp), inner_finite, zipWith_ofFn,
    List.sum_ofFn]
  rfl

/-- The length of a vector. -/
theorem norm_ofVec : b.norm (ofVec b v) = .ok (Exact.ofOption (Roots.root? (v ⬝ᵥ v))) := by
  rw [ofVec, norm_real, zipWith_ofFn, List.sum_ofFn]
  rfl

/-- Only the zero vector has length zero. -/
theorem eq_norm_zero_iff [IsStrictOrderedRing K] [LawfulRoots K] :
    Scalar.eq (Exact.ofOption (Roots.root? (v ⬝ᵥ v)) : Exact K) 0.0 = true ↔ v = 0 := by
  rw [Exact.lit_zero]
  constructor
  · intro h
    -- A root that does not exist is no number, and equals nothing; one that does squares to the sum of
    -- squares.
    cases hr : Roots.root? (v ⬝ᵥ v) with
    | none => simp [hr, Exact.ofOption, Scalar.eq, Exact.same] at h
    | some r =>
      rw [hr] at h
      obtain rfl : r = 0 := by simpa [Exact.ofOption] using h
      have hzero := LawfulRoots.mul_self_of_root? hr
      rw [mul_zero] at hzero
      exact dotProduct_self_eq_zero.1 hzero.symm
  · rintro rfl
    rw [zero_dotProduct, LawfulRoots.root?_zero]
    simp [Exact.ofOption]

/-! ### Matrices -/

/-- A multiple of a matrix. -/
@[simp] theorem scale_ofMat (a : K) : b.scale (ofMat b M) (.finite a) = ofMat b (a • M) := by
  rw [ofMat, scale_real, ofMat, List.map_flatten, map_rowsOf]
  congr 3
  funext i j
  exact mul_comm (M i j) a

/-- The sum of two matrices. -/
@[simp] theorem add_ofMat : add (ofMat b M) (ofMat b N) = .ok (ofMat b (M + N)) := by
  rw [ofMat, ofMat, add_real, zipWith_rowsOf]
  rfl

/-- The difference of two matrices. -/
@[simp] theorem sub_ofMat : sub (ofMat b M) (ofMat b N) = .ok (ofMat b (M - N)) := by
  rw [ofMat, ofMat, sub_real, zipWith_rowsOf]
  rfl

/-- The outer product of two vectors. -/
@[simp] theorem outer_ofVec (w : Fin m → K) :
    b.outer (ofVec b w) (ofVec b v) = .ok (ofMat b (Matrix.vecMulVec w v)) := by
  -- The rows of the outer product are multiples of the second vector.
  have hrows : (((List.ofFn w).map Exact.finite).map fun x =>
      ((List.ofFn v).map Exact.finite).map (x * ·)) =
      (rowsOf fun i j => Exact.finite (w i * v j)) := by
    simp [rowsOf, List.map_ofFn, Function.comp_def]
  have houter : Tensor.outer b ((List.ofFn w).map Exact.finite) ((List.ofFn v).map Exact.finite) =
      ofMat b (Matrix.vecMulVec w v) := by
    rw [Tensor.outer, matrix, hrows, length_rowsOf, ofMat, real, List.map_flatten, map_rowsOf]
    simp [Matrix.vecMulVec_apply]
  rw [ofVec, ofVec, outer, take_real, take_real]
  simp only [bind, Except.bind]
  rw [if_pos (by simp [real]), ← houter]
  rfl

omit [Field K] [LinearOrder K] [Roots K] in
/-- The entries of a matrix are those of its rows. -/
theorem entries_ofMat : (ofMat b M).entries = (rowsOf fun i j => Exact.finite (M i j)).flatten := by
  rw [ofMat, real, List.map_flatten, map_rowsOf]

omit [Field K] [LinearOrder K] [Roots K] in
/-- A vector is its own transpose. -/
theorem transposeEntries_ofFn {α : Type} (w : Fin n → α) :
    transposeEntries [n] (List.ofFn w) = List.ofFn w := by
  show (columns 1 ((pieces n 1 (List.ofFn w)).map fun xs => xs)).flatten = _
  rw [List.map_id', pieces_ofFn_one, columns_rowsOf]
  simp [rowsOf]

omit [Field K] [LinearOrder K] [Roots K] in
/-- The transpose of a matrix. -/
@[simp] theorem transpose_ofMat : (ofMat b M).transpose = ofMat b M.transpose := by
  have hrows : (rowsOf fun i j => Exact.finite (M i j)).map (transposeEntries [n]) =
      rowsOf fun i j => Exact.finite (M i j) := by
    unfold rowsOf
    rw [List.map_ofFn]
    congr 1
    funext i
    exact transposeEntries_ofFn _
  -- Transposing turns the rows of the entries into columns.
  have hentries : transposeEntries [m, n] (ofMat b M).entries = (ofMat b M.transpose).entries := by
    rw [entries_ofMat, entries_ofMat]
    show (columns (n * 1) ((pieces m (n * 1) _).map (transposeEntries [n]))).flatten = _
    rw [mul_one, pieces_rowsOf, hrows, columns_rowsOf]
    rfl
  show (⟨b, [n, m], transposeEntries [m, n] (ofMat b M).entries⟩ : Tensor (Exact K)) = _
  rw [hentries]
  rfl

/-- Every entry of a product is an inner product of a row and a column. -/
theorem blockProduct_rowsOf {k : Nat} {ys : List (Exact K)} (P : Fin n → Fin k → K)
    (h : pieces n k ys = rowsOf fun i j => Exact.finite (P i j)) :
    blockProduct m n k (ofMat b M).entries ys =
      (rowsOf fun i j => Exact.finite (M i ⬝ᵥ fun l => P l j)).flatten := by
  rw [blockProduct, entries_ofMat, h, pieces_rowsOf, columns_rowsOf, List.flatMap_def]
  congr 1
  simp only [rowsOf, List.map_ofFn, Function.comp_def, inner_ofFn]

/-- A matrix times what has as many rows as it has columns: one block. -/
theorem product?_of_axes {k : Nat} {shape kept : List Nat} {xs ys : List (Exact K)}
    (haxes : rightAxes? shape = some ([], n, k, kept)) (hxs : xs.length = m * n)
    (hys : ys.length = n * k) : (⟨b, [m, n], xs⟩ : Tensor (Exact K)).product? ⟨b, shape, ys⟩ =
      some ⟨b, m :: kept, blockProduct m n k xs ys⟩ := by
  have hleft : xs.take (m * n) = xs := List.take_of_length_le hxs.le
  have hright : ys.take (n * k) = ys := List.take_of_length_le hys.le
  simp [product?, haxes, leftAxes?, blocks, volume, pieces, combine?, hleft, hright]

/-- The product of a matrix with whatever can be cut into as many rows as it has columns. -/
theorem apply_of_pieces {k : Nat} {shape kept : List Nat} {ys : List (Exact K)}
    (P : Fin n → Fin k → K) (haxes : rightAxes? shape = some ([], n, k, kept))
    (hys : ys.length = n * k) (h : pieces n k ys = rowsOf fun i j => Exact.finite (P i j)) :
    apply (ofMat b M) ⟨b, shape, ys⟩ =
      .ok ⟨b, m :: kept, (rowsOf fun i j => Exact.finite (M i ⬝ᵥ fun l => P l j)).flatten⟩ := by
  have hxs : (ofMat b M).entries.length = m * n := by
    rw [entries_ofMat, length_flatten_rowsOf]
  have hproduct : (ofMat b M).product? ⟨b, shape, ys⟩ =
      some ⟨b, m :: kept, blockProduct m n k (ofMat b M).entries ys⟩ :=
    product?_of_axes b haxes hxs hys
  rw [apply, between_of_eq (b := b) rfl rfl, hproduct, blockProduct_rowsOf b M P h]
  rfl

/-- The product with a vector. -/
@[simp] theorem apply_ofVec : apply (ofMat b M) (ofVec b v) = .ok (ofVec b (M.mulVec v)) := by
  -- A vector is a matrix with one column here.
  have hpieces : pieces n 1 (ofVec b v).entries =
      rowsOf fun i (_ : Fin 1) => Exact.finite (v i) := by
    rw [ofVec, real, List.map_ofFn, pieces_ofFn_one]
    rfl
  have haxes : rightAxes? [n] = some ([], n, 1, []) := rfl
  have h := apply_of_pieces b M (fun i (_ : Fin 1) => v i) haxes (by simp [ofVec, real]) hpieces
  rw [flatten_rowsOf_one] at h
  refine h.trans ?_
  rw [ofVec, real, List.map_ofFn]
  rfl

/-- A vector between two others and a matrix. -/
@[simp] theorem weightedDot_ofVec (w : Fin m → K) :
    b.weightedDot (ofVec b w) (ofMat b M) (ofVec b v) = .ok (.finite (w ⬝ᵥ M.mulVec v)) := by
  simp [weightedDot, bind, Except.bind]

/-- The product of two matrices. -/
@[simp] theorem apply_ofMat {k : Nat} (P : Matrix (Fin n) (Fin k) K) :
    apply (ofMat b M) (ofMat b P) = .ok (ofMat b (M * P)) := by
  have hpieces : pieces n k (ofMat b P).entries = rowsOf fun i j => Exact.finite (P i j) := by
    rw [entries_ofMat, pieces_rowsOf]
  have hlength : (ofMat b P).entries.length = n * k := by
    rw [entries_ofMat, length_flatten_rowsOf]
  have haxes : rightAxes? [n, k] = some ([], n, k, [k]) := rfl
  refine (apply_of_pieces b M (fun i j => P i j) haxes hlength hpieces).trans ?_
  congr 1
  show (⟨b, [m, k], _⟩ : Tensor (Exact K)) = ⟨b, [m, k], (ofMat b (M * P)).entries⟩
  rw [entries_ofMat]
  rfl

/-- The rows of the identity matrix. -/
theorem map_identityRow [IsStrictOrderedRing K] : (List.range n).map (identityRow n) =
    rowsOf fun i j => Exact.finite ((1 : Matrix (Fin n) (Fin n) K) i j) := by
  rw [map_range]
  unfold rowsOf identityRow
  congr 1
  -- Row by row, and in a row entry by entry.
  funext i
  rw [map_range]
  congr 1
  funext j
  show (if (i : Nat) = j then (1.0 : Exact K) else 0.0) =
    Exact.finite ((1 : Matrix (Fin n) (Fin n) K) i j)
  rw [Matrix.one_apply]
  by_cases hij : i = j
  · rw [if_pos (congrArg Fin.val hij), if_pos hij, Exact.lit_one]
  · rw [if_neg (fun h => hij (Fin.ext h)), if_neg hij, Exact.lit_zero]

/-- The identity matrix of the size of another one. -/
@[simp] theorem eyeLike_ofMat [IsStrictOrderedRing K] (H : Matrix (Fin n) (Fin n) K) :
    b.eyeLike (ofMat b H) = .ok (ofMat b (1 : Matrix (Fin n) (Fin n) K)) := by
  have hidentity : Tensor.identity b n = ofMat b (1 : Matrix (Fin n) (Fin n) K) := by
    rw [Tensor.identity, map_identityRow, matrix, length_rowsOf]
    show (⟨b, [n, n], _⟩ : Tensor (Exact K)) = ⟨b, [n, n], (ofMat b 1).entries⟩
    rw [entries_ofMat]
  show Except.bind (b.take (ofMat b H)) _ = _
  rw [ofMat, take_real, ← hidentity]
  rfl

end Backend

end Minimization
