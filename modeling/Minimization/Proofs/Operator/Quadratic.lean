import Minimization.Problem.Quadratic
import Minimization.Proofs.Backend.Carried
import Minimization.Proofs.Operator.Transient
import Minimization.Proofs.Tensor.Vectors

namespace Minimization

/-!
# Quadratic functions on two backends

* `Tensor.ofRows_eq` — equally many rows and columns make a square matrix on either backend.
* `Quadratic.Sized` — a function of points of one length.
* `Quadratic.carries` — such a function answers alike on both backends.
* `Quadratic.pointwise` — its answers depend on the point alone.
* `Quadratic.ofMat` — the function of a matrix and a vector; `Quadratic.gradient_ofMat`,
  `Quadratic.hessian_ofMat` — its derivatives.
-/

variable {α ω ω' : Type} {n : Nat}

/-! ### Matrices from their rows -/

namespace Nested

/-- A row as a nested list. -/
def row (xs : List α) : Nested α := .list (xs.map .entry)

/-- Entries have no axes. -/
theorem uniformShapeOfEach?_entries (xs : List α) : uniformShapeOfEach? (xs.map .entry) = some [] := by
  induction xs with
  | nil => rfl
  | cons x xs ih =>
    rw [List.map_cons]
    simp [uniformShapeOfEach?, uniformShape?, ih]

/-- A row has one axis. -/
theorem uniformShape?_row (xs : List α) : (row xs).uniformShape? = some [xs.length] := by
  simp [row, uniformShape?, uniformShapeOfEach?_entries]

/-- Rows of the same length have it in common. -/
theorem uniformShapeOfEach?_rows {rows : List (List α)} (hrows : rows ≠ [])
    (h : ∀ xs ∈ rows, xs.length = n) : uniformShapeOfEach? (rows.map row) = some [n] := by
  induction rows with
  | nil => exact absurd rfl hrows
  | cons xs rows ih =>
    obtain ⟨rfl, hrest⟩ := List.forall_mem_cons.1 h
    rw [List.map_cons]
    cases rows with
    | nil => simp [uniformShapeOfEach?, uniformShape?_row]
    | cons ys rows =>
      have hih := ih (List.cons_ne_nil _ _) hrest
      rw [List.map_cons] at hih ⊢
      rw [uniformShapeOfEach?, uniformShape?_row, hih]
      simp

/-- The entries of a row are those it is made of. -/
theorem entriesOfEach_entries (xs : List α) : entriesOfEach (xs.map .entry) = xs := by
  induction xs with
  | nil => rfl
  | cons x xs ih => simp [entriesOfEach, entries, ih]

/-- The entries of a matrix are those of its rows. -/
theorem entriesOfEach_rows (rows : List (List α)) : entriesOfEach (rows.map row) = rows.flatten := by
  induction rows with
  | nil => rfl
  | cons xs rows ih => simp [entriesOfEach, entries, row, entriesOfEach_entries, ← ih]

/-- A row of entries is full. -/
theorem fillEach_entries (xs : List α) : fillEach (xs.map .entry) [] = .ok () := by
  induction xs with
  | nil => rfl
  | cons x xs ih => simp [fillEach, fill, ih, bind, Except.bind]

/-- So is a matrix whose rows have the same length. -/
theorem fillEach_rows {rows : List (List α)} (h : ∀ xs ∈ rows, xs.length = n) :
    fillEach (rows.map row) [n] = .ok () := by
  induction rows with
  | nil => rfl
  | cons xs rows ih =>
    obtain ⟨rfl, hrest⟩ := List.forall_mem_cons.1 h
    have hrow : (row xs).fill [xs.length] = .ok () := by
      rw [row, fill, List.length_map, if_pos rfl, fillEach_entries]
    rw [List.map_cons, fillEach, hrow]
    exact ih hrest

end Nested

/-- **Rows of one length** make a matrix. -/
theorem Tensor.ofRows_eq (b : Backend) {rows : List (List α)} (hn : n ≠ 0) (hrows : rows ≠ [])
    (h : ∀ xs ∈ rows, xs.length = n) :
    Tensor.ofRows b rows = .ok ⟨b, [rows.length, n], rows.flatten⟩ := by
  show (Nested.list (rows.map Nested.row)).toTensor b = _
  have hentries : (Nested.list (rows.map Nested.row)).entries = rows.flatten :=
    Nested.entriesOfEach_rows rows
  -- General arrays ask for rows of one length, strict tensors fill a shape that the first row gives.
  cases b with
  | array =>
    have huniform : (Nested.list (rows.map Nested.row)).uniformShape? = some [rows.length, n] := by
      rw [Nested.uniformShape?, Nested.uniformShapeOfEach?_rows hrows h, List.length_map]
      rfl
    unfold Nested.toTensor
    simp only [huniform, hentries]
  | tensor =>
    have hleading : (Nested.list (rows.map Nested.row)).leadingShape = [rows.length, n] := by
      obtain ⟨xs, rest, rfl⟩ := List.exists_cons_of_ne_nil hrows
      obtain ⟨rfl, -⟩ := List.forall_mem_cons.1 h
      obtain ⟨x, xs, rfl⟩ := List.exists_cons_of_ne_nil (mt List.length_eq_zero_iff.2 hn)
      simp [Nested.leadingShape, Nested.leadingShapeOfFirst, Nested.row]
    have hvolume : volume [rows.length, n] ≠ 0 := by
      show rows.length * (n * 1) ≠ 0
      rw [Nat.mul_one]
      exact Nat.mul_ne_zero (mt List.length_eq_zero_iff.1 hrows) hn
    have hfill : (Nested.list (rows.map Nested.row)).fill [rows.length, n] = .ok () := by
      rw [Nested.fill, List.length_map, if_pos rfl]
      exact Nested.fillEach_rows h
    unfold Nested.toTensor
    simp only [hleading, hvolume, hfill, hentries, if_false]
    rfl

namespace Quadratic

/-- A function of points with `n` entries. -/
structure Sized (n : Nat) (q : Quadratic α) : Prop where
  rows : q.rows.length = n
  row : ∀ xs ∈ q.rows, xs.length = n
  linear : q.linear.length = n

variable [Scalar α] {q : Quadratic α} {b b' : Backend}

/-- The product of the matrix with a point that is long enough. -/
theorem image_eq {x : List α} (h : ∀ xs ∈ q.rows, xs.length ≤ x.length) :
    q.image x = .ok (q.rows.map (Scalar.inner · x)) := by
  have hrows : ∀ rows : List (List α), (∀ xs ∈ rows, xs.length ≤ x.length) →
      (rows.mapM (inner · x) : Except (Failure α) _) = .ok (rows.map (Scalar.inner · x)) := by
    intro rows hrows
    induction rows with
    | nil => rfl
    | cons xs rows ih =>
      obtain ⟨hxs, hrest⟩ := List.forall_mem_cons.1 hrows
      have hinner : (inner xs x : Except (Failure α) α) = .ok (Scalar.inner xs x) := if_pos hxs
      rw [List.mapM_cons, hinner, ih hrest]
      rfl
  exact hrows q.rows h

/-- The product of the matrix with a point has as many entries as the matrix has rows. -/
theorem exists_image (h : q.Sized n) {x : List α} (hx : x.length = n) :
    ∃ image, q.image x = .ok image ∧ image.length = n :=
  ⟨_, image_eq fun xs hxs => by rw [h.row xs hxs, hx], by rw [List.length_map, h.rows]⟩

/-- **A quadratic function** answers alike on both backends. -/
theorem carries (M : ω → ω' → Prop) (h : q.Sized n) (hn : n ≠ 0) :
    Operator.Carries q.backend b' n M q.operator
      ({ q with backend := b' } : Quadratic α).operator where
  cost := by
    intro x host host' hx hhost
    exact .ofExcept (.same (q.cost x)) (fun _ _ hc => ⟨hc, hhost⟩) hhost
  gradient := by
    intro x host host' hx hhost
    -- The matrix can be applied, since the point has as many entries as it has columns.
    obtain ⟨image, himage, hlength⟩ := exists_image h (x := x.entries)
      (by rw [hx.length_entries]; simp [volume])
    -- The gradient as it comes from either backend.
    have hgradient (c : Backend) : ({ q with backend := c } : Quadratic α).gradient x =
        .ok (.vector c (List.zipWith (· - ·) image q.linear)) := by
      have himage : ({ q with backend := c } : Quadratic α).image x.entries = .ok image := himage
      unfold gradient
      rw [himage]
      exact if_pos (Nat.le_of_eq (hlength.trans h.linear.symm))
    have hzip : (List.zipWith (· - ·) image q.linear).length = n := by
      rw [List.length_zipWith, hlength, h.linear, Nat.min_self]
    refine .ofExcept (V := Vectors q.backend b' n) ?_ (fun _ _ hg => ⟨hg, hhost⟩) hhost
    show Kindred _ (q.gradient x) (({ q with backend := b' } : Quadratic α).gradient x)
    rw [show q.gradient x = _ from hgradient q.backend, hgradient b']
    refine .ok ⟨⟨rfl, ?_, Tensor.wellFormed_vector _ _⟩, rfl⟩
    show [(List.zipWith (· - ·) image q.linear).length] = [n]
    rw [hzip]
  hessian := by
    intro x host host' hx hhost
    -- A matrix without rows would have no columns either.
    have hrows : q.rows ≠ [] := by
      rintro hnil
      rw [← h.rows, hnil] at hn
      exact hn rfl
    refine .ofExcept (V := Matrices q.backend b' n) ?_ (fun _ _ hm => ⟨hm, hhost⟩) hhost
    rw [Tensor.ofRows_eq q.backend hn hrows h.row]
    show Kindred _ _ (Tensor.ofRows b' q.rows)
    rw [Tensor.ofRows_eq b' hn hrows h.row, h.rows]
    exact .ok ⟨⟨rfl, rfl⟩, rfl⟩

/-- The answers depend on the point alone. -/
theorem pointwise (q : Quadratic α) :
    (q.operator : Operator ω α).Pointwise q.cost q.gradient fun _ => Tensor.ofRows q.backend q.rows where
  cost _ host := ⟨host.memory, rfl⟩
  gradient _ host := ⟨host.memory, rfl⟩
  hessian _ host := ⟨host.memory, rfl⟩

/-! ### In exact arithmetic -/

section
variable {K : Type} [Field K] [LinearOrder K] [Roots K]

/-- The function `½ x·Mx - c·x`. -/
def ofMat (b : Backend) (M : Matrix (Fin n) (Fin n) K) (c : Fin n → K) : Quadratic (Exact K) where
  rows := rowsOf fun i j => .finite (M i j)
  linear := List.ofFn fun i => .finite (c i)
  constant := 0.0
  backend := b

variable (b : Backend) (M : Matrix (Fin n) (Fin n) K) (c : Fin n → K)

/-- **The gradient** of a quadratic function is linear. -/
theorem gradient_ofMat (v : Fin n → K) :
    (ofMat b M c).gradient (.ofVec b v) = .ok (.ofVec b (M.mulVec v - c)) := by
  have hentries := Tensor.entries_ofVec b v
  have hlong : ∀ xs ∈ (ofMat b M c).rows, xs.length ≤ (Tensor.ofVec b v).entries.length := by
    intro xs hxs
    rw [length_of_mem_rowsOf xs hxs, hentries, List.length_ofFn]
  -- The image of the point, row by row.
  have himage : (ofMat b M c).rows.map (Scalar.inner · (Tensor.ofVec b v).entries) =
      List.ofFn fun i => Exact.finite (M.mulVec v i) := by
    show (rowsOf _).map _ = _
    unfold rowsOf
    rw [List.map_ofFn]
    congr 1
    funext i
    show Scalar.inner (List.ofFn fun j => Exact.finite (M i j)) _ = _
    rw [hentries, Backend.inner_ofFn]
    rfl
  have hlength : (List.ofFn fun i => Exact.finite (M.mulVec v i)).length ≤
      (ofMat b M c).linear.length := by
    show _ ≤ (List.ofFn fun i => Exact.finite (c i)).length
    rw [List.length_ofFn, List.length_ofFn]
  have hsub : List.zipWith (· - ·) (List.ofFn fun i => Exact.finite (M.mulVec v i))
      (ofMat b M c).linear = (List.ofFn (M.mulVec v - c)).map .finite := by
    show List.zipWith _ _ (List.ofFn fun i => Exact.finite (c i)) = _
    simp only [zipWith_ofFn, List.map_ofFn, Exact.finite_sub]
    rfl
  unfold gradient
  rw [image_eq hlong, himage]
  show (if _ then _ else _) = _
  rw [if_pos hlength, hsub, Backend.ofVec_eq_vector]
  rfl

/-- The Hessian is its matrix, unless that has no rows. -/
theorem hessian_ofMat (hn : n ≠ 0) :
    (Tensor.ofRows b (ofMat b M c).rows : Except (Failure (Exact K)) _) = .ok (.ofMat b M) := by
  have hrows : (ofMat b M c).rows ≠ [] := by
    intro hnil
    have hlength := length_rowsOf fun i j => Exact.finite (M i j)
    rw [show (rowsOf fun i j => Exact.finite (M i j)) = [] from hnil] at hlength
    exact hn hlength.symm
  rw [Tensor.ofRows_eq b hn hrows length_of_mem_rowsOf]
  show Except.ok (⟨b, [(rowsOf fun i j => Exact.finite (M i j)).length, n], _⟩ : Tensor (Exact K)) =
    .ok ⟨b, [n, n], (Tensor.ofMat b M).entries⟩
  rw [length_rowsOf, Backend.entries_ofMat]
  rfl

end

end Quadratic

end Minimization
