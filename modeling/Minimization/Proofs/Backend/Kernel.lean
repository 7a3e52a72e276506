import Minimization.Proofs.Backend.Parallel
import Minimization.Proofs.Method.Parts
import Minimization.Proofs.Tensor.Shaped

namespace Minimization

/-!
# The operations of the two backends

On vectors of one length and square matrices of that size the two backends compute the same, and where
a matrix has no inverse, both say so by a failure of one kind.

* `Carried` — data of some kind, and the same data on the other backend.
* `Vectors`, `Matrices` — vectors of length `n` and matrices with as many rows and columns.
* `Backend.kindred_add` and the lemmas beside it — one for each operation.
* `kindred_secantUpdate`, `QuasiNewton.kindred_revision`, `Newton.kindred_target`,
  `TrustRegion.kindred_predictedDecrease` — compositions of them.
-/

variable {α β : Type}

/-- Data for which `good` holds, and what becomes of them on the other side. -/
def Carried (good : β → Prop) (move : β → β) (x y : β) : Prop := good x ∧ y = move x

/-- What holds of data that are carried over holds of a result. -/
theorem Kindred.good {good : β → Prop} {move : β → β} {x y : Except (Failure α) β} {z : β}
    (h : Kindred (Carried good move) x y) (hx : x = .ok z) : good z := by
  cases h with
  | ok hcarried => exact Except.ok.inj hx ▸ hcarried.1
  | error => cases hx

/-- A matrix with `n` rows and columns. -/
structure Tensor.Square (b : Backend) (n : Nat) (m : Tensor α) : Prop where
  backend : m.backend = b
  shape : m.shape = [n, n]

/-- A tensor that is moved to a backend is on that backend. -/
@[simp] theorem Tensor.backend_onBackend (b : Backend) (x : Tensor α) : (x.onBackend b).backend = b := rfl

/-- Its shape does not change. -/
theorem Tensor.Shaped.onBackend {b : Backend} {shape : List Nat} {x : Tensor α} (hx : x.Shaped b shape)
    (b' : Backend) : (x.onBackend b').Shaped b' shape :=
  ⟨rfl, hx.shape, hx.wellFormed⟩

/-- A square matrix stays one. -/
theorem Tensor.Square.onBackend {b : Backend} {n : Nat} {m : Tensor α} (hm : m.Square b n)
    (b' : Backend) : (m.onBackend b').Square b' n :=
  ⟨rfl, hm.shape⟩

/-- Vectors of length `n` on the backends `b` and `b'`. -/
abbrev Vectors (b b' : Backend) (n : Nat) : Tensor α → Tensor α → Prop :=
  Carried (Tensor.Shaped b [n]) (Tensor.onBackend b')

/-- Square matrices of size `n` on the backends `b` and `b'`. -/
abbrev Matrices (b b' : Backend) (n : Nat) : Tensor α → Tensor α → Prop :=
  Carried (Tensor.Square b n) (Tensor.onBackend b')

/-! ### Shapes of products -/

namespace Tensor

/-- There are as many columns as the matrix is wide. -/
theorem length_columns (width : Nat) (rows : List (List α)) : (columns width rows).length = width := by
  induction width generalizing rows with
  | zero => rfl
  | succ width ih =>
    unfold columns
    rw [List.length_cons, ih]

/-- The product of an `m`-by-`k` and a `k`-by-`n` matrix has `m * n` entries. -/
theorem length_blockProduct [Scalar α] (m k n : Nat) (xs ys : List α) :
    (blockProduct m k n xs ys).length = m * n := by
  unfold blockProduct
  rw [List.length_flatMap]
  simp only [List.length_map, length_columns, List.map_const', List.sum_replicate_nat, length_pieces]

/-- An operation on corresponding entries does not depend on the backend. -/
theorem combine?_onBackend (b : Backend) (f : α → α → β) (x y : Tensor α) :
    combine? f (x.onBackend b) (y.onBackend b) = (combine? f x y).map (onBackend b) := by
  have hb : (x.onBackend b).backend.join (y.onBackend b).backend = b := Backend.join_self b
  unfold combine?
  dsimp only
  rw [hb]
  by_cases h : x.shape = y.shape
  · rw [if_pos h]
    exact if_pos h
  · rw [if_neg h]
    refine (if_neg h).trans ?_
    show (commonShape? x.shape y.shape >>= _) = Option.map _ (commonShape? x.shape y.shape >>= _)
    cases commonShape? x.shape y.shape <;> rfl

variable [Scalar α]

/-- Neither does a product. -/
theorem product?_onBackend (b : Backend) (x y : Tensor α) :
    product? (x.onBackend b) (y.onBackend b) = (product? x y).map (onBackend b) := by
  have hcombine {k m n : Nat} (s t : List Nat) (p q : Nat) :
      combine? (blockProduct m k n) ((x.onBackend b).blocks s p) ((y.onBackend b).blocks t q) =
        (combine? (blockProduct m k n) (x.blocks s p) (y.blocks t q)).map (onBackend b) :=
    combine?_onBackend b _ (x.blocks s p) (y.blocks t q)
  unfold product?
  simp only [hcombine]
  -- Both sides split the axes in the same way, since the shapes are the same; only then the blocks come
  -- in.
  show (leftAxes? x.shape >>= _) = Option.map _ (leftAxes? x.shape >>= _)
  rcases leftAxes? x.shape with _ | ⟨batchX, m, k, keptX⟩
  · rfl
  show (rightAxes? y.shape >>= _) = Option.map _ (rightAxes? y.shape >>= _)
  rcases rightAxes? y.shape with _ | ⟨batchY, k', n, keptY⟩
  · rfl
  dsimp only [Option.bind_eq_bind, Option.bind_some]
  split
  · cases combine? (blockProduct m k n) (x.blocks batchX (m * k)) (y.blocks batchY (k * n)) <;> rfl
  · rfl

omit [Scalar α] in
/-- All axes in the opposite order. -/
theorem transpose_onBackend (b : Backend) (x : Tensor α) :
    (x.onBackend b).transpose = x.transpose.onBackend b := by
  obtain ⟨_, shape, _⟩ := x
  match shape with
  | [] => rfl
  | [_] => rfl
  | _ :: _ :: _ => rfl

end Tensor

namespace Backend

variable [Scalar α] {b b' : Backend} {n : Nat} {x y m : Tensor α}

/-! ### Vectors and numbers -/

omit [Scalar α] in
/-- An operation between tensors of one backend is the same on the other one, if the shapes fit. -/
theorem kindred_fit {good : Tensor α → Prop} {z? : Option (Tensor α)} (h : ∃ z, z? = some z ∧ good z) :
    Kindred (α := α) (Carried good (Tensor.onBackend b')) (b.fit z?)
      (b'.fit (z?.map (Tensor.onBackend b'))) := by
  obtain ⟨z, rfl, hz⟩ := h
  exact .ok ⟨hz, rfl⟩

omit [Scalar α] in
/-- An entrywise operation on vectors has a result. -/
theorem exists_combine? (f : α → α → α) (hx : x.Shaped b [n]) (hy : y.Shaped b [n]) :
    ∃ z, Tensor.combine? f x y = some z ∧ z.Shaped b [n] := by
  refine ⟨_, Tensor.combine?_of_shape_eq f (hx.shape.trans hy.shape.symm), ?_, hx.shape, ?_⟩
  · show x.backend.join y.backend = b
    rw [hx.backend, hy.backend, join_self]
  · show (List.zipWith f x.entries y.entries).length = volume x.shape
    rw [List.length_zipWith, hx.length_entries, hy.length_entries, hx.shape, Nat.min_self]

/-- Sums of vectors. -/
theorem kindred_add (hx : x.Shaped b [n]) (hy : y.Shaped b [n]) :
    Kindred (Vectors b b' n) (add x y) (add (x.onBackend b') (y.onBackend b')) := by
  unfold add
  rw [between_of_eq hx.backend hy.backend, between_of_eq (b := b') rfl rfl, Tensor.combine?_onBackend]
  exact kindred_fit (exists_combine? _ hx hy)

/-- Differences of vectors. -/
theorem kindred_sub (hx : x.Shaped b [n]) (hy : y.Shaped b [n]) :
    Kindred (Vectors b b' n) (sub x y) (sub (x.onBackend b') (y.onBackend b')) := by
  unfold sub
  rw [between_of_eq hx.backend hy.backend, between_of_eq (b := b') rfl rfl, Tensor.combine?_onBackend]
  exact kindred_fit (exists_combine? _ hx hy)

omit [Scalar α] in
/-- What is on a backend already need not be converted. -/
theorem convert_onBackend (b : Backend) (x : Tensor α) : b.convert (x.onBackend b) = x.onBackend b := by
  cases b <;> rfl

omit [Scalar α] in
/-- The same for any tensor that is on it. -/
theorem convert_of_eq (h : x.backend = b) : b.convert x = x := by
  obtain ⟨c, s, xs⟩ := x
  obtain rfl : c = b := h
  cases c <;> rfl

/-- Multiples of a tensor. -/
theorem scale_onBackend (hx : x.backend = b) (c : α) :
    b'.scale (x.onBackend b') c = (b.scale x c).onBackend b' := by
  unfold scale
  rw [convert_onBackend, convert_of_eq hx]
  rfl

/-- A multiple of a vector is a vector of the same length. -/
theorem shaped_scale (hx : x.Shaped b [n]) (c : α) : (b.scale x c).Shaped b [n] := by
  unfold scale
  rw [convert_of_eq hx.backend]
  exact hx.map _

/-- Points along a line. -/
theorem kindred_scaledAdd (hx : x.Shaped b [n]) (c : α) (hy : y.Shaped b [n]) :
    Kindred (Vectors b b' n) (b.scaledAdd x c y) (b'.scaledAdd (x.onBackend b') c (y.onBackend b')) := by
  unfold scaledAdd
  rw [convert_of_eq hx.backend, convert_of_eq hy.backend, convert_onBackend, convert_onBackend]
  exact kindred_add hx (hy.map _)

/-- A vector and a multiple of another one are subtracted alike. -/
theorem kindred_scaledSub (hx : x.Shaped b [n]) (c : α) (hy : y.Shaped b [n]) :
    Kindred (Vectors b b' n) (b.scaledSub x c y) (b'.scaledSub (x.onBackend b') c (y.onBackend b')) := by
  unfold scaledSub
  rw [convert_of_eq hx.backend, convert_of_eq hy.backend, convert_onBackend, convert_onBackend]
  exact kindred_sub hx (hy.map _)

omit [Scalar α] in
/-- A tensor of shape `[n]` is a vector. -/
theorem eq_vector (hx : x.Shaped b [n]) : x = .vector b x.entries := by
  have hlength : x.entries.length = n := by
    rw [hx.length_entries]
    simp [volume]
  obtain ⟨c, s, xs⟩ := x
  obtain rfl : c = b := hx.backend
  obtain rfl : s = [n] := hx.shape
  unfold Tensor.vector
  rw [hlength]

/-- **Inner products** of vectors, for which the backends have rules of their own. -/
theorem kindred_dot (hx : x.Shaped b [n]) (hy : y.Shaped b [n]) :
    Kindred (· = ·) (b.dot x y) (b'.dot (x.onBackend b') (y.onBackend b')) := by
  have hlength : x.entries.length = y.entries.length :=
    hx.length_entries.trans hy.length_entries.symm
  have hmoved : b'.dot (x.onBackend b') (y.onBackend b') =
      b'.dot (.vector b' x.entries) (.vector b' y.entries) := by
    rw [eq_vector hx, eq_vector hy]
    rfl
  rw [hmoved, dot_vector b' hlength, eq_vector hx, eq_vector hy, dot_vector b hlength]
  exact .ok rfl

/-- Lengths. -/
theorem kindred_norm (hx : x.backend = b) :
    Kindred (· = ·) (b.norm x) (b'.norm (x.onBackend b')) := by
  unfold norm
  rw [take_of_eq hx, take_of_eq (b := b') rfl]
  exact .ok rfl

/-! ### Matrices -/

/-- The product of two blocks, where there are no leading axes. -/
theorem combine?_blocks (hx : x.backend = b) (hy : y.backend = b) (k l n p q : Nat) :
    Tensor.combine? (Tensor.blockProduct k l n) (x.blocks [] p) (y.blocks [] q) =
      some ⟨b, [], [Tensor.blockProduct k l n (x.entries.take p) (y.entries.take q)]⟩ := by
  have hb : (x.blocks [] p).backend.join (y.blocks [] q).backend = b := by
    show x.backend.join y.backend = b
    rw [hx, hy, join_self]
  have hshape : (x.blocks [] p).shape = (y.blocks [] q).shape := rfl
  rw [Tensor.combine?_of_shape_eq _ hshape, hb]
  rfl

/-- The product of a square matrix with a vector is a vector. -/
theorem exists_product?_vector (hm : m.Square b n) (hx : x.Shaped b [n]) :
    ∃ z, Tensor.product? m x = some z ∧ z.Shaped b [n] := by
  refine ⟨⟨b, [n], Tensor.blockProduct n n 1 (m.entries.take (n * n)) (x.entries.take (n * 1))⟩, ?_,
    rfl, rfl, ?_⟩
  · unfold Tensor.product?
    rw [hm.shape, hx.shape]
    simp only [Tensor.leftAxes?, Tensor.rightAxes?, Option.bind_eq_bind, Option.bind_some, if_true,
      combine?_blocks hm.backend hx.backend]
    simp
  · show (Tensor.blockProduct n n 1 _ _).length = _
    rw [Tensor.length_blockProduct]
    simp [volume]

/-- The product of square matrices is a square matrix. -/
theorem exists_product?_matrix {m' : Tensor α} (hm : m.Square b n) (hm' : m'.Square b n) :
    ∃ z, Tensor.product? m m' = some z ∧ z.Square b n := by
  refine ⟨⟨b, [n, n], Tensor.blockProduct n n n (m.entries.take (n * n)) (m'.entries.take (n * n))⟩, ?_,
    rfl, rfl⟩
  unfold Tensor.product?
  rw [hm.shape, hm'.shape]
  simp only [Tensor.leftAxes?, Tensor.rightAxes?, Option.bind_eq_bind, Option.bind_some, if_true,
    combine?_blocks hm.backend hm'.backend]
  simp

/-- A matrix is applied to a vector alike on both backends. -/
theorem kindred_apply (hm : m.Square b n) (hx : x.Shaped b [n]) :
    Kindred (Vectors b b' n) (apply m x) (apply (m.onBackend b') (x.onBackend b')) := by
  unfold apply
  rw [between_of_eq hm.backend hx.backend, between_of_eq (b := b') rfl rfl, Tensor.product?_onBackend]
  exact kindred_fit (exists_product?_vector hm hx)

/-- Two square matrices are multiplied alike. -/
theorem kindred_multiply {m' : Tensor α} (hm : m.Square b n) (hm' : m'.Square b n) :
    Kindred (Matrices b b' n) (apply m m') (apply (m.onBackend b') (m'.onBackend b')) := by
  unfold apply
  rw [between_of_eq hm.backend hm'.backend, between_of_eq (b := b') rfl rfl, Tensor.product?_onBackend]
  exact kindred_fit (exists_product?_matrix hm hm')

omit [Scalar α] in
/-- Two matrices of the same size can be combined entry by entry. -/
theorem exists_combine?_matrix {m' : Tensor α} (f : α → α → α) (hm : m.Square b n)
    (hm' : m'.Square b n) : ∃ z, Tensor.combine? f m m' = some z ∧ z.Square b n := by
  refine ⟨_, Tensor.combine?_of_shape_eq f (hm.shape.trans hm'.shape.symm), ?_, hm.shape⟩
  show m.backend.join m'.backend = b
  rw [hm.backend, hm'.backend, join_self]

/-- Sums and differences of matrices. -/
theorem kindred_add_matrix {m' : Tensor α} (hm : m.Square b n) (hm' : m'.Square b n) :
    Kindred (Matrices b b' n) (add m m') (add (m.onBackend b') (m'.onBackend b')) := by
  unfold add
  rw [between_of_eq hm.backend hm'.backend, between_of_eq (b := b') rfl rfl, Tensor.combine?_onBackend]
  exact kindred_fit (exists_combine?_matrix _ hm hm')

/-- Matrices are subtracted alike. -/
theorem kindred_sub_matrix {m' : Tensor α} (hm : m.Square b n) (hm' : m'.Square b n) :
    Kindred (Matrices b b' n) (sub m m') (sub (m.onBackend b') (m'.onBackend b')) := by
  unfold sub
  rw [between_of_eq hm.backend hm'.backend, between_of_eq (b := b') rfl rfl, Tensor.combine?_onBackend]
  exact kindred_fit (exists_combine?_matrix _ hm hm')

/-- A multiple of a square matrix is square. -/
theorem square_scale (hm : m.Square b n) (c : α) : (b.scale m c).Square b n := by
  unfold scale
  rw [convert_of_eq hm.backend]
  exact ⟨hm.backend, hm.shape⟩

omit [Scalar α] in
/-- So is its transpose. -/
theorem square_transpose (hm : m.Square b n) : m.transpose.Square b n := by
  obtain ⟨c, s, xs⟩ := m
  obtain rfl : s = [n, n] := hm.shape
  exact ⟨hm.backend, rfl⟩

/-- The numbers `x · (m y)`. -/
theorem kindred_weightedDot (hx : x.Shaped b [n]) (hm : m.Square b n) (hy : y.Shaped b [n]) :
    Kindred (· = ·) (b.weightedDot x m y)
      (b'.weightedDot (x.onBackend b') (m.onBackend b') (y.onBackend b')) := by
  unfold weightedDot
  refine .bind (kindred_apply hm hy) ?_
  rintro z _ ⟨hz, rfl⟩
  exact kindred_dot hx hz

/-- **Outer products** of vectors, for which the backends have rules of their own. -/
theorem kindred_outer (hx : x.Shaped b [n]) (hy : y.Shaped b [n]) :
    Kindred (Matrices b b' n) (b.outer x y) (b'.outer (x.onBackend b') (y.onBackend b')) := by
  have houter {c : Backend} {x y : Tensor α} (hx : x.Shaped c [n]) (hy : y.Shaped c [n]) :
      c.outer x y = .ok (Tensor.outer c x.entries y.entries) := by
    unfold outer
    rw [hx.take_eq, hy.take_eq]
    -- Both are vectors, which is what strict tensors ask for.
    refine if_pos (.inr ⟨?_, ?_⟩)
    · rw [hx.shape]
      rfl
    · rw [hy.shape]
      rfl
  rw [houter hx hy, houter (hx.onBackend b') (hy.onBackend b')]
  refine .ok ⟨⟨rfl, ?_⟩, rfl⟩
  show [(x.entries.map _).length, y.entries.length] = [n, n]
  rw [List.length_map, hx.length_entries, hy.length_entries]
  simp [volume]

/-- The identity matrix. -/
theorem kindred_eyeLike (hm : m.Square b n) :
    Kindred (Matrices b b' n) (b.eyeLike m) (b'.eyeLike (m.onBackend b')) := by
  have heye {c : Backend} {m : Tensor α} (hm : m.Square c n) :
      c.eyeLike m = .ok (Tensor.identity c n) := by
    unfold eyeLike
    rw [hm.shape]
    dsimp only
    rw [take_of_eq hm.backend]
    exact congrArg (fun c => Except.ok (Tensor.identity c n)) hm.backend
  rw [heye hm, heye (hm.onBackend b')]
  refine .ok ⟨⟨rfl, ?_⟩, rfl⟩
  show [((List.range n).map (Tensor.identityRow n)).length, n] = [n, n]
  rw [List.length_map, List.length_range]

omit [Scalar α] in
/-- A matrix with as many rows as columns is one matrix to invert. -/
theorem squareAxes?_square (b : Backend) (n : Nat) :
    (b.squareAxes? [n, n] : Except (Failure α) _) = .ok ([], n) := by
  unfold squareAxes?
  exact if_pos rfl

/-- A matrix that the elimination inverts has this inverse. -/
theorem inv_of_ok (hm : m.Square b n) {xs : List α}
    (h : Tensor.invertEach n 0 (pieces 1 (n * n) m.entries) = .ok xs) :
    b.inv m = .ok ⟨b, [n, n], xs⟩ := by
  unfold inv
  simp only [take_of_eq hm.backend, hm.shape, squareAxes?_square, bind, Except.bind, volume, h]
  rfl

/-- Any other one is refused as a numerical failure. -/
theorem inv_of_error (hm : m.Square b n) {place : Nat × Nat}
    (h : Tensor.invertEach n 0 (pieces 1 (n * n) m.entries) = .error place) :
    ∃ e, b.inv m = .error e ∧ e.kind = .numericalFailure := by
  unfold inv
  simp only [take_of_eq hm.backend, hm.shape, squareAxes?_square, bind, Except.bind, volume, h]
  cases b <;> exact ⟨_, rfl, rfl⟩

/-- **Inverses**: where there is none the backends say so in different words. -/
theorem kindred_inv (hm : m.Square b n) :
    Kindred (Matrices b b' n) (b.inv m) (b'.inv (m.onBackend b')) := by
  cases hinverse : Tensor.invertEach n 0 (pieces 1 (n * n) m.entries) with
  | ok xs =>
    rw [inv_of_ok hm hinverse, inv_of_ok (hm.onBackend b') hinverse]
    exact .ok ⟨⟨rfl, rfl⟩, rfl⟩
  | error place =>
    obtain ⟨e, he, hkind⟩ := inv_of_error hm hinverse
    obtain ⟨e', he', hkind'⟩ := inv_of_error (hm.onBackend b') hinverse
    rw [he, he']
    exact .error (hkind'.trans hkind.symm)

end Backend

variable [Scalar α] {b b' : Backend} {n : Nat}

/-! ### Compositions -/

/-- **The update of an inverse Hessian.** -/
theorem kindred_secantUpdate {h s y : Tensor α} (hh : h.Square b n) (hs : s.Shaped b [n])
    (hy : y.Shaped b [n]) :
    Kindred (Carried (fun u => ∀ m, u.2 = some m → m.Square b n)
        fun u => (u.1, u.2.map (Tensor.onBackend b')))
      (secantUpdate h s y) (secantUpdate (h.onBackend b') (s.onBackend b') (y.onBackend b')) := by
  unfold secantUpdate
  rw [hs.backend]
  refine .bind (Backend.kindred_dot hy hs) ?_
  rintro curvature _ rfl
  dsimp only
  split
  -- The factors in their order: each one is square, and so is what it is multiplied by.
  · refine .bind (Backend.kindred_eyeLike hh) ?_
    rintro identity _ ⟨hidentity, rfl⟩
    refine .bind (Backend.kindred_outer hs hy) ?_
    rintro tilt _ ⟨htilt, rfl⟩
    have hleft := Backend.square_scale htilt (1.0 / curvature)
    rw [Tensor.backend_onBackend, Backend.scale_onBackend htilt.backend]
    refine .bind (Backend.kindred_sub_matrix hidentity hleft) ?_
    rintro before _ ⟨hbefore, rfl⟩
    rw [Tensor.transpose_onBackend]
    refine .bind (Backend.kindred_sub_matrix hidentity (Backend.square_transpose hleft)) ?_
    rintro after _ ⟨hafter, rfl⟩
    refine .bind (Backend.kindred_outer hs hs) ?_
    rintro square _ ⟨hsquare, rfl⟩
    rw [Backend.scale_onBackend hsquare.backend]
    refine .bind (Backend.kindred_multiply hh hafter) ?_
    rintro middle _ ⟨hmiddle, rfl⟩
    refine .bind (Backend.kindred_multiply hbefore hmiddle) ?_
    rintro product _ ⟨hproduct, rfl⟩
    refine .bind (Backend.kindred_add_matrix hproduct (Backend.square_scale hsquare _)) ?_
    rintro updated _ ⟨hupdated, rfl⟩
    refine .pure ⟨?_, rfl⟩
    rintro _ ⟨⟩
    exact hupdated
  · exact .pure ⟨nofun, rfl⟩

/-- **What an iteration learns**, from points and gradients. -/
theorem QuasiNewton.kindred_revision {h x g x' g' : Tensor α} (hh : h.Square b n)
    (hx : x.Shaped b [n]) (hg : g.Shaped b [n]) (hx' : x'.Shaped b [n]) (hg' : g'.Shaped b [n]) :
    Kindred (Carried (fun u => ∀ m, u.2 = some m → m.Square b n)
        fun u => (u.1, u.2.map (Tensor.onBackend b')))
      (revision h x g x' g') (revision (h.onBackend b') (x.onBackend b') (g.onBackend b')
        (x'.onBackend b') (g'.onBackend b')) := by
  refine .bind (Backend.kindred_sub hg' hg) ?_
  rintro y _ ⟨hy, rfl⟩
  refine .bind (Backend.kindred_sub hx' hx) ?_
  rintro s _ ⟨hs, rfl⟩
  exact kindred_secantUpdate hh hs hy

/-- **Where a Newton step leads.** -/
theorem Newton.kindred_target (k : Newton α) {x g h : Tensor α} (hx : x.Shaped b [n])
    (hg : g.Shaped b [n]) (hh : h.Square b n) :
    Kindred (Vectors b b' n) (k.target x g h)
      (k.target (x.onBackend b') (g.onBackend b') (h.onBackend b')) := by
  unfold target
  rw [hx.backend, Tensor.backend_onBackend]
  refine .bind (Backend.kindred_inv hh) ?_
  rintro inverse _ ⟨hinverse, rfl⟩
  refine .bind (Backend.kindred_apply hinverse hg) ?_
  rintro direction _ ⟨hdirection, rfl⟩
  exact Backend.kindred_scaledSub hx k.gamma hdirection

/-- The decrease of the quadratic model. -/
theorem TrustRegion.kindred_predictedDecrease {g h p : Tensor α} (cost : α) (hg : g.Shaped b [n])
    (hh : h.Square b n) (hp : p.Shaped b [n]) :
    Kindred (· = ·) (predictedDecrease b cost g h p)
      (predictedDecrease b' cost (g.onBackend b') (h.onBackend b') (p.onBackend b')) := by
  unfold predictedDecrease
  refine .bind (Backend.kindred_dot hg hp) ?_
  rintro slope _ rfl
  refine .bind (Backend.kindred_weightedDot hp hh hp) ?_
  rintro bend _ rfl
  exact .pure rfl

end Minimization
