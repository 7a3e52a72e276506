import Minimization.Backend.Operations

namespace Minimization

/-!
# Tensors of one shape

Whatever their entries are, tensors of one family and one shape stay so under the operations that a
search along a line is made of, and none of these fails.

* `Tensor.Shaped` — a tensor of a family and a shape, with as many entries as the shape asks for.
* `Tensor.Shaped.exists_scaledAdd`, `Tensor.Shaped.norm_eq` — points along a line, and lengths.
* `Backend.Multiplies` — the inner product of two tensors of the shape exists; `Backend.multiplies`
  — it does for strict tensors, and for general arrays with one axis at most.
-/

variable {α : Type} {b : Backend} {shape : List Nat} {x y : Tensor α}

/-- A tensor of the family `b` and of the given shape. -/
structure Tensor.Shaped (b : Backend) (shape : List Nat) (x : Tensor α) : Prop where
  backend : x.backend = b
  shape : x.shape = shape
  wellFormed : x.WellFormed

namespace Tensor.Shaped

/-- A tensor of the family need not be converted. -/
theorem convert_eq (hx : x.Shaped b shape) : b.convert x = x := by
  obtain ⟨rfl, -, -⟩ := hx
  obtain ⟨_ | _, _, _⟩ := x <;> rfl

/-- It need not be refused, either. -/
theorem take_eq (hx : x.Shaped b shape) : (b.take x : Except (Failure α) _) = .ok x :=
  Backend.take_of_eq hx.backend

/-- It has as many entries as its shape says. -/
theorem length_entries (hx : x.Shaped b shape) : x.entries.length = volume shape := by
  rw [← hx.shape]
  exact hx.wellFormed

/-- A change of the entries keeps the shape. -/
theorem map (hx : x.Shaped b shape) (f : α → α) : (x.map f).Shaped b shape where
  backend := hx.backend
  shape := hx.shape
  wellFormed := by
    show (x.entries.map f).length = volume x.shape
    rw [List.length_map]
    exact hx.wellFormed

variable [Scalar α]

/-- Sums exist, and have the shape. -/
theorem exists_add (hx : x.Shaped b shape) (hy : y.Shaped b shape) :
    ∃ z, Backend.add x y = .ok z ∧ z.Shaped b shape := by
  refine ⟨⟨b, shape, List.zipWith (· + ·) x.entries y.entries⟩, ?_, rfl, rfl, ?_⟩
  · unfold Backend.add
    rw [Backend.between_of_eq hx.backend hy.backend,
      Tensor.combine?_of_shape_eq _ (hx.shape.trans hy.shape.symm), hx.backend, hy.backend, hx.shape,
      Backend.join_self]
    rfl
  · show (List.zipWith _ _ _).length = _
    rw [List.length_zipWith, hx.length_entries, hy.length_entries, Nat.min_self]

/-- So do the points along a line. -/
theorem exists_scaledAdd (hx : x.Shaped b shape) (hy : y.Shaped b shape) (a : α) :
    ∃ z, b.scaledAdd x a y = .ok z ∧ z.Shaped b shape := by
  unfold Backend.scaledAdd
  rw [hx.convert_eq, hy.convert_eq]
  exact hx.exists_add (hy.map _)

/-- A tensor of the family has a length. -/
theorem norm_eq (hx : x.Shaped b shape) : b.norm x = .ok x.norm := by
  unfold Backend.norm
  rw [hx.take_eq]
  rfl

end Tensor.Shaped

namespace Backend

variable [Scalar α]

variable (α) in
/-- Any two tensors of the shape have an inner product. -/
def Multiplies (b : Backend) (shape : List Nat) : Prop :=
  ∀ ⦃x y : Tensor α⦄, x.Shaped b shape → y.Shaped b shape → ∃ c, b.dot x y = .ok c

/-- **Inner products** exist between strict tensors, and between general arrays that are numbers or
    vectors. -/
theorem multiplies (h : b = .tensor ∨ shape.length ≤ 1) : b.Multiplies α shape := by
  intro x y hx hy
  have hlength : x.entries.length = y.entries.length :=
    hx.length_entries.trans hy.length_entries.symm
  unfold dot
  rw [hx.take_eq, hy.take_eq]
  -- The one backend flattens both, and asks for equal lengths only; the other contracts an axis, of
  -- which there is at most one.
  cases b with
  | tensor => exact ⟨_, if_pos hlength⟩
  | array =>
    have haxes : shape.length ≤ 1 := h.resolve_left nofun
    have hxshape := hx.shape
    have hyshape := hy.shape
    show ∃ c, contract x y = _
    unfold contract
    match shape, haxes with
    | [], _ =>
      obtain ⟨p, hp⟩ := List.length_eq_one_iff.1 hx.length_entries
      obtain ⟨q, hq⟩ := List.length_eq_one_iff.1 hy.length_entries
      rw [hxshape, hyshape, hp, hq]
      exact ⟨p * q, rfl⟩
    | [n], _ =>
      have hcontracted : Tensor.contracted? [n] [n] = some [] := by
        simp [Tensor.contracted?, Tensor.rightAxes?]
      rw [hxshape, hyshape, hcontracted]
      exact ⟨_, rfl⟩

end Backend

end Minimization
