import Mathlib.LinearAlgebra.Matrix.NonsingularInverse
import Mathlib.Tactic.LinearCombination
import Minimization.Proofs.Method.Parts
import Minimization.Proofs.Tensor.Vectors

namespace Minimization

/-!
# Elimination computes the inverse

On an invertible matrix of finite numbers no pivot is zero, whatever the choice among the largest
ones, and back substitution yields the inverse.

* `Tensor.Equation` — a row of the augmented matrix, read as an equation between unknown vectors.
* `Tensor.takePivot_row` — the pivot equation and the others are those at hand; if the pivot is
  zero, so is the whole column.
* `Tensor.Independent.pivot` — one step of elimination; the pivot of independent equations is not
  zero.
* `Tensor.eliminate_row` — elimination leaves a triangular system that has no other solutions.
* `Tensor.backSubstitute_row` — back substitution solves a triangular system.
* `Backend.inv_ofMat` — the inverse of a matrix; `Newton.target_ofVec` — a step with it.
-/

namespace Tensor

variable {K : Type} {m : Nat}

/-- A linear equation between unknown vectors. -/
structure Equation (K : Type) (m : Nat) where
  coefficients : List K
  right : Fin m → K

/-- The row of the augmented matrix that an equation stands in. -/
def Equation.row (e : Equation K m) : List (Exact K) :=
  (e.coefficients ++ List.ofFn e.right).map .finite

variable [Field K]

section Combination

variable {V : Type} [AddCommGroup V] [Module K V]

/-- The sum of the vectors with the given coefficients. -/
def combination (cs : List K) (xs : List V) : V := (List.zipWith (· • ·) cs xs).sum

/-- No vectors, no sum. -/
@[simp] theorem combination_nil (cs : List K) : combination cs ([] : List V) = 0 := by
  simp [combination]

/-- The first vector comes with the first coefficient. -/
@[simp] theorem combination_cons (c : K) (cs : List K) (x : V) (xs : List V) :
    combination (c :: cs) (x :: xs) = c • x + combination cs xs := by
  simp [combination]

/-- Combinations are linear in their coefficients. -/
theorem combination_sub {cs ds : List K} (h : cs.length = ds.length) (k : K) (xs : List V) :
    combination (List.zipWith (fun c d => c - k * d) cs ds) xs =
      combination cs xs - k • combination ds xs := by
  -- The lists are of one length, so the induction takes a coefficient from each together with its
  -- vector.
  induction xs generalizing cs ds with
  | nil => simp
  | cons x xs ih =>
    cases cs with
    | nil =>
      obtain rfl : ds = [] := List.eq_nil_of_length_eq_zero (by simpa using h.symm)
      simp [combination]
    | cons c cs =>
      obtain ⟨d, ds, rfl⟩ := List.exists_cons_of_length_eq_add_one (h.symm.trans List.length_cons)
      rw [List.zipWith_cons_cons, combination_cons, combination_cons, combination_cons,
        ih (by simpa using h), sub_smul, mul_smul, smul_add]
      abel

/-- Zero vectors sum up to zero, whatever their coefficients. -/
theorem combination_replicate_zero (cs : List K) (n : Nat) :
    combination cs (List.replicate n (0 : V)) = 0 := by
  induction n generalizing cs with
  | zero => simp
  | succ n ih =>
    cases cs with
    | nil => simp [combination]
    | cons c cs => rw [List.replicate_succ, combination_cons, ih, smul_zero, zero_add]

end Combination

namespace Equation

/-- The unknown vectors satisfy the equation. -/
def Holds (e : Equation K m) (xs : List (Fin m → K)) : Prop :=
  combination e.coefficients xs = e.right

/-- The equation without its first unknown, by means of a pivot equation. -/
def cleared (pivot e : Equation K m) : Equation K m :=
  match pivot.coefficients, e.coefficients with
  | p :: ps, c :: cs =>
    ⟨List.zipWith (fun x y => x - c / p * y) cs ps, e.right - (c / p) • pivot.right⟩
  | _, _ => e

/-- Clearing does not lose solutions of the pivot equation. -/
theorem Holds.of_cleared {p c : K} {ps cs : List K} {u w : Fin m → K} (hp : p ≠ 0)
    (hlength : cs.length = ps.length) {x : Fin m → K} {xs : List (Fin m → K)}
    (hpivot : Holds ⟨p :: ps, u⟩ (x :: xs))
    (h : (cleared ⟨p :: ps, u⟩ ⟨c :: cs, w⟩).Holds xs) : Holds ⟨c :: cs, w⟩ (x :: xs) := by
  unfold Holds cleared at *
  dsimp only at *
  rw [combination_cons] at hpivot ⊢
  rw [combination_sub hlength] at h
  -- Adding back the multiple of the pivot that was taken off restores the equation.
  calc c • x + combination cs xs
      = c • x + (w - (c / p) • u + (c / p) • combination ps xs) := by rw [← h]; abel
    _ = w := by
      rw [← hpivot, smul_add, smul_smul, div_mul_cancel₀ c hp]
      abel

end Equation

open Equation

/-- Only zero unknowns satisfy the equations with zeros on the right. -/
def Independent (es : List (Equation K m)) (n : Nat) : Prop :=
  ∀ v : List K, v.length = n → (∀ e ∈ es, combination e.coefficients v = 0) → ∀ c ∈ v, c = 0

/-- Clearing leaves equations independent, since the pivot equation determines the first unknown from
    the others. -/
theorem Independent.cleared {n : Nat} {p : K} {ps : List K} {u : Fin m → K}
    {rest : List (Equation K m)} (hp : p ≠ 0)
    (hrest : ∀ e ∈ rest, ∃ c cs w, e = ⟨c :: cs, w⟩ ∧ cs.length = ps.length)
    (h : Independent (⟨p :: ps, u⟩ :: rest) (n + 1)) :
    Independent (rest.map (Equation.cleared ⟨p :: ps, u⟩)) n := by
  intro v hv hsolves
  -- A solution of the cleared equations extends to one of all; the pivot equation gives the first
  -- unknown.
  have hall := h (-(combination ps v / p) :: v) (by simp [hv]) fun e he => ?_
  · exact fun c hc => hall c (List.mem_cons_of_mem _ hc)
  obtain rfl | he := List.mem_cons.1 he
  · rw [combination_cons, smul_eq_mul, mul_neg, mul_div_cancel₀ _ hp, neg_add_cancel]
  · have hcleared := hsolves _ (List.mem_map_of_mem he)
    obtain ⟨c, cs, w, rfl, hlength⟩ := hrest e he
    simp only [Equation.cleared] at hcleared
    rw [combination_sub hlength, smul_eq_mul] at hcleared
    rw [combination_cons, smul_eq_mul]
    linear_combination hcleared

/-- As many equations as unknowns, each without the unknowns before its own. -/
inductive Triangular : List (Equation K m) → Prop
  | nil : Triangular []
  | cons {lead : K} {tail : List K} {u : Fin m → K} {ps : List (Equation K m)} (hlead : lead ≠ 0)
      (htail : tail.length = ps.length) (hps : Triangular ps) :
      Triangular (⟨lead :: tail, u⟩ :: ps)

/-- The unknown vectors satisfy a triangular system: each equation with the unknowns from its own
    on. -/
def Satisfies : List (Equation K m) → List (Fin m → K) → Prop
  | [], [] => True
  | p :: ps, x :: xs => p.Holds (x :: xs) ∧ Satisfies ps xs
  | _, _ => False

variable [LinearOrder K] [Roots K]

/-! ### One pivot -/

/-- The row of an equation that has been cleared. -/
theorem clearLead_row {p c : K} {ps cs : List K} {u w : Fin m → K} (hp : p ≠ 0)
    (hlength : cs.length = ps.length) :
    clearLead (row ⟨p :: ps, u⟩) (row ⟨c :: cs, w⟩) =
      row (cleared ⟨p :: ps, u⟩ ⟨c :: cs, w⟩) := by
  -- Dividing by the pivot is exact, since it is not zero.
  have hfactor : (Exact.finite c / Exact.finite p : Exact K) = .finite (c / p) :=
    Exact.finite_div c hp
  have hentry (x y : K) : (Exact.finite x - Exact.finite (c / p) * Exact.finite y : Exact K) =
      .finite (x - c / p * y) := by simp
  simp only [row, cleared, List.cons_append, List.map_cons, clearLead, hfactor]
  rw [List.map_append, List.map_append, List.zipWith_append (by simp [hlength]), List.map_append,
    List.zipWith_map, List.zipWith_map, List.map_zipWith]
  simp only [hentry]
  congr 1
  rw [zipWith_ofFn, List.map_ofFn]
  rfl

variable [IsStrictOrderedRing K]

/-- The size of a leading entry. -/
theorem leadSize_row {e : Equation K m} {c : K} {cs : List K} (h : e.coefficients = c :: cs) :
    (e.row.head?.map Scalar.abs).getD 0.0 = (.finite |c| : Exact K) := by
  simp [row, h]

/-- The search for the largest leading entry: none is larger than the first candidate, or the search
    has come to one that is. -/
theorem pivotFrom_row {es : List (Equation K m)} (hes : ∀ e ∈ es, ∃ c cs, e.coefficients = c :: cs)
    (i best : Nat) (size : K) :
    (pivotFrom i best (.finite size) (es.map row) = best ∧
        ∀ e ∈ es, ∀ c cs, e.coefficients = c :: cs → |c| ≤ size) ∨
      ∃ j e c cs, pivotFrom i best (.finite size) (es.map row) = i + j ∧ es[j]? = some e ∧
        e.coefficients = c :: cs ∧ size < |c| := by
  -- On the candidates that are left; `best` and `size` are those of the largest one so far.
  induction es generalizing i best size with
  | nil => exact .inl ⟨rfl, by simp⟩
  | cons e es ih =>
    obtain ⟨c, cs, hc⟩ := hes e List.mem_cons_self
    have hrest := fun e' he' => hes e' (List.mem_cons_of_mem _ he')
    rw [List.map_cons, pivotFrom, leadSize_row hc]
    by_cases hlt : size < |c|
    · simp only [(Exact.lt_finite _ _).2 hlt, if_true]
      obtain ⟨hbest, -⟩ | ⟨j, e', c', cs', hj, he', hc', hlt'⟩ := ih hrest (i + 1) i |c|
      · exact .inr ⟨0, e, c, cs, hbest, rfl, hc, hlt⟩
      · exact .inr ⟨j + 1, e', c', cs', by rw [hj]; omega, he', hc', hlt.trans hlt'⟩
    · simp only [Exact.lt_finite, hlt, if_false]
      obtain ⟨hbest, hall⟩ | ⟨j, e', c', cs', hj, he', hc', hlt'⟩ := ih hrest (i + 1) best size
      · refine .inl ⟨hbest, ?_⟩
        rintro e' he' c' cs' hc'
        obtain rfl | he' := List.mem_cons.1 he'
        · obtain ⟨rfl, -⟩ := List.cons.inj (hc.symm.trans hc')
          exact not_lt.1 hlt
        · exact hall e' he' c' cs' hc'
      · exact .inr ⟨j + 1, e', c', cs', by rw [hj]; omega, he', hc', hlt'⟩

/-- **The pivot equation and the others** are those at hand, in some order; if the leading coefficient
    of the pivot is zero, all of them are. -/
theorem takePivot_row {es : List (Equation K m)} (hne : es ≠ [])
    (hes : ∀ e ∈ es, ∃ c cs, e.coefficients = c :: cs) :
    ∃ p ps u rest, takePivot (es.map row) = some (row ⟨p :: ps, u⟩, rest.map row) ∧
      (⟨p :: ps, u⟩ :: rest).Perm es ∧
      (p = 0 → ∀ e ∈ es, ∀ c cs, e.coefficients = c :: cs → c = 0) := by
  obtain ⟨⟨first, u⟩, rest, rfl⟩ := List.exists_cons_of_ne_nil hne
  obtain ⟨c, cs, rfl⟩ := hes _ List.mem_cons_self
  have hrest := fun e he => hes e (List.mem_cons_of_mem _ he)
  rw [List.map_cons, takePivot, leadSize_row rfl]
  obtain ⟨hbest, hall⟩ | ⟨j, ⟨e, w⟩, d, ds, hj, he, hd, hlt⟩ := pivotFrom_row hrest 1 0 |c|
  · -- The first equation has the largest leading coefficient.
    rw [hbest]
    refine ⟨c, cs, u, rest, rfl, .refl _, ?_⟩
    rintro rfl e he c' cs' hc'
    obtain rfl | he := List.mem_cons.1 he
    · exact (List.cons.inj hc').1.symm
    · exact abs_eq_zero.1 (le_antisymm ((hall e he c' cs' hc').trans_eq abs_zero) (abs_nonneg c'))
  · -- Another one has, and is exchanged with the first.
    obtain rfl : e = d :: ds := hd
    obtain ⟨hlength, hget⟩ := List.getElem?_eq_some_iff.1 he
    rw [hj, add_comm]
    simp only [List.getElem?_map, he, Option.map_some]
    refine ⟨d, ds, w, rest.set j ⟨c :: cs, u⟩, by rw [List.map_set], ?_, ?_⟩
    · rw [List.set_eq_take_append_cons_drop, if_pos hlength]
      have hsplit : rest = rest.take j ++ ⟨d :: ds, w⟩ :: rest.drop (j + 1) := by
        rw [← hget, List.cons_getElem_drop_succ, List.take_append_drop]
      conv_rhs => rw [hsplit]
      exact (List.perm_middle.cons _).trans ((List.Perm.swap ..).trans
        (List.perm_middle.symm.cons _))
    · rintro rfl
      rw [abs_zero] at hlt
      exact absurd hlt (not_lt.2 (abs_nonneg c))

/-! ### Whole systems -/

omit [IsStrictOrderedRing K] in
/-- The rows below the pivot, once their first unknown has been cleared. -/
theorem map_clearLead_row {p : K} {ps : List K} {u : Fin m → K} {rest : List (Equation K m)}
    (hp : p ≠ 0) (hrest : ∀ e ∈ rest, ∃ c cs w, e = ⟨c :: cs, w⟩ ∧ cs.length = ps.length) :
    (rest.map row).map (clearLead (row ⟨p :: ps, u⟩)) =
        (rest.map (cleared ⟨p :: ps, u⟩)).map row ∧
      ∀ e ∈ rest.map (cleared ⟨p :: ps, u⟩), e.coefficients.length = ps.length := by
  constructor
  · rw [List.map_map, List.map_map]
    refine List.map_congr_left fun e he => ?_
    obtain ⟨c, cs, w, rfl, hlength⟩ := hrest e he
    exact clearLead_row hp hlength
  · intro e he
    obtain ⟨e', he', rfl⟩ := List.mem_map.1 he
    obtain ⟨c, cs, w, rfl, hlength⟩ := hrest e' he'
    simp [cleared, hlength]

omit [LinearOrder K] [Roots K] [IsStrictOrderedRing K] in
/-- A column of zeros would not determine the first unknown. -/
theorem Independent.exists_lead_ne_zero {n : Nat} {es : List (Equation K m)}
    (h : Independent es (n + 1)) :
    ¬∀ e ∈ es, ∃ cs, e.coefficients = 0 :: cs := by
  intro hzero
  refine one_ne_zero (h (1 :: List.replicate n 0) (by simp) (fun e he => ?_) 1 List.mem_cons_self)
  obtain ⟨cs, hcs⟩ := hzero e he
  rw [hcs, combination_cons, combination_replicate_zero, zero_smul, add_zero]

/-- A pivot of independent equations is not zero, and the others are independent of each other once
    their first unknown has been cleared. -/
theorem Independent.pivot {n : Nat} {es : List (Equation K m)} (hlength : es.length = n + 1)
    (hwidth : ∀ e ∈ es, e.coefficients.length = n + 1) (h : Independent es (n + 1)) :
    ∃ p ps u rest, takePivot (es.map row) = some (row ⟨p :: ps, u⟩, rest.map row) ∧
      (⟨p :: ps, u⟩ :: rest).Perm es ∧ p ≠ 0 ∧ ps.length = n ∧
      (∀ e ∈ rest, ∃ c cs w, e = ⟨c :: cs, w⟩ ∧ cs.length = ps.length) ∧
      Independent (rest.map (Equation.cleared ⟨p :: ps, u⟩)) n := by
  have hcons : ∀ e ∈ es, ∃ c cs, e.coefficients = c :: cs := fun e he =>
    List.exists_cons_of_length_eq_add_one (hwidth e he)
  have hne : es ≠ [] := by
    rintro rfl
    simp at hlength
  obtain ⟨p, ps, u, rest, htake, hperm, hzero⟩ := takePivot_row hne hcons
  have hps : ps.length = n := by
    simpa using hwidth _ (hperm.mem_iff.1 List.mem_cons_self)
  -- Were the largest leading coefficient zero, the first column would be, and the equations dependent.
  have hp : p ≠ 0 := by
    intro hp
    refine h.exists_lead_ne_zero fun e he => ?_
    obtain ⟨c, cs, hc⟩ := hcons e he
    exact ⟨cs, by rw [hc, hzero hp e he c cs hc]⟩
  -- The other equations are those that were there, of the same length.
  have hrest : ∀ e ∈ rest, ∃ c cs w, e = ⟨c :: cs, w⟩ ∧ cs.length = ps.length := by
    rintro ⟨coefficients, w⟩ he
    have hmem := hperm.mem_iff.1 (List.mem_cons_of_mem _ he)
    obtain ⟨c, cs, rfl⟩ := hcons _ hmem
    exact ⟨c, cs, w, rfl, by rw [hps]; simpa using hwidth _ hmem⟩
  refine ⟨p, ps, u, rest, htake, hperm, hp, hps, hrest, .cleared hp hrest fun v hv hsolves => ?_⟩
  exact h v hv fun e he => hsolves e (hperm.mem_iff.2 he)

/-- **Elimination** of independent equations, as many as there are unknowns, does not come upon a
    zero pivot, and the solutions of the triangular system solve the equations. -/
theorem eliminate_row (n position : Nat) {es : List (Equation K m)} (hlength : es.length = n)
    (hwidth : ∀ e ∈ es, e.coefficients.length = n) (hind : Independent es n) :
    ∃ ps, eliminate n position (es.map row) = .ok (ps.map row) ∧ Triangular ps ∧ ps.length = n ∧
      ∀ xs, Satisfies ps xs → ∀ e ∈ es, e.Holds xs := by
  -- On the number of unknowns; the cleared equations are independent again.
  induction n generalizing es position with
  | zero =>
    obtain rfl := List.eq_nil_of_length_eq_zero hlength
    exact ⟨[], rfl, .nil, rfl, by simp⟩
  | succ n ih =>
    obtain ⟨p, ps, u, rest, htake, hperm, hp, hps, hrest, hind'⟩ := hind.pivot hlength hwidth
    obtain ⟨hclear, hwidth'⟩ := map_clearLead_row (u := u) hp hrest
    rw [hps] at hwidth'
    have hnumber : rest.length = n := by
      simpa [hlength] using hperm.length_eq
    obtain ⟨qs, hqs, htriangular, hlen, hsound⟩ :=
      ih (position + 1) (by rw [List.length_map, hnumber]) hwidth' hind'
    refine ⟨⟨p :: ps, u⟩ :: qs, ?_, .cons hp (by rw [hps, hlen]) htriangular, by simp [hlen], ?_⟩
    · have hlead : Scalar.eq (Exact.finite p) (0.0 : Exact K) = false := by
        rw [Exact.lit_zero, Bool.eq_false_iff, ne_eq, Exact.eq_finite]
        exact hp
      have hhead : (row ⟨p :: ps, u⟩).head? = some (Exact.finite p) := rfl
      simp only [eliminate, htake, hhead, hlead, Bool.false_eq_true, if_false, hclear, hqs]
      rfl
    · intro xs hxs e he
      cases xs with
      | nil => exact hxs.elim
      | cons x xs =>
        obtain ⟨hpivot, hxs⟩ := hxs
        obtain rfl | he := List.mem_cons.1 (hperm.mem_iff.2 he)
        · exact hpivot
        · have hcleared := hsound xs hxs _ (List.mem_map_of_mem he)
          obtain ⟨c, cs, w, rfl, hlength'⟩ := hrest e he
          exact .of_cleared hp hlength' hpivot hcleared

omit [IsStrictOrderedRing K] in
/-- What is left of a right-hand side once known vectors have been subtracted. -/
theorem foldr_subtract (cs : List K) (xs : List (Fin m → K)) (u : Fin m → K) :
    (List.zip (cs.map Exact.finite) (xs.map fun x => (List.ofFn x).map Exact.finite)).foldr
      (fun (c, ys) acc => List.zipWith (fun a y => a - c * y) acc ys)
      ((List.ofFn u).map Exact.finite) =
        ((List.ofFn (u - combination cs xs)).map Exact.finite : List (Exact K)) := by
  -- The solved unknowns are substituted one at a time, the last one first.
  induction cs generalizing xs with
  | nil => simp [combination]
  | cons c cs ih =>
    cases xs with
    | nil => simp
    | cons x xs =>
      have hentry (a y : K) : (Exact.finite a - Exact.finite c * Exact.finite y : Exact K) =
          .finite (a - c * y) := by simp
      rw [List.map_cons, List.map_cons, List.zip_cons_cons, List.foldr_cons, ih]
      simp only [List.zipWith_map, hentry]
      rw [← List.map_zipWith, zipWith_ofFn, combination_cons]
      congr 2
      funext i
      simp only [Pi.sub_apply, Pi.add_apply, Pi.smul_apply, smul_eq_mul]
      ring

omit [IsStrictOrderedRing K] in
/-- **Back substitution** solves a triangular system. -/
theorem backSubstitute_row {ps : List (Equation K m)} (h : Triangular ps) :
    ∃ xs : List (Fin m → K), xs.length = ps.length ∧ Satisfies ps xs ∧
      backSubstitute (ps.map row) = xs.map fun x => (List.ofFn x).map Exact.finite := by
  -- From the last equation upwards, which has the last unknown alone.
  induction h with
  | nil => exact ⟨[], rfl, trivial, rfl⟩
  | @cons lead tail u ps hlead htail _ ih =>
    obtain ⟨xs, hlength, hxs, hsolved⟩ := ih
    have hwidth : (tail.map Exact.finite : List (Exact K)).length = xs.length := by
      rw [List.length_map, htail, hlength]
    refine ⟨lead⁻¹ • (u - combination tail xs) :: xs, by simp [hlength], ⟨?_, hxs⟩, ?_⟩
    · unfold Holds
      rw [combination_cons, smul_smul, mul_inv_cancel₀ hlead, one_smul, sub_add_cancel]
    · have hrow : row (⟨lead :: tail, u⟩ : Equation K m) =
          Exact.finite lead :: (tail.map Exact.finite ++ (List.ofFn u).map Exact.finite) := by
        simp [row]
      rw [List.map_cons, hrow, backSubstitute, hsolved, List.length_map, ← hwidth,
        List.take_left' rfl, List.drop_left' rfl, foldr_subtract, List.map_cons, List.map_map,
        List.map_ofFn, List.map_ofFn]
      congr 2
      funext i
      simp only [Function.comp_apply, Pi.smul_apply, smul_eq_mul]
      rw [Exact.finite_div _ hlead, div_eq_inv_mul]

end Tensor

namespace Backend

open Tensor Matrix

variable {K : Type} [Field K] [LinearOrder K] [Roots K] [IsStrictOrderedRing K] {n : Nat}

omit [LinearOrder K] [Roots K] [IsStrictOrderedRing K] in
/-- A combination with the entries of a row. -/
theorem combination_ofFn {V : Type} [AddCommGroup V] [Module K V] (cs : Fin n → K)
    (xs : Fin n → V) : combination (List.ofFn cs) (List.ofFn xs) = ∑ i, cs i • xs i := by
  rw [combination, zipWith_ofFn, List.sum_ofFn]

omit [Roots K] [IsStrictOrderedRing K] [LinearOrder K] in
/-- The rows of an invertible matrix are independent. -/
theorem independent_rows {M : Matrix (Fin n) (Fin n) K} (hM : IsUnit M.det) :
    Independent (List.ofFn fun i => (⟨List.ofFn (M i), (1 : Matrix (Fin n) (Fin n) K) i⟩ :
      Equation K n)) n := by
  intro v hv hsolves
  obtain ⟨w, rfl⟩ := exists_ofFn hv
  -- A vector that solves the homogeneous equations is in the kernel of the matrix, which is trivial.
  have hzero : M *ᵥ w = 0 := by
    funext i
    have hrow := hsolves _ (List.mem_ofFn.2 ⟨i, rfl⟩)
    rw [combination_ofFn] at hrow
    exact hrow
  have hw : w = 0 := by
    have hinj := Matrix.mulVec_injective_iff_isUnit.2 ((Matrix.isUnit_iff_isUnit_det M).2 hM)
    exact hinj (by rw [hzero, mulVec_zero])
  intro c hc
  obtain ⟨i, rfl⟩ := List.mem_ofFn.1 hc
  rw [hw]
  rfl

/-- Elimination inverts an invertible matrix. -/
theorem invertRows_rowsOf {M : Matrix (Fin n) (Fin n) K} (hM : IsUnit M.det) :
    invertRows (rowsOf fun i j => Exact.finite (M i j)) =
      .ok (rowsOf fun i j => Exact.finite (M⁻¹ i j)) := by
  -- The augmented matrix, row by row.
  obtain ⟨es, hes⟩ : ∃ es : List (Equation K n), es =
      List.ofFn fun i => ⟨List.ofFn (M i), (1 : Matrix (Fin n) (Fin n) K) i⟩ := ⟨_, rfl⟩
  have hrows : List.zipWith (· ++ ·) (rowsOf fun i j => Exact.finite (M i j))
      (rowsOf fun i j => Exact.finite ((1 : Matrix (Fin n) (Fin n) K) i j)) =
        es.map Equation.row := by
    rw [hes, List.map_ofFn, rowsOf, rowsOf, zipWith_ofFn]
    congr 1
    funext i
    simp [Equation.row, List.map_ofFn, Function.comp_def]
  have hwidth : ∀ e ∈ es, e.coefficients.length = n := by
    intro e he
    rw [hes] at he
    obtain ⟨i, rfl⟩ := List.mem_ofFn.1 he
    simp
  obtain ⟨ps, heliminate, htriangular, hlength, hsound⟩ :=
    eliminate_row n 1 (by rw [hes, List.length_ofFn]) hwidth (hes ▸ independent_rows hM)
  obtain ⟨xs, hxs, hsatisfies, hsolved⟩ := backSubstitute_row htriangular
  obtain ⟨X, rfl⟩ := exists_ofFn (hxs.trans hlength)
  -- The equations hold: the product of the matrix and the solution is the identity.
  have hinverse : M⁻¹ = Matrix.of X := by
    refine Matrix.inv_eq_right_inv (Matrix.ext fun i j => ?_)
    have hrow := hsound _ hsatisfies _ (hes ▸ List.mem_ofFn.2 ⟨i, rfl⟩)
    unfold Equation.Holds at hrow
    rw [combination_ofFn] at hrow
    have hentry := congrFun hrow j
    rw [Finset.sum_apply] at hentry
    exact hentry
  rw [invertRows, length_rowsOf, map_identityRow, solveRows, length_rowsOf, hrows, heliminate]
  show Except.ok (backSubstitute (ps.map Equation.row)) = _
  rw [hsolved, hinverse, List.map_ofFn]
  simp [rowsOf, List.map_ofFn, Function.comp_def]

/-- **The inverse of a matrix** is computed without rounding. -/
theorem inv_ofMat (b : Backend) {M : Matrix (Fin n) (Fin n) K} (hM : IsUnit M.det) :
    b.inv (ofMat b M) = .ok (ofMat b M⁻¹) := by
  have haxes : b.squareAxes? [n, n] = (.ok ([], n) : Except (Failure (Exact K)) _) := by
    simp [squareAxes?]
  -- A matrix is a batch with one member.
  have hpieces : pieces (volume []) (n * n) (ofMat b M).entries =
      [(rowsOf fun i j => Exact.finite (M i j)).flatten] := by
    rw [entries_ofMat]
    show [List.take (n * n) _] = _
    rw [List.take_of_length_le (length_flatten_rowsOf _).le]
  have heach : invertEach n 0 [(rowsOf fun i j => Exact.finite (M i j)).flatten] =
      .ok (ofMat b M⁻¹).entries := by
    simp only [invertEach, pieces_rowsOf, invertRows_rowsOf hM, entries_ofMat]
    simp [bind, Except.bind, Except.mapError, pure, Except.pure]
  have hshape : (ofMat b M).shape = [n, n] := rfl
  unfold inv
  rw [ofMat, take_real, ← ofMat]
  simp only [bind, Except.bind, hshape, haxes, hpieces, heach]
  rfl

end Backend

open Matrix in
/-- Where a Newton step leads, with an invertible Hessian. -/
theorem Newton.target_ofVec {K : Type} [Field K] [LinearOrder K] [Roots K] [IsStrictOrderedRing K]
    {n : Nat} (b : Backend) {M : Matrix (Fin n) (Fin n) K} (hM : IsUnit M.det)
    {s : Newton (Exact K)} {g : K} (hs : s.gamma = .finite g) (x v : Fin n → K) :
    s.target (.ofVec b x) (.ofVec b v) (.ofMat b M) = .ok (.ofVec b (x - g • M⁻¹ *ᵥ v)) := by
  unfold target
  rw [Tensor.backend_ofVec, Backend.inv_ofMat b hM, hs]
  dsimp only [bind, Except.bind]
  rw [Backend.apply_ofVec]
  exact Backend.scaledSub_ofVec ..

end Minimization
