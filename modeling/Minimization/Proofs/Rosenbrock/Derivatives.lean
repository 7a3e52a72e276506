import Mathlib.Algebra.Polynomial.Eval.Defs
import Mathlib.Data.List.GetD
import Minimization.Problem.Rosenbrock
import Minimization.Proofs.Rosenbrock.Taylor
import Minimization.Proofs.Tensor.Vectors

namespace Minimization.Rosenbrock

open Matrix Polynomial

/-!
# The derivatives of the Rosenbrock function

On vectors of exact numbers, cost, gradient and Hessian are the function, the gradient and the Hessian
that a ring has.  Along a line they are polynomials in the step.

* `costAt_ofVec`, `gradientAt_ofVec`, `hessianAt_ofVec` — the lists of entries are the sums over pairs of
  neighbours, at vectors of every length but zero.
* `map_value` and the lemmas beside it — a ring map goes through the function and its derivatives.
* `eval_value`, `eval_slopes` — a function along a line is a polynomial, whose values are the function at
  the points of the line.
* `derivatives_along_line` — gradient and Hessian are the derivatives of the function and of the gradient,
  and the Hessian is symmetric.
-/

variable {m : ℕ}

/-! ### Lists of entries -/

/-- Neighbours in a list are neighbours in the vector. -/
theorem zipWith_neighbours {α β : Type} (f : α → α → β) (x : Fin (m + 1) → α) :
    List.zipWith f (List.ofFn x) ((List.ofFn x).drop 1) =
      List.ofFn fun i : Fin m => f (x i.castSucc) (x i.succ) := by
  refine List.ext_getElem (by simp) fun i _ _ => ?_
  rw [List.getElem_zipWith, List.getElem_drop, List.getElem_ofFn, List.getElem_ofFn, List.getElem_ofFn]
  exact congrArg (f _) (congrArg x (Fin.ext (Nat.add_comm 1 i)))

/-- The first entries of all pairs. -/
theorem dropLast_ofFn {α : Type} (x : Fin (m + 1) → α) :
    (List.ofFn x).dropLast = List.ofFn fun i : Fin m => x i.castSucc := by
  rw [List.ofFn_succ', List.concat_eq_append, List.dropLast_concat]

variable {K : Type} [Field K] [LinearOrder K] [IsStrictOrderedRing K] [Roots K]
variable (a b : K) (x : Fin (m + 1) → K) (β : Backend)

omit [LinearOrder K] [IsStrictOrderedRing K] [Roots K] in
/-- Numbers at the first entries of the pairs, with nothing at the end. -/
theorem ofFn_early (f : Fin m → K) : List.ofFn (fun i => Exact.finite (f i)) ++ [Exact.finite 0] =
    List.ofFn fun k => Exact.finite (early f k) := by
  rw [List.ofFn_succ' fun k => Exact.finite (early f k), List.concat_eq_append, early_last]
  simp only [early_castSucc]

omit [LinearOrder K] [IsStrictOrderedRing K] [Roots K] in
/-- Numbers at the second entries of the pairs, with nothing in front. -/
theorem ofFn_late (f : Fin m → K) : Exact.finite 0 :: List.ofFn (fun i => Exact.finite (f i)) =
    List.ofFn fun k => Exact.finite (late f k) := by
  rw [List.ofFn_succ, late_zero]
  simp only [late_succ]

omit [Field K] [LinearOrder K] [IsStrictOrderedRing K] [Roots K] in
/-- A vector that has neighbours has entries. -/
theorem isEmpty_entries : (List.ofFn fun k => Exact.finite (x k)).isEmpty = false := by
  rw [List.ofFn_succ, List.isEmpty_cons]

omit [IsStrictOrderedRing K] in
/-- **The cost** at a vector. -/
theorem costAt_ofVec : costAt (.finite a) (.finite b) (.ofVec β x) = .ok (.finite (value a b x)) := by
  -- Each term is exact, and so is the sum of them over neighbouring coordinates.
  have hterm (u w : K) : term (Exact.finite a) (.finite b) (.finite u) (.finite w) =
      .finite (worth a b u w) := by
    simp [term, worth]
  have hsum := Backend.sum_finite (List.ofFn fun i : Fin m => worth a b (x i.castSucc) (x i.succ))
  rw [List.map_ofFn, List.sum_ofFn] at hsum
  show Except.ok (cost _ _ 1 (Tensor.ofVec β x).entries) = _
  rw [cost, Tensor.entries_ofVec, zipWith_neighbours]
  simp only [hterm]
  exact congrArg Except.ok hsum

/-- **The gradient** at a vector. -/
theorem gradientAt_ofVec : gradientAt (.finite a) (.finite b) (.ofVec β x) =
    .ok (.ofVec .array (slopes a b x)) := by
  -- An entry of the gradient has a share from the term it is first in and one from the term it is second
  -- in.
  have hfirst (u w : K) : 0.0 + termByFirst (Exact.finite a) (.finite b) (.finite u) (.finite w) =
      .finite (byFirst a b u w) := by
    simp [termByFirst, gap, byFirst, mul_assoc]
  have hsecond (u w : K) : termBySecond (Exact.finite b) (.finite u) (.finite w) =
      .finite (bySecond b u w) := by
    simp [termBySecond, gap, bySecond, mul_assoc]
  have hentries : gradient (.finite a) (.finite b) 1 (Tensor.ofVec β x).entries =
      (Tensor.ofVec .array (slopes a b x)).entries := by
    rw [gradient, Tensor.entries_ofVec, isEmpty_entries, Tensor.entries_ofVec]
    simp only [zipWith_neighbours, hfirst, hsecond]
    -- The two lists are padded by a zero, one at its end and one at its front, before they are added.
    show List.zipWith _ (_ ++ [0.0]) (0.0 :: List.ofFn _) = _
    rw [Exact.lit_zero, ofFn_early, ofFn_late, zipWith_ofFn]
    rfl
  show Except.ok (⟨.array, [m + 1], gradient _ _ 1 (Tensor.ofVec β x).entries⟩ : Tensor (Exact K)) = _
  rw [hentries]
  rfl

/-- The diagonal of the Hessian. -/
theorem diagonal_ofFn : diagonal (.finite b) (List.ofFn fun k => Exact.finite (x k)) =
    List.ofFn fun k => Exact.finite (bend b x k) := by
  -- The share of a first coordinate; that of a second one does not depend on the point.
  have htwice (u w : K) : 0.0 + (2.0 + 12.0 * Exact.finite b * (.finite u * .finite u) -
      4.0 * .finite b * .finite w) = .finite (byFirstTwice b u w) := by
    simp [byFirstTwice, mul_assoc]
  have htail : (List.ofFn fun k => Exact.finite (x k)).tail.map (fun _ => 2.0 * Exact.finite b) =
      List.ofFn fun _ : Fin m => Exact.finite (2 • b) := by
    rw [List.ofFn_succ, List.tail_cons, List.map_ofFn]
    simp [Function.comp_def]
  rw [diagonal, isEmpty_entries, htail, ← List.drop_one]
  simp only [zipWith_neighbours, htwice]
  show List.zipWith _ (_ ++ [0.0]) (0.0 :: _) = _
  rw [Exact.lit_zero, ofFn_early, ofFn_late, zipWith_ofFn]
  rfl

/-- The diagonals beside it. -/
theorem offDiagonal_ofFn : offDiagonal (.finite b) (List.ofFn fun k => Exact.finite (x k)) =
    List.ofFn fun i : Fin m => Exact.finite (byBoth b (x i.castSucc)) := by
  rw [offDiagonal, dropLast_ofFn, List.map_ofFn]
  simp [Function.comp_def, byBoth, mul_assoc]

/-- **The Hessian** at a vector. -/
theorem hessianAt_ofVec : hessianAt (.finite b) (.ofVec β x) = .ok (.ofMat .array (bends b x)) := by
  -- The entries beside the diagonal are read off one list, by the smaller of the two indices.
  have hside (k l : Fin (m + 1)) (h : (l : ℕ) = k + 1) :
      (List.ofFn fun i : Fin m => Exact.finite (byBoth b (x i.castSucc))).getD k 0.0 =
        .finite (byBoth b (x k)) := by
    have hk : (k : ℕ) < m := by
      have := l.isLt
      omega
    rw [List.getD_eq_getElem _ _ (by simpa using hk), List.getElem_ofFn]
    rfl
  have hentry (k l : Fin (m + 1)) : tridiagonal (List.ofFn fun k => Exact.finite (bend b x k))
      (List.ofFn fun i : Fin m => Exact.finite (byBoth b (x i.castSucc))) k l =
        .finite (bends b x k l) := by
    unfold tridiagonal
    show _ = Exact.finite (if k = l then bend b x k else if (l : ℕ) = k + 1 then byBoth b (x k)
      else if (k : ℕ) = l + 1 then byBoth b (x l) else 0)
    -- The diagonal, the entry above it and the one below; all others are zero.
    by_cases hkl : k = l
    · have hk : (k : ℕ) < (List.ofFn fun k => Exact.finite (bend b x k)).length := by
        rw [List.length_ofFn]
        exact k.isLt
      rw [if_pos (congrArg Fin.val hkl), if_pos hkl, List.getD_eq_getElem _ _ hk, List.getElem_ofFn]
    rw [if_neg (fun h => hkl (Fin.ext h)), if_neg hkl]
    by_cases hup : (l : ℕ) = k + 1
    · rw [if_pos hup, if_pos hup, hside k l hup]
    rw [if_neg hup, if_neg hup]
    by_cases hdown : (k : ℕ) = l + 1
    · rw [if_pos hdown, if_pos hdown, hside l k hdown]
    · rw [if_neg hdown, if_neg hdown, Exact.lit_zero]
  have hrows : hessian (.finite b) (Tensor.ofVec β x).entries =
      rowsOf fun k l => Exact.finite (bends b x k l) := by
    unfold hessian rowsOf
    rw [Tensor.entries_ofVec, List.length_ofFn, diagonal_ofFn, offDiagonal_ofFn]
    simp only [map_range, hentry]
  show Except.ok (Tensor.matrix .array (m + 1) (hessian _ (Tensor.ofVec β x).entries)) =
    .ok ⟨.array, [m + 1, m + 1], (Tensor.ofMat .array (bends b x)).entries⟩
  rw [hrows, Tensor.matrix, length_rowsOf, Backend.entries_ofMat]

/-! ### Along a line -/

omit [LinearOrder K] [IsStrictOrderedRing K] [Roots K]
variable (v : Fin (m + 1) → K) (t : K)

section
variable {R S : Type} [CommRing R] [CommRing S] (φ : R →+* S) (a b : R) (x v : Fin (m + 1) → R)

/-- A ring map goes through the function. -/
theorem map_value : φ (value a b x) = value (φ a) (φ b) fun k => φ (x k) := by
  simp [value, worth]

/-- It goes through the gradient. -/
theorem map_slopes (k : Fin (m + 1)) :
    φ (slopes a b x k) = slopes (φ a) (φ b) (fun k => φ (x k)) k := by
  show φ (early _ k + late _ k) = early _ k + late _ k
  rw [map_add, map_early, map_late]
  simp [byFirst, bySecond, map_ofNat]

/-- It goes through the slope along a direction. -/
theorem map_slopes_dotProduct : φ (slopes a b x ⬝ᵥ v) =
    slopes (φ a) (φ b) (fun k => φ (x k)) ⬝ᵥ fun k => φ (v k) := by
  simp only [dotProduct, map_sum, map_mul, map_slopes φ]

/-- It goes through the Hessian along a direction. -/
theorem map_bends_mulVec (k : Fin (m + 1)) : φ ((bends b x *ᵥ v) k) =
    (bends (φ b) (fun k => φ (x k)) *ᵥ fun k => φ (v k)) k := by
  rw [bends_mulVec, bends_mulVec, Pi.add_apply, Pi.add_apply, map_add, map_early, map_late]
  simp [byFirstTwice, byBoth, map_ofNat]

end

/-- A line as a point with polynomials for entries. -/
noncomputable def line : Fin (m + 1) → K[X] := fun k => C (x k) + X * C (v k)

/-- At a number the line is a point. -/
theorem eval_line (k : Fin (m + 1)) : (line x v k).eval t = (x + t • v) k := by
  rw [line, eval_add, eval_mul, eval_C, eval_C, eval_X]
  rfl

/-- The function along a line. -/
theorem eval_value : (value (C a) (C b) (line x v)).eval t = value a b (x + t • v) := by
  have h := map_value (evalRingHom t) (C a) (C b) (line x v)
  simpa only [coe_evalRingHom, eval_C, eval_line] using h

/-- The gradient along a line. -/
theorem eval_slopes (k : Fin (m + 1)) :
    (slopes (C a) (C b) (line x v) k).eval t = slopes a b (x + t • v) k := by
  have h := map_slopes (evalRingHom t) (C a) (C b) (line x v) k
  simpa only [coe_evalRingHom, eval_C, eval_line] using h

/-! ### The derivatives -/

variable [LinearOrder K] [IsStrictOrderedRing K] [Roots K]

/-- **Gradient and Hessian are derivatives.**  Along every line, function and gradient are polynomials in
    the step.  The value and the part that is linear in the step are given by function and gradient, or
    by gradient and Hessian; what is left is a multiple of the square.  The Hessian is symmetric. -/
theorem derivatives_along_line :
    ∃ (y : K) (g : Fin (m + 1) → K) (H : Matrix (Fin (m + 1)) (Fin (m + 1)) K),
    costAt (.finite a) (.finite b) (.ofVec β x) = .ok (.finite y) ∧
    gradientAt (.finite a) (.finite b) (.ofVec β x) = .ok (.ofVec .array g) ∧
    hessianAt (.finite b) (.ofVec β x) = .ok (.ofMat .array H) ∧ H.IsSymm ∧
    ∀ v : Fin (m + 1) → K,
      (∃ P : K[X],
        (∀ t, costAt (.finite a) (.finite b) (.ofVec β (x + t • v)) = .ok (.finite (P.eval t))) ∧
        X ^ 2 ∣ P - C y - X * C (g ⬝ᵥ v)) ∧
      ∃ Q : Fin (m + 1) → K[X],
        (∀ t, gradientAt (.finite a) (.finite b) (.ofVec β (x + t • v)) =
          .ok (.ofVec .array fun k => (Q k).eval t)) ∧
        ∀ k, X ^ 2 ∣ Q k - C (g k) - X * C ((H *ᵥ v) k) := by
  refine ⟨value a b x, slopes a b x, bends b x, costAt_ofVec a b x β, gradientAt_ofVec a b x β,
    hessianAt_ofVec b x β, isSymm_bends b x, fun v => ⟨⟨value (C a) (C b) (line x v), fun t => ?_, ?_⟩,
    slopes (C a) (C b) (line x v), fun t => ?_, fun k => ?_⟩⟩
  · rw [costAt_ofVec, eval_value]
  · -- What holds in every ring holds of the polynomials in the step, where constants are a subring.
    have hline := sq_dvd_value (fun k => C (v k)) (C a) (C b) X fun k => C (x k)
    rwa [← map_slopes_dotProduct C, ← map_value C] at hline
  · simp only [gradientAt_ofVec, eval_slopes]
  · have hline := sq_dvd_slopes (fun k => C (v k)) k (C a) (C b) X fun k => C (x k)
    rwa [← map_bends_mulVec C, ← map_slopes C] at hline

/-- Two entries: the value at a point and the slope in a direction, as numbers. -/
theorem derivatives_along_line_pair : ∃ P : ℚ[X],
    (∀ t, costAt (.finite 1) (.finite 100) (.ofVec .array (![-1, 2] + t • ![1, 3])) =
      .ok (.finite (P.eval t))) ∧ X ^ 2 ∣ P - C 104 - X * C 996 := by
  obtain ⟨y, g, H, hcost, hgradient, -, -, hline⟩ := derivatives_along_line (1 : ℚ) 100 ![-1, 2] .array
  obtain ⟨⟨P, hP, hdvd⟩, -⟩ := hline ![1, 3]
  have hvalue : costAt (.finite 1) (.finite 100) (.ofVec .array ![-1, 2]) =
      .ok (.finite (104 : ℚ)) := by decide +kernel
  have hslopes : gradientAt (.finite 1) (.finite 100) (.ofVec .array ![-1, 2]) =
      .ok (.ofVec .array (![396, 200] : Fin 2 → ℚ)) := by decide +kernel
  -- The value and the slope at the point are computed, and are the first two coefficients.
  obtain rfl : y = 104 := Exact.finite.inj (Except.ok.inj (hcost.symm.trans hvalue))
  obtain rfl : g = ![396, 200] :=
    Tensor.ofVec_injective .array (Except.ok.inj (hgradient.symm.trans hslopes))
  have hslope : (![396, 200] : Fin 2 → ℚ) ⬝ᵥ ![1, 3] = 996 := by decide +kernel
  rw [hslope] at hdvd
  exact ⟨P, hP, hdvd⟩

end Minimization.Rosenbrock
