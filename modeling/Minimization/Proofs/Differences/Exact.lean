import Mathlib.Data.List.GetD
import Minimization.Method.Newton
import Minimization.Problem.Differences
import Minimization.Problem.Sphere
import Minimization.Proofs.Differences.Lines
import Minimization.Proofs.Operator.Answers
import Minimization.Proofs.Tensor.Elimination

namespace Minimization.Differences

open Matrix

/-!
# Exact differences

In exact arithmetic, differences of a polynomial of low degree are its derivatives, however long the
step is.

* `Certain` — a computation that succeeds with one value whatever the host is; one rule for each
  building block.
* `certain_slope`, `certain_bend`, `certain_twist` — the difference quotients.
* `certain_gradient` — exact up to degree two; `certain_hessian` — exact up to degree three.
* `differences_exact` — both, and where a full Newton step leads.
-/

variable {ω α β γ ι : Type}

/-! ### Computations with one value -/

/-- Whatever the host is, the computation succeeds with `b`. -/
def Certain (m : Action (Host ω) α β) (b : β) : Prop := ∀ host, (m.exec host).1 = .ok b

section
variable {b : β} {c : γ}

/-- Nothing is done. -/
theorem certain_pure (b : β) : Certain (pure b : Action (Host ω) α β) b := fun _ => rfl

/-- A calculation with a known result. -/
theorem certain_ofExcept {e : Except (Failure α) β} (h : e = .ok b) :
    Certain (Action.ofExcept e : Action (Host ω) α β) b := fun _ => h

/-- One after another. -/
theorem Certain.bind {m : Action (Host ω) α β} {g : β → Action (Host ω) α γ} (hm : Certain m b)
    (hg : Certain (g b) c) : Certain (m >>= g) c := by
  intro host
  have h := hm host
  rw [Action.exec_bind]
  rcases hhost : m.exec host with ⟨e, t⟩
  rw [hhost] at h
  subst h
  exact hg t

/-- What needs no host. -/
theorem Certain.after {e : Except (Failure α) β} {g : β → Action (Host ω) α γ} (h : e = .ok b)
    (hg : Certain (g b) c) : Certain (Action.ofExcept e >>= g) c :=
  (certain_ofExcept h).bind hg

/-- One element of a list after the other. -/
theorem Certain.mapM {g : ι → Action (Host ω) α β} {xs : List ι} {ys : List β}
    (h : List.Forall₂ (fun i y => Certain (g i) y) xs ys) : Certain (xs.mapM g) ys := by
  induction h with
  | nil => exact certain_pure []
  | cons hfirst _ ih =>
    rw [List.mapM_cons]
    exact hfirst.bind (ih.bind (certain_pure _))

end

/-- The positions of a vector and its entries. -/
theorem forall₂_range {n : ℕ} {P : ℕ → α → Prop} {v : Fin n → α} (h : ∀ i : Fin n, P i (v i)) :
    List.Forall₂ P (List.range n) (List.ofFn v) := by
  refine List.forall₂_iff_get.2 ⟨by simp, fun i hi _ => ?_⟩
  simpa using h ⟨i, by simpa using hi⟩

/-! ### Numbers -/

variable {K : Type} [Field K] [LinearOrder K] [IsStrictOrderedRing K] [Roots K] {n : ℕ}
  {f : Function ω (Exact K)} {p : MvPolynomial (Fin n) K} (x : Fin n → K) {ε : K}

omit [IsStrictOrderedRing K] in
/-- A positive step passes the check. -/
theorem checkStep_finite (hε : 0 < ε) : checkStep (Exact.finite ε) = .ok () := by
  have hle : Scalar.le (Exact.finite ε) 0.0 = false := by
    rw [Bool.eq_false_iff, Exact.lit_zero, Ne, Exact.le_finite]
    exact hε.not_ge
  rw [checkStep, hle]
  rfl

omit [IsStrictOrderedRing K] in
/-- Its square is an exact number. -/
theorem squaredStep_finite (ε : K) : squaredStep (Exact.finite ε) = .ok (.finite (ε * ε)) := by
  have hsquare : Scalar.square (Exact.finite ε) = .finite (ε * ε) := rfl
  simp [squaredStep, Scalar.square?, hsquare]

omit [IsStrictOrderedRing K] in
/-- So is a quotient whose denominator is not zero. -/
theorem quotient_finite (u : K) {w : K} (hw : w ≠ 0) :
    quotient (Exact.finite u) (.finite w) = .ok (.finite (u / w)) := by
  have heq : Scalar.eq (Exact.finite w) 0.0 = false := by
    rw [Bool.eq_false_iff, Exact.lit_zero, Ne, Exact.eq_finite]
    exact hw
  rw [quotient, heq, ← Exact.finite_div u hw]
  rfl

omit [IsStrictOrderedRing K] in
/-- The step at one position is a multiple of a unit vector. -/
theorem unit_ofVec (i : Fin n) :
    unit (.ofVec .array x) i (.finite ε) = .ok (.ofVec .array (ε • Pi.single i 1)) := by
  -- A step of `ε` along one axis, entry by entry.
  have hentry (j : Fin n) : (if (j : ℕ) / 1 = i then Exact.finite ε else 0.0) =
      .finite ((ε • Pi.single i (1 : K) : Fin n → K) j) := by
    rw [Nat.div_one, Pi.smul_apply, Pi.single_apply, Exact.lit_zero]
    by_cases hij : j = i
    · rw [if_pos (congrArg Fin.val hij), if_pos hij, smul_eq_mul, mul_one]
    · rw [if_neg fun h => hij (Fin.ext h), if_neg hij, smul_zero]
  have hentries : (List.range (Tensor.ofVec .array x).size).map
      (fun j => if j / 1 = (i : ℕ) then Exact.finite ε else 0.0) =
        (Tensor.ofVec .array (ε • Pi.single i (1 : K))).entries := by
    rw [Tensor.size_ofVec, map_range, Tensor.entries_ofVec]
    exact congrArg List.ofFn (funext hentry)
  have hi : (i : ℕ) < (Tensor.ofVec .array x).shape.headD 0 := i.isLt
  rw [unit, if_pos hi]
  show Except.ok (⟨.array, [n], (List.range _).map fun j => if j / 1 = (i : ℕ) then _ else _⟩ :
    Tensor (Exact K)) = _
  rw [hentries]
  rfl

/-! ### Difference quotients -/

section
variable (hf : ∀ v, Certain (f (.ofVec .array v)) (.finite (p.eval v))) (hε : 0 < ε)
include hf hε

/-- **The difference quotient** by one entry. -/
theorem certain_slope (hp : p.totalDegree ≤ 2) (i : Fin n) :
    Certain (slope f (.ofVec .array x) (.finite ε) i) (.finite (partials p x i)) := by
  have hquotient : (Exact.finite (p.eval (x + ε • Pi.single i 1)) -
      .finite (p.eval (x - ε • Pi.single i 1))) / (2.0 * .finite ε) = .finite (partials p x i) := by
    have hnonzero : 2 * ε ≠ 0 := (mul_pos two_pos hε).ne'
    rw [Exact.finite_sub, central_along p x _ ε hp, dotProduct_single_one, Exact.lit_two,
      Exact.finite_mul, Exact.finite_div _ hnonzero, mul_div_cancel_left₀ _ hnonzero]
  unfold slope
  rw [← hquotient]
  refine .after (unit_ofVec x i) (.after (Backend.add_ofVec ..) ((hf _).bind ?_))
  refine .after (Backend.sub_ofVec ..) ((hf _).bind ?_)
  exact certain_pure _

/-- **The second difference quotient** by one entry. -/
theorem certain_bend (hp : p.totalDegree ≤ 3) (i : Fin n) :
    Certain (bend f (.ofVec .array x) (.finite (p.eval x)) (.finite ε) i)
      (.finite (secondPartials p x i i)) := by
  -- The even terms cancel, so that the quotient is the second derivative.
  have hnonzero : ε * ε ≠ 0 := (mul_pos hε hε).ne'
  have hquotient : (squaredStep (Exact.finite ε) >>= fun s => quotient
      (Exact.finite (p.eval (x + ε • Pi.single i 1)) - 2.0 * .finite (p.eval x) +
        .finite (p.eval (x - ε • Pi.single i 1))) s) = .ok (.finite (secondPartials p x i i)) := by
    rw [squaredStep_finite, Exact.lit_two, Exact.finite_mul, Exact.finite_sub, Exact.finite_add,
      second_along p x _ ε hp]
    show quotient _ (Exact.finite (ε * ε)) = _
    rw [quotient_finite _ hnonzero, mul_div_cancel_left₀ _ hnonzero, mulVec_single_one,
      single_one_dotProduct, col_apply]
  unfold bend
  refine .after (unit_ofVec x i) (.after (Backend.add_ofVec ..) ((hf _).bind ?_))
  refine .after (Backend.sub_ofVec ..) ((hf _).bind ?_)
  exact certain_ofExcept hquotient

/-- **The mixed difference quotient** by two entries. -/
theorem certain_twist (hp : p.totalDegree ≤ 3) (i j : Fin n) :
    Certain (twist f (.ofVec .array x) (.finite ε) i j) (.finite (secondPartials p x i j)) := by
  have hnonzero : 4 * (ε * ε) ≠ 0 := (mul_pos four_pos (mul_pos hε hε)).ne'
  have hquotient : (squaredStep (Exact.finite ε) >>= fun s => quotient
      (Exact.finite (p.eval (x + ε • Pi.single i 1 + ε • Pi.single j 1)) -
        .finite (p.eval (x + ε • Pi.single i 1 - ε • Pi.single j 1)) -
        .finite (p.eval (x - ε • Pi.single i 1 + ε • Pi.single j 1)) +
        .finite (p.eval (x - ε • Pi.single i 1 - ε • Pi.single j 1))) (4.0 * s)) =
      .ok (.finite (secondPartials p x i j)) := by
    rw [squaredStep_finite, Exact.finite_sub, Exact.finite_sub, Exact.finite_add,
      mixed_along p x _ ε hp]
    show quotient _ (4.0 * Exact.finite (ε * ε)) = _
    rw [Exact.lit_four, Exact.finite_mul, quotient_finite _ hnonzero, mul_div_cancel_left₀ _ hnonzero,
      mulVec_single_one, single_one_dotProduct, col_apply]
  unfold twist
  -- Each of the four points is reached by two steps.
  refine .after (unit_ofVec x i) (.after (unit_ofVec x j) ?_)
  refine .after (Backend.add_ofVec ..) (.after (Backend.add_ofVec ..) ((hf _).bind ?_))
  refine .after (Backend.add_ofVec ..) (.after (Backend.sub_ofVec ..) ((hf _).bind ?_))
  refine .after (Backend.sub_ofVec ..) (.after (Backend.add_ofVec ..) ((hf _).bind ?_))
  refine .after (Backend.sub_ofVec ..) (.after (Backend.sub_ofVec ..) ((hf _).bind ?_))
  exact certain_ofExcept hquotient

/-- **The gradient** of a polynomial of degree two. -/
theorem certain_gradient (hp : p.totalDegree ≤ 2) (b : Backend) :
    Certain (gradient f (.ofVec b x) (.finite ε)) (.ofVec .array (partials p x)) := by
  have hentries : Certain ((List.range n).mapM (slope f (.ofVec .array x) (.finite ε)))
      (List.ofFn fun i => Exact.finite (partials p x i)) :=
    .mapM (forall₂_range fun i => certain_slope x hf hε hp i)
  unfold gradient
  simp only [Tensor.onBackend_ofVec, Tensor.size_ofVec]
  refine .after (checkStep_finite hε) (hentries.bind ?_)
  rw [← Tensor.entries_ofVec .array]
  exact certain_pure _

/-- A row of the Hessian from the diagonal on. -/
theorem certain_upperRow (hp : p.totalDegree ≤ 3) (i : Fin n) :
    Certain (upperRow f (.ofVec .array x) (.finite (p.eval x)) (.finite ε) n i)
      ((List.ofFn fun j => Exact.finite (secondPartials p x i j)).drop i) := by
  have hrest : Certain (((List.range n).drop (i + 1)).mapM (twist f (.ofVec .array x) (.finite ε) i))
      ((List.ofFn fun j => Exact.finite (secondPartials p x i j)).drop (i + 1)) :=
    .mapM (List.forall₂_drop _ (forall₂_range fun j => certain_twist x hf hε hp i j))
  -- The entry on the diagonal has a quotient of its own, the others share one.
  rw [List.drop_eq_getElem_cons (by simp), List.getElem_ofFn]
  exact (certain_bend x hf hε hp i).bind (hrest.bind (certain_pure _))

omit hf hε [IsStrictOrderedRing K] in
/-- A symmetric matrix is known from its diagonal on. -/
theorem symmetric_ofFn {H : Matrix (Fin n) (Fin n) K} (hH : H.IsSymm) (i j : Fin n) :
    symmetric (List.ofFn fun i => (List.ofFn fun j => Exact.finite (H i j)).drop i) i j =
      .finite (H i j) := by
  -- Above the diagonal the stored row is read from its diagonal on.
  have hupper (i j : Fin n) (hij : i ≤ j) :
      ((List.ofFn fun i => (List.ofFn fun j => Exact.finite (H i j)).drop i).getD i []).getD
        (j - i) 0.0 = .finite (H i j) := by
    have hj : (i : ℕ) + (j - i) = j := Nat.add_sub_cancel' hij
    have hbound : (j : ℕ) - i < n - i := Nat.sub_lt_sub_right hij j.isLt
    have hrow : (List.ofFn fun i => (List.ofFn fun j => Exact.finite (H i j)).drop i).getD i [] =
        (List.ofFn fun j => Exact.finite (H i j)).drop i := by
      rw [List.getD_eq_getElem _ _ (by simp), List.getElem_ofFn]
    rw [hrow, List.getD_eq_getElem _ _ (by simpa using hbound), List.getElem_drop, List.getElem_ofFn]
    simp only [hj]
  unfold symmetric
  -- Below it the entry is read on the other side, and symmetry puts it right.
  rcases le_total i j with hij | hij
  · rw [min_eq_left (Fin.le_def.1 hij), max_eq_right (Fin.le_def.1 hij)]
    exact hupper i j hij
  · rw [min_eq_right (Fin.le_def.1 hij), max_eq_left (Fin.le_def.1 hij), hupper j i hij, hH.apply]

/-- **The Hessian** of a polynomial of degree three. -/
theorem certain_hessian (hp : p.totalDegree ≤ 3) (b : Backend) :
    Certain (hessian f (.ofVec b x) (.finite ε)) (.ofMat .array (secondPartials p x)) := by
  -- The rows are computed one after another, and mirrored in the end.
  have hrows : Certain
      ((List.range n).mapM (upperRow f (.ofVec .array x) (.finite (p.eval x)) (.finite ε) n))
      (List.ofFn fun i => (List.ofFn fun j => Exact.finite (secondPartials p x i j)).drop i) :=
    .mapM (forall₂_range fun i => certain_upperRow x hf hε hp i)
  have hmatrix : Tensor.matrix .array n ((List.range n).map fun i => (List.range n).map (symmetric
      (List.ofFn fun i => (List.ofFn fun j => Exact.finite (secondPartials p x i j)).drop i) i)) =
        .ofMat .array (secondPartials p x) := by
    have hentries : ((List.range n).map fun i => (List.range n).map (symmetric
        (List.ofFn fun i => (List.ofFn fun j => Exact.finite (secondPartials p x i j)).drop i) i)) =
          rowsOf fun i j => Exact.finite (secondPartials p x i j) := by
      simp only [map_range, symmetric_ofFn (isSymm_secondPartials p x)]
      rfl
    rw [hentries, Tensor.matrix, length_rowsOf, ← Backend.entries_ofMat .array]
    rfl
  unfold hessian
  simp only [Tensor.onBackend_ofVec, Tensor.size_ofVec]
  refine .after (checkStep_finite hε) ((hf x).bind (hrows.bind ?_))
  rw [← hmatrix]
  exact certain_pure _

/-- **A full Newton step** on differences is the one on the derivatives. -/
theorem newton_step_eq (hp : p.totalDegree ≤ 2) (hH : IsUnit (secondPartials p x).det) {ε' : K}
    (hε' : 0 < ε') (debug : Bool) {progress : Progress (Exact K)}
    (hx : progress.param = .ofVec .array x) {w : Workspace (Newton (Exact K)) ω}
    (hgamma : w.solver.gamma = 1.0) :
    ((Newton.step ⟨operator f (.finite ε) (.finite ε'), debug⟩ progress).exec w).1 =
      .ok { param := some (.ofVec .array (x - (secondPartials p x)⁻¹ *ᵥ partials p x)) } := by
  have hstep : (Newton.step ⟨operator f (.finite ε) (.finite ε'), debug⟩ progress).Ends w
      (fun report _ => report =
        { param := some (.ofVec .array (x - (secondPartials p x)⁻¹ *ᵥ partials p x)) })
      fun _ => False := by
    -- Neither derivative is known, so both are computed from differences.
    refine Newton.ends_step_iff.2 ?_
    rw [hx]
    refine (Session.ends_evaluate_known (certain_gradient x hf hε hp .array _)).mono ?_
    rintro _ t ⟨rfl, -⟩
    refine (Session.ends_evaluate_known
      (certain_hessian x hf hε' (hp.trans (Nat.le_succ 2)) .array _)).mono ?_
    rintro _ u ⟨rfl, -⟩
    rw [Newton.target_ofVec .array hH (hgamma.trans Exact.lit_one), one_smul]
    rfl
  obtain ⟨report, t, hexec, rfl⟩ := hstep.exists_ok
  rw [hexec]

end

/-- **Differences are exact on polynomials of low degree.**  Let a function have the values of a
    polynomial.  Its approximate gradient is the gradient if the degree is at most two, and its
    approximate Hessian is the Hessian, which is symmetric, if the degree is at most three.  If the
    degree is at most two and the Hessian is invertible, a full Newton step on the approximations leads
    to the one point where the gradient vanishes. -/
theorem differences_exact (hf : ∀ v, Certain (f (.ofVec .array v)) (.finite (p.eval v))) :
    (p.totalDegree ≤ 2 → ∀ ε : K, 0 < ε → ∀ b,
      Certain (gradient f (.ofVec b x) (.finite ε)) (.ofVec .array (partials p x))) ∧
    (p.totalDegree ≤ 3 → (secondPartials p x).IsSymm ∧ ∀ ε : K, 0 < ε → ∀ b,
      Certain (hessian f (.ofVec b x) (.finite ε)) (.ofMat .array (secondPartials p x))) ∧
    (p.totalDegree ≤ 2 → IsUnit (secondPartials p x).det → ∃ s : Fin n → K,
      (∀ y, partials p y = 0 ↔ y = s) ∧
      ∀ ε ε' : K, 0 < ε → 0 < ε' → ∀ debug progress (w : Workspace (Newton (Exact K)) ω),
        progress.param = .ofVec .array x → w.solver.gamma = 1.0 →
        ((Newton.step ⟨operator f (.finite ε) (.finite ε'), debug⟩ progress).exec w).1 =
          .ok { param := some (.ofVec .array s) }) := by
  refine ⟨fun hp ε hε b => certain_gradient x hf hε hp b, fun hp => ⟨isSymm_secondPartials p x,
    fun ε hε b => certain_hessian x hf hε hp b⟩, fun hp hH => ⟨_, partials_eq_zero_iff p x hp hH, ?_⟩⟩
  -- The step leads to the stationary point, whatever differences it is computed from.
  intro ε ε' hε hε' debug progress w hx hgamma
  exact newton_step_eq x hf hε hp hH hε' debug hx hgamma

/-- The product of two entries. -/
def saddle : Function Unit (Exact ℚ) :=
  fun x => pure (x.entries.getD 0 0.0 * x.entries.getD 1 0.0)

/-- The same as a polynomial. -/
noncomputable def saddlePolynomial : MvPolynomial (Fin 2) ℚ := .X 0 * .X 1

/-- Wide steps on a saddle at the origin. -/
theorem differences_exact_saddle :
    Certain (gradient saddle (.ofVec .tensor ![3, -4]) (.finite 2)) (.ofVec .array ![-4, 3]) ∧
    Certain (hessian saddle (.ofVec .tensor ![3, -4]) (.finite 5)) (.ofMat .array !![0, 1; 1, 0]) ∧
    ((Newton.step ⟨operator saddle (.finite 2) (.finite 5), true⟩
      (.start (.ofVec .array ![3, -4]) 1)).exec ⟨⟨1.0⟩, .start ()⟩).1 =
        .ok { param := some (.ofVec .array ![0, 0]) } := by
  have hvalues (v : Fin 2 → ℚ) :
      Certain (saddle (.ofVec .array v)) (.finite (saddlePolynomial.eval v)) := by
    intro host
    simp [saddle, saddlePolynomial, Tensor.entries_ofVec]
  have hdegree : saddlePolynomial.totalDegree ≤ 2 := by
    refine (MvPolynomial.totalDegree_mul _ _).trans ?_
    rw [MvPolynomial.totalDegree_X, MvPolynomial.totalDegree_X]
  -- The derivatives of the saddle are its coordinates, in the other order.
  have hpartials (v : Fin 2 → ℚ) : partials saddlePolynomial v = ![v 1, v 0] := by
    funext i
    fin_cases i <;> simp [partials, saddlePolynomial, MvPolynomial.pderiv_X]
  have hsecond (v : Fin 2 → ℚ) : secondPartials saddlePolynomial v = !![0, 1; 1, 0] := by
    ext i j
    fin_cases i <;> fin_cases j <;> simp [secondPartials, saddlePolynomial, MvPolynomial.pderiv_X]
  have hunit : IsUnit (secondPartials saddlePolynomial ![3, -4]).det := by
    rw [hsecond, det_fin_two_of]
    norm_num
  obtain ⟨hgradient, hhessian, hnewton⟩ := differences_exact ![3, -4] hvalues
  obtain ⟨s, hs, hstep⟩ := hnewton hdegree hunit
  obtain rfl : ![0, 0] = s := (hs _).1 (by simp [hpartials])
  refine ⟨?_, ?_, hstep 2 5 two_pos (by norm_num) true _ _ rfl rfl⟩
  · simpa [hpartials] using hgradient hdegree 2 two_pos .tensor
  · simpa [hsecond] using (hhessian (hdegree.trans (Nat.le_succ 2))).2 5 (by norm_num) .tensor

end Minimization.Differences
