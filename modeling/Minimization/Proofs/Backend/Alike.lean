import Minimization.Proofs.Backend.Methods
import Minimization.Proofs.Counts.Runs
import Minimization.Proofs.Operator.Quadratic
import Minimization.Proofs.Scalar.Exact

namespace Minimization.Run

open Minimization

/-!
# The two backends drive every method alike

* `backends_alike` — a built-in method makes the same run on vectors of either backend.
* `bowl`, `trough` — quadratic functions on which this can be watched.
-/

variable {ω ω' η η' α : Type} [Scalar α] {b b' : Backend} {n : ℕ} {M : ω → ω' → Prop} {Q : η → Prop}
  {Q' : η' → Prop}

/-- **The backends drive every built-in method alike.**  The operator answers alike on both of them, with
    vectors of length `n` as gradients and square matrices as Hessians, and the method and what is known at
    the start are of these shapes.  Then, if observers do not fail, the runs make the same iterations.
    After each of them the progress is the same, as well as the counts, and at the end the runs have
    stopped for the same reason, or both have failed in the same iteration, with failures of one kind. -/
theorem backends_alike (A : Setting ω α) (A' : Setting ω' α)
    (hA : A.operator.Carries b b' n M A'.operator) (hdebug : A'.debug = A.debug)
    {O : Observer η α} {O' : Observer η' α} (hO : O.Quiet Q) (hO' : O'.Quiet Q') (c : RunConfig α)
    {x : Tensor α} (hx : x.Shaped b [n]) (cost? : Option α) (gradient? hessian? : Option (Tensor α))
    (hgradient : ∀ g, gradient? = some g → g.Shaped b [n])
    (hhessian : ∀ h, hessian? = some h → h.Square b n) {m : Method α} (hm : m.Shaped b n)
    {s : Session ω} {t : Session ω'} (hst : Minimization.Paired M s t) {ws : List (Watch η)}
    {ws' : List (Watch η')} (hws : Watches.Attentive Q ws) (hws' : Watches.Attentive Q' ws')
    {r : Run (Method α) ω η α} {r' : Run (Method α) ω' η' α}
    (hr : r = fresh (plan A O c) x cost? gradient? hessian? m s ws)
    (hr' : r' = fresh (plan A' O' c) (x.onBackend b') cost? (gradient?.map (·.onBackend b'))
      (hessian?.map (·.onBackend b')) (m.onBackend b') t ws') :
    (∀ i, (Goes (plan A O c) r i ↔ Goes (plan A' O' c) r' i) ∧
      (Goes (plan A O c) r i →
        (stateAfter (plan A' O' c) r' i).progress =
          (stateAfter (plan A O c) r i).progress.onBackend b' ∧
        (stateAfter (plan A' O' c) r' i).session.counts =
          (stateAfter (plan A O c) r i).session.counts)) ∧
    ((∃ u u', (execute (plan A O c)).exec r = (.ok (), u) ∧
        (execute (plan A' O' c)).exec r' = (.ok (), u') ∧
        u'.progress = u.progress.onBackend b' ∧ u'.session.counts = u.session.counts) ∨
      ∃ e e' u u', (execute (plan A O c)).exec r = (.error e, u) ∧
        (execute (plan A' O' c)).exec r' = (.error e', u') ∧ e'.kind = e.kind ∧
        u'.progress = u.progress.onBackend b' ∧ u'.session.counts = u.session.counts) := by
  have hplan : Plan.Carries b b' n M (Carried (Method.Shaped b n) (Method.onBackend b'))
      (Carried (Method.Aimed b n) (Method.onBackend b')) Q Q' (plan A O c) (plan A' O' c) :=
    ⟨Method.carries hA hdebug, hdebug, rfl, hO, hO'⟩
  have hmatched : Matched b b' n M (Carried (Method.Shaped b n) (Method.onBackend b')) Q Q' r r' := by
    rw [hr, hr']
    exact ⟨seeded_carried hx c.maxIters cost? gradient? hessian? hgradient hhessian, ⟨hm, rfl⟩, hst, hws,
      hws'⟩
  refine ⟨fun i => ?_, ?_⟩
  · obtain ⟨hiff, hafter⟩ := goes_matched hplan hmatched i
    exact ⟨hiff, fun hi => ⟨(hafter hi).progress.2, (hafter hi).session.counts⟩⟩
  -- Either both runs fail with failures of one kind, or both succeed.
  · obtain ⟨e, e', u, u', hu, hu', hkind, hlevel⟩ | ⟨⟨⟩, ⟨⟩, u, u', hu, hu', hend⟩ :=
      (parallel_execute hplan hmatched).both
    · exact .inr ⟨e, e', u, u', hu, hu', hkind, hlevel.progress, hlevel.session.counts⟩
    · exact .inl ⟨u, u', hu, hu', hend.progress.2, hend.session.counts⟩

/-! ### Quadratic functions on both of them -/

/-- The quadratic function of a matrix with two rows. -/
def quadraticOf (rows : List (List (Exact ℚ))) (b : Backend) : Quadratic (Exact ℚ) :=
  ⟨rows, [1.0, 1.0], 0.0, b⟩

/-- Three iterations on it. -/
def quadraticPlan (rows : List (List (Exact ℚ))) (b : Backend) :
    Plan (Method (Exact ℚ)) Unit Empty (Exact ℚ) :=
  plan ⟨(quadraticOf rows b).operator, true⟩ noObserver ⟨3, -1.0, true⟩

/-- The run of a method from the point `(3, 4)`. -/
def quadraticStart (rows : List (List (Exact ℚ))) (b : Backend) (m : Method (Exact ℚ)) :
    Run (Method (Exact ℚ)) Unit Empty (Exact ℚ) :=
  fresh (quadraticPlan rows b) (.vector b [3.0, 4.0]) none none none m (.start ()) []

/-- What is said about the failure of that run. -/
def complaint? (rows : List (List (Exact ℚ))) (b : Backend) (m : Method (Exact ℚ)) : Option String :=
  match ((execute (quadraticPlan rows b)).exec (quadraticStart rows b m)).1 with
  | .error e => e.message? Scalar.shortest
  | .ok _ => none

/-- The matrix of a function with one minimum. -/
def bowl : List (List (Exact ℚ)) := [[2.0, 0.0], [0.0, 1.0]]

/-- A matrix without an inverse. -/
def trough : List (List (Exact ℚ)) := [[1.0, 1.0], [1.0, 1.0]]

/-- A quasi-Newton method that searches for the strong Wolfe conditions. -/
def wolfeSteps : Method (Exact ℚ) :=
  .quasiNewton ⟨.matrix .array 2 [[1.0, 0.0], [0.0, 1.0]],
    .strongWolfe ⟨⟨none, 1.0, 10, 0, none, none⟩, 0.25, 0.5, none⟩⟩

/-- Three iterations are the same on both backends, and a matrix without an inverse ends both runs, though
    in different words. -/
theorem backends_alike_quadratic :
    (∃ u u', (execute (quadraticPlan bowl .array)).exec (quadraticStart bowl .array wolfeSteps) =
        (.ok (), u) ∧
      (execute (quadraticPlan bowl .tensor)).exec
        (quadraticStart bowl .tensor (wolfeSteps.onBackend .tensor)) = (.ok (), u') ∧
      u.progress.iter = 3 ∧ u'.progress = u.progress.onBackend .tensor ∧
      u'.session.counts = ⟨5, 7, 0, 0⟩) ∧
    ∃ e e' u u',
      (execute (quadraticPlan trough .array)).exec (quadraticStart trough .array (.newton ⟨1.0⟩)) =
        (.error e, u) ∧
      (execute (quadraticPlan trough .tensor)).exec (quadraticStart trough .tensor (.newton ⟨1.0⟩)) =
        (.error e', u') ∧
      complaint? trough .array (.newton ⟨1.0⟩) ≠ complaint? trough .tensor (.newton ⟨1.0⟩) ∧
      e'.kind = e.kind ∧ u'.progress = u.progress.onBackend .tensor ∧
      u'.session.counts = ⟨0, 1, 1, 0⟩ := by
  have halike (rows : List (List (Exact ℚ))) {m : Method (Exact ℚ)}
      (hrows : (quadraticOf rows .array).Sized 2) (hm : m.Shaped .array 2) :=
    (backends_alike (M := fun (_ _ : Unit) => True) ⟨(quadraticOf rows .array).operator, true⟩
      ⟨(quadraticOf rows .tensor).operator, true⟩ (Quadratic.carries _ hrows (by decide)) rfl
      noObserver_quiet noObserver_quiet ⟨3, -1.0, true⟩ (x := .vector .array [3.0, 4.0])
      ⟨rfl, rfl, rfl⟩ none none none nofun nofun hm (s := .start ()) (t := .start ())
      ⟨⟨trivial, rfl⟩, rfl⟩ nobody_attentive nobody_attentive rfl rfl).2
  constructor
  -- A bowl, on which the quasi-Newton method comes to its end.
  · have hok : ((execute (quadraticPlan bowl .array)).exec
        (quadraticStart bowl .array wolfeSteps)).1.isOk = true := by decide +kernel
    obtain ⟨u, u', hu, hu', hprogress, -⟩ | ⟨e, -, u, -, hu, -⟩ :=
      halike bowl (m := wolfeSteps) ⟨rfl, by decide, rfl⟩ ⟨rfl, rfl⟩
    · refine ⟨u, u', hu, hu', ?_, hprogress, ?_⟩
      · rw [show u = _ from congrArg Prod.snd hu.symm]
        decide +kernel
      · rw [show u' = _ from congrArg Prod.snd hu'.symm]
        decide +kernel
    · rw [show (execute (quadraticPlan bowl .array)).exec (quadraticStart bowl .array wolfeSteps) =
        (.error e, u) from hu] at hok
      cases hok
  -- A Hessian that has no inverse, which the backends complain about in their own words.
  · have hfails : ((execute (quadraticPlan trough .array)).exec
        (quadraticStart trough .array (.newton ⟨1.0⟩))).1.isOk = false := by decide +kernel
    obtain ⟨u, -, hu, -⟩ | ⟨e, e', u, u', hu, hu', hkind, hprogress, -⟩ :=
      halike trough (m := .newton ⟨1.0⟩) ⟨rfl, by decide, rfl⟩ trivial
    · rw [show (execute (quadraticPlan trough .array)).exec
        (quadraticStart trough .array (.newton ⟨1.0⟩)) = (.ok (), u) from hu] at hfails
      cases hfails
    · refine ⟨e, e', u, u', hu, hu', by decide +kernel, hkind, hprogress, ?_⟩
      rw [show u' = _ from congrArg Prod.snd hu'.symm]
      decide +kernel

end Minimization.Run
