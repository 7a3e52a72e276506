import Mathlib.Algebra.BigOperators.Intervals
import Minimization.Problem.Differences
import Minimization.Proofs.Backend.Kernel
import Minimization.Proofs.Counts.Budget

namespace Minimization.Differences

open Run

/-!
# What approximate derivatives cost

A derivative by differences is one evaluation for the wrapper, whatever it asks of the function behind
it.  A function can be made to write down how often it is called.

* `Function.recorded`, `calls` — a function with a record, and what stands in it.
* `Makes` — a computation makes so many calls if it succeeds; one rule for each building block.
* `makes_gradient` — two calls for each entry; `makes_hessian` — one at the point, two for each entry
  and four for each pair of entries.
* `ends_step_calls` — a Newton step makes both, and stays among the vectors of its length.
* `Kept`, `kept_of_goes` — what holds after any number of such steps; `iter_eq_maxIters` — how many
  there are.
* `newton_calls` — the calls and the counts of a whole run.
-/

variable {ω η α β γ ι : Type}

/-! ### Records -/

/-- The function that writes down its calls, those that fail included. -/
def Function.recorded [Scalar α] (f : Function ω α) : Function (ω × Counts) α :=
  fun x => (f x).recording .cost

/-- How often a function with a record has been called. -/
def calls (host : Host (ω × Counts)) : ℕ := host.memory.2.cost

/-- If the computation succeeds, it has made `k` calls, and `Q` holds of its result. -/
def Makes (m : Action (Host (ω × Counts)) α β) (k : ℕ) (Q : β → Prop) : Prop :=
  ∀ host, m.Ends host (fun b host' => Q b ∧ calls host' = calls host + k) fun _ => True

section
variable {Q : β → Prop} {R : γ → Prop} {k l : ℕ}

/-- Nothing is called. -/
theorem makes_pure {b : β} (hb : Q b) : Makes (pure b : Action (Host (ω × Counts)) α β) 0 Q :=
  fun _ => ⟨hb, rfl⟩

/-- A calculation calls nothing either. -/
theorem makes_ofExcept {e : Except (Failure α) β} (h : ∀ b, e = .ok b → Q b) :
    Makes (Action.ofExcept e : Action (Host (ω × Counts)) α β) 0 Q :=
  fun _ => Action.ends_ofExcept (fun b hb => ⟨h b hb, rfl⟩) fun _ _ => trivial

/-- **Calls add up.** -/
theorem Makes.bind {m : Action (Host (ω × Counts)) α β} {g : β → Action (Host (ω × Counts)) α γ}
    (hm : Makes m k Q) (hg : ∀ b, Q b → Makes (g b) l R) : Makes (m >>= g) (k + l) R := by
  intro host
  refine (hm host).bind ?_
  rintro b t ⟨hb, ht⟩
  refine (hg b hb t).mono ?_
  rintro c u ⟨hc, hu⟩
  exact ⟨hc, by rw [hu, ht, Nat.add_assoc]⟩

/-- What needs no call. -/
theorem Makes.after {e : Except (Failure α) β} {g : β → Action (Host (ω × Counts)) α γ}
    (hg : ∀ b, Makes (g b) k R) : Makes (Action.ofExcept e >>= g) k R := by
  have hnone : Makes (Action.ofExcept e : Action (Host (ω × Counts)) α β) 0 fun _ => True :=
    makes_ofExcept fun _ _ => trivial
  rw [← Nat.zero_add k]
  exact hnone.bind fun b _ => hg b

/-- One call more. -/
theorem Makes.call [Scalar α] {f : Function ω α} {x : Tensor α}
    {g : α → Action (Host (ω × Counts)) α γ} (hg : ∀ c, Makes (g c) k R) :
    Makes (f.recorded x >>= g) (k + 1) R := by
  have hcall : Makes (f.recorded x) 1 fun _ => True := by
    intro host
    unfold Function.recorded Action.recording
    rw [Action.ends_bind, Action.ends_modify, Action.ends_focus]
    exact (Action.ends_anyhow _ _).mono fun _ _ _ => ⟨trivial, rfl⟩
  rw [Nat.add_comm]
  exact hcall.bind fun c _ => hg c

/-- One element of a list after the other. -/
theorem Makes.mapM {g : ι → Action (Host (ω × Counts)) α β} {c : ι → ℕ} (xs : List ι)
    (h : ∀ i ∈ xs, Makes (g i) (c i) fun _ => True) :
    Makes (xs.mapM g) (xs.map c).sum fun ys => ys.length = xs.length := by
  induction xs with
  | nil => exact makes_pure rfl
  | cons i xs ih =>
    rw [List.mapM_cons, List.map_cons, List.sum_cons]
    refine (h i List.mem_cons_self).bind fun y _ => ?_
    refine (ih fun j hj => h j (List.mem_cons_of_mem i hj)).bind (l := 0) fun ys hys => ?_
    exact makes_pure (by rw [List.length_cons, hys, List.length_cons])

/-- Elements that all need the same. -/
theorem Makes.mapM_same {g : ι → Action (Host (ω × Counts)) α β} (xs : List ι)
    (h : ∀ i ∈ xs, Makes (g i) k fun _ => True) :
    Makes (xs.mapM g) (xs.length * k) fun ys => ys.length = xs.length := by
  have hsum : (xs.map fun _ => k).sum = xs.length * k := by
    rw [List.map_const', List.sum_replicate, smul_eq_mul]
  rw [← hsum]
  exact Makes.mapM (c := fun _ => k) xs h

end

/-! ### Derivatives -/

section
variable [Scalar α] (f : Function ω α) {x : Tensor α} {b : Backend} {n : ℕ}

/-- A slope takes a call on either side. -/
theorem makes_slope (x : Tensor α) (step : α) (i : ℕ) :
    Makes (slope f.recorded x step i) 2 fun _ => True :=
  .after fun _ => .after fun _ => .call fun _ => .after fun _ => .call fun _ => makes_pure trivial

/-- A bend takes two, because the cost in the middle is known. -/
theorem makes_bend (x : Tensor α) (center step : α) (i : ℕ) :
    Makes (bend f.recorded x center step i) 2 fun _ => True :=
  .after fun _ => .after fun _ => .call fun _ => .after fun _ => .call fun _ =>
    makes_ofExcept fun _ _ => trivial

/-- A twist takes one at each of four corners. -/
theorem makes_twist (x : Tensor α) (step : α) (i j : ℕ) :
    Makes (twist f.recorded x step i j) 4 fun _ => True :=
  -- Two unit vectors, and four points of two steps each.
  .after fun _ => .after fun _ =>
    .after fun _ => .after fun _ => .call fun _ =>
    .after fun _ => .after fun _ => .call fun _ =>
    .after fun _ => .after fun _ => .call fun _ =>
    .after fun _ => .after fun _ => .call fun _ => makes_ofExcept fun _ _ => trivial

/-- A row of the Hessian needs two calls for the entry on the diagonal, and four for every other. -/
theorem makes_upperRow (x : Tensor α) (center step : α) (n i : ℕ) :
    Makes (upperRow f.recorded x center step n i) (2 + 4 * (n - (i + 1))) fun _ => True := by
  have hrest := Makes.mapM_same ((List.range n).drop (i + 1)) fun j _ => makes_twist f x step i j
  rw [List.length_drop, List.length_range, Nat.mul_comm] at hrest
  exact (makes_bend f x center step i).bind fun first _ =>
    hrest.bind (l := 0) fun rest _ => makes_pure trivial

/-- The rows of the Hessian together. -/
theorem sum_upperRows (n : ℕ) :
    ((List.range n).map fun i => 2 + 4 * (n - (i + 1))).sum = 2 * n ^ 2 := by
  calc ((List.range n).map fun i => 2 + 4 * (n - (i + 1))).sum
    _ = ∑ i ∈ Finset.range n, (2 + 4 * (n - (i + 1))) := rfl
    _ = ∑ i ∈ Finset.range n, (2 + 4 * (n - 1 - i)) :=
      Finset.sum_congr rfl fun i _ => by rw [Nat.sub_sub, Nat.add_comm 1 i]
    _ = ∑ i ∈ Finset.range n, (2 + 4 * i) := Finset.sum_range_reflect (fun i => 2 + 4 * i) n
    _ = 2 * n ^ 2 := by
      induction n with
      | zero => rfl
      | succ n ih =>
        rw [Finset.sum_range_succ, ih]
        ring

/-- **A gradient** by differences makes two calls for each entry, and is an array of the same length. -/
theorem makes_gradient (hx : x.Shaped b [n]) (step : α) :
    Makes (gradient f.recorded x step) (2 * n) (·.Shaped .array [n]) := by
  have hsize : x.size = n := hx.length_entries.trans (Nat.mul_one n)
  have hentries := Makes.mapM_same (List.range n) fun i _ =>
    makes_slope f (x.onBackend .array) step i
  rw [List.length_range, Nat.mul_comm] at hentries
  refine .after fun _ => ?_
  show Makes ((List.range x.size).mapM _ >>= _) _ _
  rw [hsize]
  refine hentries.bind (l := 0) fun ys hys => makes_pure ⟨rfl, hx.shape, ?_⟩
  show ys.length = volume x.shape
  rw [hys, hx.shape]
  exact (Nat.mul_one n).symm

/-- **A Hessian** by differences makes one call at the point, two for each entry and four for each pair
    of entries, and is a matrix of that size. -/
theorem makes_hessian (hx : x.Shaped b [n]) (step : α) :
    Makes (hessian f.recorded x step) (2 * n ^ 2 + 1) (·.Square .array n) := by
  have hsize : x.size = n := hx.length_entries.trans (Nat.mul_one n)
  refine .after fun _ => .call fun center => ?_
  have hrows := Makes.mapM (List.range n) fun i _ =>
    makes_upperRow f (x.onBackend .array) center step n i
  rw [sum_upperRows] at hrows
  show Makes ((List.range x.size).mapM (upperRow _ _ _ _ x.size) >>= _) _ _
  rw [hsize]
  refine hrows.bind (l := 0) fun upper _ => makes_pure ⟨rfl, ?_⟩
  show [((List.range x.size).map _).length, x.size] = [n, n]
  rw [List.length_map, List.length_range, hsize]

end

/-! ### Newton steps -/

section
variable [Scalar α] (f : Function ω α) (gradientStep hessianStep : α) (debug : Bool) {b : Backend}
  {n : ℕ}

/-- The setting of a run on approximate derivatives, in which the calls of the function are
    recorded. -/
def recording : Setting (ω × Counts) α := ⟨operator f.recorded gradientStep hessianStep, debug⟩

/-- What one Newton step costs. -/
def stepCalls (n : ℕ) : ℕ := 2 * n + (2 * n ^ 2 + 1)

omit f in
/-- From a vector a step leads to a vector of the same length, if it leads anywhere. -/
theorem shaped_target {s : Newton α} {x gradient hessian y : Tensor α} (hx : x.Shaped b [n])
    (hgradient : gradient.Shaped .array [n]) (hhessian : hessian.Square .array n)
    (h : s.target x gradient hessian = .ok y) : y.Shaped b [n] := by
  cases b with
  | tensor =>
    -- The derivatives are general arrays, and strict tensors have no inverse of those.
    unfold Newton.target Backend.inv Backend.take at h
    rw [hx.backend, hhessian.backend] at h
    cases h
  | array =>
    exact (Newton.kindred_target s hx hgradient hhessian :
      Kindred (Vectors .array .array n) _ _).good h

/-- **A Newton step** makes the calls of one gradient and of one Hessian, and reports nothing but a
    vector of the same length. -/
theorem ends_step_calls {p : Progress α} (hp : p.param.Shaped b [n])
    (w : Workspace (Newton α) (ω × Counts)) :
    (Newton.step (recording f gradientStep hessianStep debug) p).Ends w
      (fun report v => (∃ y, report = { param := some y } ∧ y.Shaped b [n]) ∧
        calls v.session.host = calls w.session.host + stepCalls n) fun _ => True := by
  -- Gradient and Hessian are asked for in turn, and their calls add up.
  refine Newton.ends_step_iff.2 ((Session.ends_evaluate ..).2 ?_)
  refine (makes_gradient f hp gradientStep w.session.host).mono ?_
  rintro gradient host ⟨hgradient, hfirst⟩
  refine (Session.ends_evaluate ..).2 ((makes_hessian f hp hessianStep host).mono ?_)
  rintro hessian host' ⟨hhessian, hsecond⟩
  refine Action.ends_ofExcept (fun y hy => ⟨⟨y, rfl, ?_⟩, ?_⟩) fun _ _ => trivial
  · exact shaped_target hp hgradient hhessian hy
  · show calls host' = _
    rw [hsecond, hfirst, Nat.add_assoc]
    rfl

/-! ### Whole runs -/

/-- What a Newton run keeps, which has started with the cost `c` and has called its function `k` times:
    as no step reports a cost, only the cap stops it if the cost has not been low enough at the
    start. -/
structure Kept (b : Backend) (n : ℕ) (config : RunConfig α) (c : α) (k : ℕ) (p : Progress α)
    (m : Method α) (host : Host (ω × Counts)) : Prop where
  newton : ∃ s, m = .newton s
  point : p.param.Shaped b [n]
  cost : p.cost = c
  calls : calls host = k
  capped : Scalar.le c config.targetCost = false → p.reason = .notTerminated ∨ p.maxIters ≤ p.iter

variable {O : Observer η α} {c : RunConfig α} {r : Run (Method α) (ω × Counts) η α}

/-- One iteration. -/
theorem ends_iterate_kept {cost : α} {k : ℕ} (hr : r.progress.reason = .notTerminated)
    (h : Kept b n c cost k r.progress r.solver r.session.host) :
    (iterate (plan (recording f gradientStep hessianStep debug) O c)).Ends r
      (fun _ t => Kept b n c cost (k + stepCalls n) t.progress t.solver t.session.host)
      fun _ => True := by
  obtain ⟨p, m, session, observers⟩ := r
  obtain ⟨s, rfl⟩ := h.newton
  refine ends_iterate_hosted (Q := fun p m host _ => Kept b n c cost (k + stepCalls n) p m host) hr ?_
    fun _ _ _ _ => Action.ends_anyhow _ _
  refine (Method.ends_dispatch (fun S => S.step _ p) ⟨.newton s, session⟩).2 ?_
  refine (Workspace.ends_wrapping ..).2 ?_
  refine (ends_step_calls f gradientStep hessianStep debug h.point _).mono ?_
  rintro report v ⟨⟨y, rfl, hy⟩, hcalls⟩
  refine ⟨fun _ _ => trivial, fun t ht _ => ?_⟩
  refine (Method.ends_dispatch (fun S => S.terminate _) ⟨.newton v.solver, t⟩).2 ?_
  refine (Workspace.ends_wrapping ..).2 ⟨⟨v.solver, rfl⟩, hy, h.cost, ?_, fun hlow => ?_⟩
  · show calls t.host = _
    rw [ht]
    exact hcalls.trans (congrArg (· + _) h.calls)
  · -- Newton's method has no reason of its own, and the cost is the one at the start.
    show ruling _ _ .notTerminated = _ ∨ (p.maxIters : ℤ) ≤ _
    have hcost : p.cost = cost := h.cost
    unfold ruling
    rw [if_neg (by decide)]
    by_cases hcap : p.maxIters ≤ ((p.iter + 1 : ℕ) : ℤ)
    · exact .inr hcap
    · refine .inl ((if_neg hcap).trans (if_neg ?_))
      show ¬ Scalar.le p.cost c.targetCost = true
      rw [hcost, hlow]
      decide

/-- **Any number of iterations.** -/
theorem kept_of_goes {cost : α} {k i : ℕ} (h : Kept b n c cost k r.progress r.solver r.session.host)
    (hi : Goes (plan (recording f gradientStep hessianStep debug) O c) r i) :
    Kept b n c cost (k + i * stepCalls n)
      (stateAfter (plan (recording f gradientStep hessianStep debug) O c) r i).progress
      (stateAfter (plan (recording f gradientStep hessianStep debug) O c) r i).solver
      (stateAfter (plan (recording f gradientStep hessianStep debug) O c) r i).session.host := by
  refine hi.keeps (J := fun i t => Kept b n c cost (k + i * stepCalls n) t.progress t.solver
    t.session.host) ?_ fun j hj hkept => ?_
  · -- The start of a Newton run does nothing at all.
    obtain ⟨hprogress, hsolver, -⟩ :=
      begun_course (plan (recording f gradientStep hessianStep debug) O c) r
    have hmemory := (begun_surroundings (plan (recording f gradientStep hessianStep debug) O c) r).1
    obtain ⟨s, hs⟩ := h.newton
    refine ends_opening_hosted (Q := fun p m host _ => Kept b n c cost (k + 0 * stepCalls n) p m host)
      ?_ fun _ _ _ => Action.ends_anyhow _ _
    refine (Method.ends_dispatch (fun S => S.init _ _) _).2 ?_
    rw [hsolver, hs]
    refine (Workspace.ends_wrapping ..).2 ?_
    show Kept b n c cost _ (begun _ r).progress (.newton s) (begun _ r).session.host
    rw [hprogress, ← hs, Nat.zero_mul]
    exact ⟨h.newton, h.point, h.cost, (congrArg (·.2.cost) hmemory).trans h.calls, h.capped⟩
  · rw [Nat.succ_mul, ← Nat.add_assoc]
    exact ends_iterate_kept f gradientStep hessianStep debug (hi.running j hj) hkept

/-- A run that starts at a vector of length `n`. -/
theorem kept_fresh {x : Tensor α} (hx : x.Shaped b [n]) (cost? : Option α)
    (gradient? hessian? : Option (Tensor α)) (s : Newton α) (session : Session (ω × Counts))
    (ws : List (Watch η)) (P : Plan (Method α) (ω × Counts) η α) :
    Kept b n P.config (cost?.getD Scalar.infinity) (calls session.host)
      (fresh P x cost? gradient? hessian? (.newton s) session ws).progress (.newton s)
      session.host := by
  obtain ⟨hparam, hcost, -⟩ := seeded_fields x (P.config.maxIters : ℤ) cost? gradient? hessian?
  have hreason := (seeded_unstarted x (P.config.maxIters : ℤ) cost? gradient? hessian?).2.2
  exact ⟨⟨s, rfl⟩, hparam.symm ▸ hx, hcost, rfl, fun _ => .inl hreason⟩

/-- A Newton run that returns has as many iterations as its cap allows, if the cost at its start is not
    low enough and the user has not stopped it. -/
theorem iter_eq_maxIters {cost : α} {k : ℕ} {final : Run (Method α) (ω × Counts) η α}
    (h : Kept b n c cost k r.progress r.solver r.session.host) (hiter : r.progress.iter = 0)
    (hmax : r.progress.maxIters = c.maxIters)
    (hrun : (execute (plan (recording f gradientStep hessianStep debug) O c)).exec r = (.ok (), final))
    (hlow : Scalar.le cost c.targetCost = false)
    (hasked : final.progress.reason ≠ .keyboardInterrupt) : final.progress.iter = c.maxIters := by
  obtain ⟨u, hbody, rfl⟩ := (execute_ok_iff _).1 hrun
  rw [finished_progress] at hasked ⊢
  -- Without an iteration the cap must have been zero from the start.
  obtain ⟨hzero, hcap, hstop⟩ | ⟨i, hi, hcap, hhalts⟩ := body_ok_cases hbody
  · obtain rfl := stop_ok hstop
    have hstart := hzero.progress_zero.1
    show (stateAfter _ r 0).progress.iter = _
    omega
  · obtain ⟨hstopped, rfl⟩ | ⟨-, -, rfl⟩ := halts_ok_iff.1 hhalts
    -- Otherwise the cost never reaches the target, so that only the cap is left to stop the run.
    · have hle := iter_execute_le (P := plan (recording f gradientStep hessianStep debug) O c) (r := r)
        (by omega)
      rw [hrun] at hle
      dsimp only at hle
      rw [finished_progress, hmax] at hle
      have hfull := ((kept_of_goes f gradientStep hessianStep debug h hi).capped hlow).resolve_left
        hstopped
      rw [hi.maxIters_eq, hmax] at hfull
      omega
    · exact absurd rfl hasked

/-- **The hidden cost of differences.**  Approximate derivatives at a vector of length `n` make `2n`
    calls for a gradient and `2n² + 1` for a Hessian.  A Newton run from there that returns after `k`
    iterations has made so many for each of them, while its counts show `k` gradients, `k` Hessians and
    no cost.  There are as many iterations as the cap allows, unless the cost at the start is low
    enough or the user stops the run. -/
theorem newton_calls (f : Function ω α) (gradientStep hessianStep : α) (debug : Bool) {b : Backend}
    {n : ℕ} {x : Tensor α} (hx : x.Shaped b [n]) :
    let A := recording f gradientStep hessianStep debug
    (∀ host, (A.operator.gradient x).Ends host (fun _ after => calls after = calls host + 2 * n)
      fun _ => True) ∧
    (∀ host, (A.operator.hessian x).Ends host
      (fun _ after => calls after = calls host + (2 * n ^ 2 + 1)) fun _ => True) ∧
    ∀ (O : Observer η α) (c : RunConfig α) (s : Newton α) (cost? : Option α)
      (gradient? hessian? : Option (Tensor α)) (session : Session (ω × Counts))
      (ws : List (Watch η)) (final : Run (Method α) (ω × Counts) η α),
      session.counts = .zero →
      (execute (plan A O c)).exec
        (fresh (plan A O c) x cost? gradient? hessian? (.newton s) session ws) = (.ok (), final) →
      let k := final.progress.iter
      calls final.session.host = calls session.host + k * (2 * n + 2 * n ^ 2 + 1) ∧
        final.session.counts = ⟨0, k, k, 0⟩ ∧
        (Scalar.le (cost?.getD Scalar.infinity) c.targetCost = false →
          final.progress.reason ≠ .keyboardInterrupt → k = c.maxIters) := by
  intro A
  refine ⟨fun host => (makes_gradient f hx gradientStep host).mono fun _ _ h => h.2,
    fun host => (makes_hessian f hx hessianStep host).mono fun _ _ h => h.2, ?_⟩
  intro O c s cost? gradient? hessian? session ws final hsession hrun k
  obtain ⟨hiter, hmax, -⟩ := seeded_unstarted x (c.maxIters : ℤ) cost? gradient? hessian?
  have hstart := kept_fresh hx cost? gradient? hessian? s session ws (plan A O c)
  obtain ⟨i, reason, hi, hprogress, -, -, hcounts, hmemory⟩ := goes_of_ok hrun
  have hk : k = i := by
    show final.progress.iter = i
    rw [hprogress]
    show (stateAfter _ _ i).progress.iter = i
    rw [hi.iter_eq]
    exact (congrArg (· + i) hiter).trans (Nat.zero_add i)
  refine ⟨?_, ?_, iter_eq_maxIters f gradientStep hessianStep debug hstart hiter hmax hrun⟩
  · -- What the host remembers at the end is what it remembers after the last iteration.
    have hcalls := (kept_of_goes f gradientStep hessianStep debug hstart hi).calls
    rw [hk, Nat.add_assoc (2 * n)]
    exact (congrArg (·.2.cost) hmemory).trans hcalls
  · rw [hcounts, counts_newton rfl hi, hk]
    show session.counts + _ = _
    rw [hsession, Counts.zero_add]

end

/-- The square of the length. -/
def squareLength : Function Unit (Exact ℚ) := fun x => pure (Scalar.inner x.entries x.entries)

/-- At most two damped Newton steps on approximate derivatives. -/
def dampedPlan : Plan (Method (Exact ℚ)) (Unit × Counts) Empty (Exact ℚ) :=
  plan (recording squareLength 0.5 0.25 true) noObserver ⟨2, -Scalar.infinity, true⟩

/-- From the point `(3, 4)`. -/
def dampedStart : Run (Method (Exact ℚ)) (Unit × Counts) Empty (Exact ℚ) :=
  fresh dampedPlan (.vector .array [3.0, 4.0]) none none none (.newton ⟨0.5⟩) (.start ((), .zero)) []

/-- Two steps of thirteen calls each. -/
theorem newton_calls_squareLength : ∃ final, (execute dampedPlan).exec dampedStart = (.ok (), final) ∧
    final.progress.iter = 2 ∧ calls final.session.host = 26 ∧ final.session.counts = ⟨0, 2, 2, 0⟩ := by
  have hrun := Action.exec_eq_of_isOk (m := execute dampedPlan) (s := dampedStart) (by decide +kernel)
  have hx : (Tensor.vector .array [3.0, 4.0] : Tensor (Exact ℚ)).Shaped .array [2] := ⟨rfl, rfl, rfl⟩
  obtain ⟨hcalls, hcounts, hcap⟩ := (newton_calls squareLength 0.5 0.25 true hx).2.2 noObserver
    ⟨2, -Scalar.infinity, true⟩ ⟨0.5⟩ none none none (.start ((), .zero)) [] _ rfl hrun
  have hiter := hcap (by decide +kernel) (by decide +kernel)
  refine ⟨_, hrun, hiter, ?_, ?_⟩
  · rw [hcalls, hiter]
    rfl
  · rw [hcounts, hiter]

end Minimization.Differences
