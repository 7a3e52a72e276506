import Minimization.Proofs.Method.Recovery
import Minimization.Proofs.Observer.Introduced
import Minimization.Proofs.Run.Finished
import Minimization.Proofs.TrustRegion.Step

namespace Minimization

/-!
# Calling again after a return

A run that has returned may be called again, as often as one likes.  The methods that evaluate something
when a call begins do so, and what they report is what the run knows already.

* `ProgressOn.Renewed` — the same progress but for the previous values.
* `ProgressOn.update_known` — reporting once more what is known renews the progress.
* `Method.Knows` — what a method that initialises itself would report is what the progress shows;
  `Method.ends_init_known` — then its initialisation succeeds and renews the progress.
* `TrustRegion.attends_of_reached`, `Method.Rests`, `Method.knows_of_ok` — a method whose run has
  returned knows what it needs.
* `Run.Rested`, `Run.Rested.again` — one more call; `Run.finished_stays_finished` — any number of them.
-/

variable {ω η α : Type} [Scalar α] {F : Tensor α → Except (Failure α) α}
  {G H : Tensor α → Except (Failure α) (Tensor α)}

/-! ### Progress -/

namespace ProgressOn

variable {p q : Progress α}

omit [Scalar α] in
/-- Two records of progress that differ in the previous values only. -/
def Renewed (p q : Progress α) : Prop :=
  q = { p with
    prevParam := q.prevParam
    prevCost := q.prevCost
    prevGradient := q.prevGradient
    prevHessian := q.prevHessian }

omit [Scalar α] in
/-- Nothing need have changed. -/
theorem Renewed.refl (p : Progress α) : p.Renewed p := rfl

omit [Scalar α] in
/-- Two renewals are one. -/
theorem Renewed.trans {s : Progress α} (h : p.Renewed q) (h' : q.Renewed s) : p.Renewed s := by
  refine Eq.trans h' ?_
  rw [h]

/-- A report of what is known already. -/
structure Known (p : Progress α) (report : Report α) : Prop where
  param : ∀ x ∈ report.param, p.param = x
  cost : ∀ c ∈ report.cost, p.cost = c ∧ Scalar.lt c p.bestCost = false
  gradient : ∀ g ∈ report.gradient, p.gradient = some g
  hessian : ∀ h ∈ report.hessian, p.hessian = some h

/-- **Reporting once more what is known** changes the previous values only. -/
theorem update_known {report : Report α} (h : p.Known report) : p.Renewed (p.update report).1 := by
  obtain ⟨hparam, hcost, hgradient, hhessian⟩ := h
  rw [update_of_not_lt fun c hc => (hcost c hc).2, merge_eq]
  unfold Renewed
  rcases report with ⟨_ | x, _ | c, _ | g, _ | h, notes⟩ <;>
    simp_all

/-- What a run knows of its point does not depend on what was known before. -/
theorem Renewed.settled (h : p.Renewed q) (hp : p.Settled F G) : q.Settled F G := by
  rw [h]
  exact ⟨hp.cost, hp.gradient, hp.best⟩

end ProgressOn

/-! ### The initialisation of another call -/

/-- Cost, gradient and Hessian are those at the point, and the cost is no new best. -/
structure TrustRegion.Informed (F : Tensor α → Except (Failure α) α)
    (G H : Tensor α → Except (Failure α) (Tensor α)) (p : Progress α) : Prop
    extends p.Settled F G where
  hessian : ∃ h, p.hessian = some h ∧ H p.param = .ok h

namespace Method

/-- What the method evaluates when a call begins is what the progress shows; the methods that evaluate
    nothing then need to know nothing. -/
def Knows (F : Tensor α → Except (Failure α) α) (G H : Tensor α → Except (Failure α) (Tensor α))
    (p : Progress α) : Method α → Prop
  | .landweber _ => True
  | .newton _ => True
  | .steepestDescent _ => True
  | .quasiNewton _ => p.Settled F G
  | .trustRegion _ => TrustRegion.Informed F G H p
  | _ => False

/-- What the method evaluates when a call begins. -/
def initialCounts : Method α → Counts
  | .quasiNewton _ => ⟨1, 1, 0, 0⟩
  | .trustRegion _ => ⟨1, 1, 1, 0⟩
  | _ => .zero

/-- What a method knows is not about the previous values. -/
theorem Knows.renewed {m : Method α} {p q : Progress α} (hm : m.Knows F G H p) (h : p.Renewed q) :
    m.Knows F G H q := by
  cases m with
  | landweber s => trivial
  | newton s => trivial
  | steepestDescent s => trivial
  | quasiNewton s => exact h.settled hm
  | trustRegion s =>
    refine ⟨h.settled hm.toSettled, ?_⟩
    rw [h]
    exact hm.hessian
  | lineSearch s => exact hm.elim
  | dogleg s => exact hm.elim
  | script s => exact hm.elim

variable {A : Setting ω α} {p : Progress α} {t : Session ω}

/-- **The initialisation of another call** succeeds, reports what is known, and leaves the method as it
    is. -/
theorem ends_init_known (hA : A.operator.Consistent F G H) {m : Method α} (hm : m.Knows F G H p) :
    (solver.init A p).Ends ⟨m, t⟩ (fun report? w => p.Renewed (Run.started p report?) ∧
      w.solver = m ∧ w.session.counts = t.counts + m.initialCounts) fun _ => False := by
  refine (ends_dispatch (fun S => S.init A p) ⟨m, t⟩).2 ?_
  -- Only the last two methods initialise, and what the operator answers is what they know already.
  cases m with
  | landweber s => exact ⟨.refl p, rfl, (Counts.add_zero _).symm⟩
  | newton s => exact ⟨.refl p, rfl, (Counts.add_zero _).symm⟩
  | steepestDescent s => exact ⟨.refl p, rfl, (Counts.add_zero _).symm⟩
  | quasiNewton s =>
    refine (Workspace.ends_wrapping ..).2 ?_
    obtain ⟨hcost, ⟨g, hg, hgradient⟩, hbest⟩ := hm
    refine QuasiNewton.ends_init_iff.2 ((hA.ends_cost_known hcost).mono ?_)
    rintro _ t₁ ⟨rfl, hcounts⟩
    refine (hA.ends_gradient_known hgradient).mono ?_
    rintro _ t₂ ⟨rfl, hcounts'⟩
    refine ⟨ProgressOn.update_known ⟨?_, ?_, ?_, ?_⟩, rfl, ?_⟩
    · rintro x ⟨⟩
      rfl
    · rintro c ⟨⟩
      exact ⟨rfl, hbest⟩
    · rintro v ⟨⟩
      exact hg
    · rintro h ⟨⟩
    · rw [hcounts', hcounts]
      rfl
  | trustRegion s =>
    refine (Workspace.ends_wrapping ..).2 ?_
    obtain ⟨⟨hcost, ⟨g, hg, hgradient⟩, hbest⟩, ⟨h, hh, hhessian⟩⟩ := hm
    refine TrustRegion.ends_init_iff.2 ((hA.ends_cost_known hcost).mono ?_)
    rintro _ t₁ ⟨rfl, hcounts⟩
    refine (hA.ends_gradient_known hgradient).mono ?_
    rintro _ t₂ ⟨rfl, hcounts'⟩
    refine (hA.ends_hessian_known hhessian).mono ?_
    rintro _ t₃ ⟨rfl, hcounts''⟩
    refine ⟨ProgressOn.update_known ⟨?_, ?_, ?_, ?_⟩, rfl, ?_⟩
    · rintro x ⟨⟩
      rfl
    · rintro c ⟨⟩
      exact ⟨rfl, hbest⟩
    · rintro v ⟨⟩
      exact hg
    · rintro m ⟨⟩
      exact hh
    · rw [hcounts'', hcounts', hcounts]
      rfl
  | lineSearch s => exact hm.elim
  | dogleg s => exact hm.elim
  | script s => exact hm.elim

end Method

/-! ### What a run has come to know -/

namespace TrustRegion

variable {A : Setting ω α} {p : Progress α}

/-- The reason to stop is no part of it. -/
theorem Informed.stopped (h : Informed F G H p) (reason : Reason) :
    Informed F G H { p with reason := reason } :=
  ⟨⟨h.cost, h.gradient, h.best⟩, h.hessian⟩

/-- After a report of a point with all that is known there. -/
theorem informed_update [Scalar.Ordered α] {x v m : Tensor α} {c : α} (p : Progress α)
    (notes : Notes α) (hc : F x = .ok c) (hv : G x = .ok v) (hm : H x = .ok m) :
    Informed F G H (p.update ⟨some x, some c, some v, some m, notes⟩).1 where
  cost := by simpa using hc
  gradient := ⟨v, by simp, by simpa using hv⟩
  hessian := ⟨m, by simp, by simpa using hm⟩
  best := ProgressOn.lt_best_update rfl

/-- All is evaluated at the start. -/
theorem ends_init_informed [Scalar.Ordered α] (hA : A.operator.Consistent F G H)
    (w : Workspace (TrustRegion α) ω) :
    (solver.init A p).Ends w (fun report? _ => Informed F G H (Run.started p report?))
      fun _ => True := by
  refine ends_init_iff.2 ((hA.ends_cost _).mono fun c _ hc => ?_)
  refine (hA.ends_gradient _).mono fun v _ hv => ?_
  refine (hA.ends_hessian _).mono fun m _ hm => ?_
  exact informed_update p _ hc hv hm

/-- A step reports a new point with all that is known there, or the old one. -/
theorem ends_step_informed [Scalar.Ordered α] (hA : A.operator.Consistent F G H)
    (hp : Informed F G H p) (w : Workspace (TrustRegion α) ω) :
    (solver.step A p).Ends w (fun report _ => Informed F G H (p.update report).1)
      fun _ => True := by
  refine (ends_step_trial A p w.solver w.session).mono ?_
  rintro report _ ⟨v, m, t, hmade, hreports, -⟩
  cases hreports with
  | taken notes htaken hv hm =>
    exact informed_update p notes (hmade.cost.of_ends fun _ => hA.ends_cost _)
      (hv.of_ends fun _ => hA.ends_gradient _) (hm.of_ends fun _ => hA.ends_hessian _)
  | kept notes hkept =>
    obtain ⟨v', hv', hgradient⟩ := hp.gradient
    obtain ⟨m', hm', hhessian⟩ := hp.hessian
    obtain rfl : v' = v := Option.some.inj (hv'.symm.trans hmade.gradient)
    obtain rfl : m' = m := Option.some.inj (hm'.symm.trans hmade.hessian)
    exact informed_update p notes hp.cost hgradient hhessian

/-- The method is still the same, and it knows all about its point. -/
def Attends (F : Tensor α → Except (Failure α) α) (G H : Tensor α → Except (Failure α) (Tensor α))
    (p : Progress α) (m : Method α) : Prop :=
  ∃ s, m = .trustRegion s ∧ Informed F G H p

/-- A run keeps the method and what it knows, whatever fails. -/
theorem attends_contract [Scalar.Ordered α] (hA : A.operator.Consistent F G H) (O : Observer η α)
    (c : RunConfig α) :
    Run.Contract (Run.plan A O c) (Attends F G H) (Attends F G H) fun _ => True := by
  refine Run.Contract.anyhow (S := Method.solver) ?_ ?_ ?_
  · rintro p m reason ⟨s, rfl, h⟩
    exact ⟨s, rfl, h.stopped reason⟩
  · rintro p _ session ⟨s, rfl, h⟩ -
    refine (Method.ends_dispatch (fun S => S.step A p) ⟨.trustRegion s, session⟩).2 ?_
    refine (Workspace.ends_wrapping ..).2 ((ends_step_informed hA h _).mono fun _ w hnext => ?_)
    exact ⟨w.solver, rfl, ⟨hnext.cost, hnext.gradient, hnext.best⟩, hnext.hessian⟩
  · rintro p _ session ⟨s, rfl, h⟩
    refine (Method.ends_dispatch (fun S => S.terminate p) ⟨.trustRegion s, session⟩).2 ?_
    refine (Workspace.ends_wrapping ..).2 ((Action.ends_anyhow _ _).mono fun own w _ => ?_)
    exact ⟨w.solver, rfl, h.stopped _⟩

/-- **In every state that a run reaches** it knows all about its point. -/
theorem attends_of_reached [Scalar.Ordered α] (hA : A.operator.Consistent F G H)
    {O : Observer η α} {c : RunConfig α} {r t : Run (Method α) ω η α} {s : TrustRegion α}
    (hr : r.solver = .trustRegion s) (ht : Run.Reached (Run.plan A O c) r t) :
    Attends F G H t.progress t.solver := by
  refine (attends_contract hA O c).reached (fun session => ?_) ht
  refine (Method.ends_dispatch (fun S => S.init A r.progress) ⟨r.solver, session⟩).2 ?_
  rw [hr]
  refine (Workspace.ends_wrapping ..).2 ((ends_init_informed hA _).mono fun _ w h => ?_)
  exact ⟨w.solver, rfl, h⟩

end TrustRegion

section
variable {K : Type} [Field K] [LinearOrder K] [IsStrictOrderedRing K] [Roots K]
  {F : Tensor (Exact K) → Except (Failure (Exact K)) (Exact K)}
  {G H : Tensor (Exact K) → Except (Failure (Exact K)) (Tensor (Exact K))}

/-- The methods that may be called again after they have returned; the quasi-Newton method starts from
    a vector. -/
def Method.Rests (G : Tensor (Exact K) → Except (Failure (Exact K)) (Tensor (Exact K)))
    (x : Tensor (Exact K)) : Method (Exact K) → Prop
  | .landweber _ => True
  | .newton _ => True
  | .steepestDescent _ => True
  | .quasiNewton s => s.Vectorial G x
  | .trustRegion _ => True
  | _ => False

/-- The methods that evaluate nothing when a call begins need to know nothing. -/
theorem Method.StatelessLike.knows {α : Type} [Scalar α] {F : Tensor α → Except (Failure α) α}
    {G H : Tensor α → Except (Failure α) (Tensor α)} {p : Progress α} {m m' : Method α}
    (h : m.StatelessLike m') (hm : ¬ m.IsQuasiNewton) : m'.Knows F G H p := by
  obtain ⟨hstateless, hquasi⟩ := h
  cases m' with
  | landweber s => trivial
  | newton s => trivial
  | steepestDescent s => trivial
  | quasiNewton s => exact absurd (hquasi trivial) hm
  | lineSearch s => exact hstateless.elim
  | dogleg s => exact hstateless.elim
  | trustRegion s => exact hstateless.elim
  | script s => exact hstateless.elim

/-- **A run that returns** knows what its next initialisation reports. -/
theorem Method.knows_of_ok {A : Setting ω (Exact K)} (hA : A.operator.Consistent F G H)
    {O : Observer η (Exact K)} {c : RunConfig (Exact K)}
    {r final : Run (Method (Exact K)) ω η (Exact K)} (hm : r.solver.Rests G r.progress.param)
    (h : (Run.execute (Run.plan A O c)).exec r = (.ok (), final)) :
    final.solver.Knows F G H final.progress := by
  -- Landweber, Newton and steepest descent have nothing to know.
  have hidle (hstateless : r.solver.Stateless) (hquasi : ¬ r.solver.IsQuasiNewton) :
      final.solver.Knows F G H final.progress := by
    have hkept := (Run.stateless_invariant A O c r.solver).execute (r := r) ⟨hstateless, id⟩
    rw [h] at hkept
    exact hkept.knows hquasi
  obtain ⟨t, reason, ht, hprogress, hsolver, -⟩ := Run.reached_of_ok h
  -- The other two know what their last successful iteration merged.
  cases hs : r.solver with
  | landweber s => exact hidle (by rw [hs]; trivial) (by rw [hs]; exact id)
  | newton s => exact hidle (by rw [hs]; trivial) (by rw [hs]; exact id)
  | steepestDescent s => exact hidle (by rw [hs]; trivial) (by rw [hs]; exact id)
  | quasiNewton s =>
    rw [hs] at hm
    obtain ⟨s', -, hs', -⟩ := QuasiNewton.inclined_of_reached hA hs ht
    obtain ⟨hcost, hgradient, hbest⟩ := QuasiNewton.settled_of_consistent hA hs hm ht
    rw [hsolver, hs', hprogress]
    exact ⟨hcost, hgradient, hbest⟩
  | trustRegion s =>
    obtain ⟨s', hs', hinformed⟩ := TrustRegion.attends_of_reached hA hs ht
    rw [hsolver, hs', hprogress]
    exact hinformed.stopped reason
  | lineSearch s =>
    rw [hs] at hm
    exact hm.elim
  | dogleg s =>
    rw [hs] at hm
    exact hm.elim
  | script s =>
    rw [hs] at hm
    exact hm.elim

/-! ### Further calls -/

namespace Run

/-- The run `q` is as `final` was when it finished. -/
structure Rested {α : Type} (Q : η → Prop) (final q : Run (Method α) ω η α) : Prop where
  finished : Finished q
  progress : final.progress.Renewed q.progress
  solver : q.solver = final.solver
  introduced : Watches.Introduced Q q.observers

/-- A run that returns is at rest. -/
theorem rested_of_ok {α : Type} [Scalar α] {P : Plan (Method α) ω η α} {Q : η → Prop}
    (hO : P.observer.Faithful Q) {r final : Run (Method α) ω η α}
    (h : (execute P).exec r = (.ok (), final)) : Rested Q final final where
  finished := finished_of_ok h
  progress := .refl _
  solver := rfl
  introduced := by
    obtain ⟨t, -, ht, -, -, hobservers⟩ := reached_of_ok h
    rw [hobservers]
    exact introduced_of_reached hO ht

/-- **One more call** of a run that knows what it needs. -/
theorem Rested.again {α : Type} [Scalar α] {A : Setting ω α} {F : Tensor α → Except (Failure α) α}
    {G H : Tensor α → Except (Failure α) (Tensor α)} (hA : A.operator.Consistent F G H)
    {O : Observer η α} {Q : η → Prop} (hO : O.Faithful Q) (c : RunConfig α)
    {final q : Run (Method α) ω η α} (hm : final.solver.Knows F G H final.progress)
    (hq : Rested Q final q) :
    ∃ next i, (execute (plan A O c)).exec q = (.ok (), next) ∧
      (execute (plan A O c).overheard).exec (q.overheard []) = (.ok (), next.overheard [.init i]) ∧
      Rested Q final next ∧
      next.session.counts = q.session.counts + final.solver.initialCounts := by
  obtain ⟨hprogress, hsolver, hcounts⟩ := begun_course (plan A O c) q
  have hobservers := (begun_surroundings (plan A O c) q).2
  have hknows := hm.renewed hq.progress
  rw [← hq.solver, ← hsolver, ← hprogress] at hknows
  -- The initialisation asks again for what is known, so it succeeds and renews the progress.
  obtain ⟨report?, w, hinit, hrenewed, hkept, hsum⟩ :=
    (Method.ends_init_known (t := (begun (plan A O c) q).session) hA hknows).exists_ok
  have hintroduced : Watches.Introduced Q
      (Watches.mk (begun (plan A O c) q).observers w.session.logbook).list := by
    show Watches.Introduced Q (begun (plan A O c) q).observers
    rw [hobservers]
    exact hq.introduced
  -- The observers were introduced by the first call, and being introduced again raises nothing.
  obtain ⟨⟨⟩, after, hshown, hagain⟩ := (hO.ends_init_again (Method.solver.name w.solver)
    ((report?.map (·.notes)).getD []) hintroduced).exists_ok
  have hopen := exec_opening_of_parts (P := plan A O c) hinit hshown
  obtain ⟨hprogress', hsolver', hobservers', hcounts'⟩ := finished_course (plan A O c) q
    (watched after (opened (begun (plan A O c) q) report? w))
  rw [hprogress] at hrenewed
  rw [hsolver, hq.solver] at hkept hsum
  rw [hcounts] at hsum
  refine ⟨_, _, hq.finished.execute_eq hopen, hq.finished.overheard_execute hopen, ?_, ?_⟩
  · refine ⟨finished_of_ok (hq.finished.execute_eq hopen), ?_, hsolver'.trans hkept, ?_⟩
    · rw [hprogress']
      refine hq.progress.trans ?_
      show q.progress.Renewed (started (begun (plan A O c) q).progress report?)
      rw [hprogress]
      exact hrenewed
    · rw [hobservers']
      exact hagain
  · rw [hcounts']
    exact hsum

/-- **A finished run stays finished.**  Once a call has returned, every further call returns as well.
    It asks the solver to initialise itself and for nothing else, and leaves everything as it is but the
    previous values and the counts, to which it adds what the initialisation evaluates.  The operator
    does at a point what it always does there; an observer that has been introduced once may be
    introduced again. -/
theorem finished_stays_finished {op : Operator ω (Exact K)} (hop : op.Consistent F G H)
    {O : Observer η (Exact K)} {Q : η → Prop} (hO : O.Faithful Q) (debug : Bool)
    (c : RunConfig (Exact K)) {r final : Run (Method (Exact K)) ω η (Exact K)}
    (hm : r.solver.Rests G r.progress.param)
    (h : (execute (plan ⟨op, debug⟩ O c)).exec r = (.ok (), final)) (k : ℕ) :
    let P := plan ⟨op, debug⟩ O c
    (execute P).exec (again P final k) = (.ok (), again P final (k + 1)) ∧
      (∃ i, (execute P.overheard).exec ((again P final k).overheard []) =
        (.ok (), (again P final (k + 1)).overheard [.init i])) ∧
      final.progress.Renewed (again P final k).progress ∧
      (again P final k).solver = final.solver ∧
      ∀ j, (again P final k).session.counts.get j =
        final.session.counts.get j + k * final.solver.initialCounts.get j := by
  intro P
  have hknows := Method.knows_of_ok (A := ⟨op, debug⟩) hop hm h
  have hcall {q : Run (Method (Exact K)) ω η (Exact K)} (hq : Rested Q final q) :=
    hq.again (A := ⟨op, debug⟩) hop hO c hknows
  -- On the number of calls; the run is at rest in front of each of them.
  have hrested (k : ℕ) : Rested Q final (again P final k) ∧
      ∀ j, (again P final k).session.counts.get j =
        final.session.counts.get j + k * final.solver.initialCounts.get j := by
    induction k with
    | zero => exact ⟨rested_of_ok hO h, fun j => by simp [again]⟩
    | succ k ih =>
      obtain ⟨hq, hcounts⟩ := ih
      obtain ⟨next, i, hnext, -, hrested, hadded⟩ := hcall hq
      obtain rfl : again P final (k + 1) = next := congrArg Prod.snd hnext
      refine ⟨hrested, fun j => ?_⟩
      rw [hadded, Counts.get_add, hcounts]
      ring
  obtain ⟨hq, hcounts⟩ := hrested k
  obtain ⟨next, i, hnext, hover, -⟩ := hcall hq
  obtain rfl : again P final (k + 1) = next := congrArg Prod.snd hnext
  exact ⟨hnext, ⟨i, hover⟩, hq.progress, hq.solver, hcounts⟩

end Run

end

namespace Run

/-- Three iterations of the quasi-Newton method on the sphere function. -/
def restingPlan : Plan (Method (Exact ℚ)) Unit (Watcher (Exact ℚ)) (Exact ℚ) :=
  plan ⟨sphereOperator, true⟩ Watcher.observer ⟨3, -1.0, true⟩

/-- From the point `(1, 2)`, with a recorder. -/
def restingStart : Run (Method (Exact ℚ)) Unit (Watcher (Exact ℚ)) (Exact ℚ) :=
  ⟨seeded (.ofVec .array ![1, 2]) 3 none none none, steadyMethod, .start (),
    [⟨.always, .recorder []⟩]⟩

/-- Two more calls evaluate two costs. -/
theorem finished_stays_finished_descent : ∃ final,
    (execute restingPlan).exec restingStart = (.ok (), final) ∧ final.progress.iter = 3 ∧
      (execute restingPlan).exec (again restingPlan final 2) = (.ok (), again restingPlan final 3) ∧
      final.progress.Renewed (again restingPlan final 2).progress ∧
      (again restingPlan final 2).solver = final.solver ∧
      (again restingPlan final 2).session.counts.cost = final.session.counts.cost + 2 := by
  have hok : ((execute restingPlan).exec restingStart).1.isOk = true := by decide +kernel
  have hiter : ((execute restingPlan).exec restingStart).2.progress.iter = 3 := by decide +kernel
  have hcounts : ((execute restingPlan).exec restingStart).2.solver.initialCounts.cost = 1 := by
    decide +kernel
  have hmethod : steadyMethod.Rests (fun x => .ok (sphereGradient x)) (.ofVec .array ![1, 2]) :=
    ⟨⟨⟨1 / 4, by decide +kernel, by decide +kernel⟩, 1 / 2, by decide +kernel, by decide +kernel⟩,
      .array, 2, ![1, 2], 1, rfl, rfl,
      fun y v hv => ⟨2 • y, (Except.ok.inj hv).symm.trans (sphereGradient_ofVec y)⟩⟩
  have hrun := Action.exec_eq_of_isOk hok
  generalize ((execute restingPlan).exec restingStart).2 = final at hrun hiter hcounts
  obtain ⟨hagain, -, hrenewed, hsolver, hadded⟩ := finished_stays_finished
    sphereOperator_pointwise.consistent Watcher.observer_faithful true ⟨3, -1.0, true⟩ hmethod hrun 2
  refine ⟨final, hrun, hiter, hagain, hrenewed, hsolver, (hadded .cost).trans ?_⟩
  rw [Counts.get, Counts.get, hcounts]

end Run

end Minimization
