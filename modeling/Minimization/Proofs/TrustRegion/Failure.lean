import Minimization.Proofs.Counts.Abort
import Minimization.Proofs.Counts.Spending
import Minimization.Proofs.Method.Finished
import Minimization.Proofs.TrustRegion.Radius

namespace Minimization

/-!
# A step of a trust-region method that fails

The radius of the region is set as soon as the trial has been made, and the derivatives at the new
point are evaluated after that.  A step that fails before has left the method as it was; one that fails
afterwards has left it with the next radius, and another call starts from there.

* `TrustRegion.blank` — the method without what its subproblem has been left with.
* `TrustRegion.leftRadius`, `TrustRegion.blank_of_step_failed` — what a step that fails leaves.
* `TrustRegion.Region.nextRadius_eq_iff` — the trials that leave the radius as it is;
  `TrustRegion.radius_of_step_failed_iff` — so the failures that do.
* `TrustRegion.step_sees` — a step does not look at what its subproblem has been left with.
* `Method.resumes_trustRegion` — with the same radius the method does what it would have done.
* `Run.trustRegion_recovers` — a call after a failure takes up the run if the radius is the same.
-/

variable {ω ω' η η' α : Type}

/-- A subproblem without the radius that the last step has given to it. -/
def Subproblem.blank [Scalar α] : Subproblem α → Subproblem α
  | .dogleg _ => .dogleg .unset
  | .unsuited text radius => .unsuited text radius

namespace TrustRegion

/-- The method without the radius that the last step has given to its subproblem. -/
def blank [Scalar α] (s : TrustRegion α) : TrustRegion α := { s with subproblem := s.subproblem.blank }

variable [Scalar α] {A : Setting ω α} {p : Progress α}

/-! ### What is left -/

/-- The run inside a step leaves the subproblem with the radius, and nothing else, whether it succeeds
    or fails. -/
theorem leaves_subproblemStep (x gradient hessian : Tensor α) (s : TrustRegion α) :
    Workspace.Leaves (fun s' => s'.blank = s) (fun s' => s'.blank = s)
      (subproblemStep A x gradient hessian) := by
  refine .reading fun s' hs' => ?_
  cases hsub : s'.subproblem with
  | unsuited text radius =>
    -- It cannot be given a radius, so that the step fails here.
    rintro w rfl
    exact hs'
  | dogleg d₀ =>
    have hblank (d : Dogleg α) : ({ s' with subproblem := .dogleg d } : TrustRegion α).blank = s := by
      rw [← hs', blank, blank, hsub]
      rfl
    have hrun : Workspace.Leaves (fun _ => True) (fun _ => True) (Run.nested Dogleg.solver A fun c =>
        Run.seeded x c.maxIters none (some gradient) (some hessian)) := fun _ _ => trivial
    refine .bind (.ofExcept _) (fun s₁ hs₁ => hs₁ ▸ hs') fun dogleg => ?_
    refine .seq (hrun.within (fun _ _ => trivial) fun d s₁ _ hs₁ => ?_) fun found => .pure _
    rw [hs₁]
    exact hblank d

/-- A trial keeps the settings. -/
theorem leaves_explore (A : Setting ω α) (p : Progress α) (s : TrustRegion α) :
    Workspace.Leaves (fun s' => s'.blank = s) (fun s' => s'.blank = s) (explore A p) := by
  rw [explore_parts]
  refine .seq (.ofExcept _) fun gradient => .seq (.ofExcept _) fun hessian => ?_
  refine .seq (leaves_subproblemStep _ gradient hessian s) fun direction => ?_
  exact .seq ((ordinary_weigh _ p gradient hessian direction).leaves A) fun t => .pure _

/-- A decision does not touch the method. -/
theorem solver_conclude (p : Progress α) (gradient hessian : Tensor α) (t : Trial α)
    (w : Workspace (TrustRegion α) ω) :
    ((conclude A p gradient hessian t).exec w).2.solver = w.solver :=
  (ordinary_conclude (· = w.solver) p gradient hessian t).leaves A w rfl

/-- The radius with which a step that fails leaves the method: the next one, if the trial has been
    made. -/
def leftRadius (A : Setting ω α) (p : Progress α) (w : Workspace (TrustRegion α) ω) : α :=
  match (explore A p).exec w with
  | (.ok (_, _, t), _) => w.solver.nextRadius (t.ratio p.cost) t.length
  | (.error _, _) => w.solver.radius

/-- **A step that fails** leaves the settings as they were, but for the radius. -/
theorem blank_of_step_failed {w v : Workspace (TrustRegion α) ω} {e : Failure α}
    (h : (solver.step A p).exec w = (.error e, v)) :
    v.solver.blank = { w.solver.blank with radius := leftRadius A p w } := by
  have hstep : (step A p).exec w = (.error e, v) := h
  have hkept := leaves_explore A p w.solver.blank w rfl
  rw [step_parts, attempt_eq] at hstep
  simp only [bind_assoc, pure_bind] at hstep
  unfold leftRadius
  rcases Action.exec_bind_eq_error_iff.1 hstep with
    hexplore | ⟨⟨gradient, hessian, t⟩, u, hexplore, hrest⟩
  · -- The trial has not been made.
    rw [hexplore] at hkept ⊢
    exact hkept
  · rw [hexplore] at hkept ⊢
    have hkept : u.solver.blank = w.solver.blank := hkept
    have hnext (rho length : α) : u.solver.nextRadius rho length = w.solver.nextRadius rho length :=
      congrArg (fun s => s.nextRadius rho length) hkept
    -- Only the derivatives at the new point can fail now.
    have hconclude : (conclude A p gradient hessian t).exec { u with
        solver := { u.solver with radius := u.solver.nextRadius (t.ratio p.cost) t.length } } =
          (.error e, v) := hrest
    have hsame : v.solver =
        { u.solver with radius := u.solver.nextRadius (t.ratio p.cost) t.length } :=
      (congrArg (·.2.solver) hconclude).symm.trans (solver_conclude p gradient hessian t _)
    rw [hsame, hnext]
    exact congrArg
      (fun s => { s with radius := w.solver.nextRadius (t.ratio p.cost) t.length }) hkept

/-! ### What matters of it -/

/-- The subproblem of a memory with the same settings is of the same kind. -/
theorem eq_of_blank_eq {s s' : TrustRegion α} (h : s'.blank = s.blank) (d : Dogleg α) :
    ({ s' with subproblem := .dogleg d } : TrustRegion α) = { s with subproblem := .dogleg d } := by
  obtain ⟨-, hradius, hmaxRadius, hacceptance⟩ := TrustRegion.mk.inj h
  rw [hradius, hmaxRadius, hacceptance]

/-- What the subproblem is solved for depends on the settings only. -/
theorem setRadius_of_blank_eq {s s' : TrustRegion α} (h : s'.blank = s.blank) :
    s'.subproblem.setRadius s'.radius = s.subproblem.setRadius s.radius := by
  obtain ⟨hsubproblem, hradius, -⟩ := TrustRegion.mk.inj h
  rw [hradius]
  cases hs : s.subproblem with
  | dogleg d =>
    cases hs' : s'.subproblem with
    | dogleg d' => rfl
    | unsuited text radius =>
      rw [hs, hs'] at hsubproblem
      cases hsubproblem
  | unsuited text radius =>
    cases hs' : s'.subproblem with
    | dogleg d' =>
      rw [hs, hs'] at hsubproblem
      cases hsubproblem
    | unsuited text' radius' => rfl

/-- The run inside a step overwrites what the last one has left. -/
theorem subproblemStep_sees (x gradient hessian : Tensor α) :
    Sees blank id (subproblemStep A x gradient hessian) := by
  refine .reading (fun s s' hs => ?_) fun s => .bind (.ofExcept _) fun dogleg => ?_
  · rw [setRadius_of_blank_eq hs]
  · refine Sees.bind (.within (.of_id _) (fun _ _ _ => rfl) fun d d' s s' hd hs => ?_)
      fun found => .of_id _
    obtain rfl : d' = d := hd
    exact eq_of_blank_eq hs d'

/-- **A step looks at the settings alone**, and if it succeeds, nothing else is left. -/
theorem step_sees (A : Setting ω α) (p : Progress α) :
    Sees blank id ((solver (ω := ω) (α := α)).step A p) :=
  .bind (.ofExcept _) fun _ => .bind (.ofExcept _) fun _ =>
    .bind (subproblemStep_sees _ _ _) fun _ => .of_id _

/-! ### The trials that keep the radius -/

section
variable {K : Type} [Field K] [LinearOrder K] [IsStrictOrderedRing K] [Roots K]

open Exact in
/-- The radius stays as it is after a fair step, and after a good one that stays inside the region or
    has the largest radius already. -/
theorem Region.nextRadius_eq_iff {M eta rho : K} {s : TrustRegion (Exact K)} (hs : Region M eta rho s)
    (r : K) (length : Exact K) : s.nextRadius (finite r) length = s.radius ↔
      1 / 4 ≤ r ∧ (rho = M ∨ ¬ (3 / 4 < r ∧ Scalar.le (0.9 * s.radius) length = true)) := by
  have hpos := hs.pos
  have hle := hs.le
  have hlit : (0.75 : Exact K) = finite (3 / 4) := (lit 75 2).trans (by norm_num)
  unfold nextRadius
  rw [lit_quarter, hlit, hs.radius, hs.maxRadius]
  by_cases hpoor : r < 1 / 4
  · rw [if_pos ((lt_finite ..).2 hpoor), finite_mul]
    refine iff_of_false (fun heq => ?_) fun h => absurd hpoor (not_lt.2 h.1)
    have hquarter : rho * (1 / 4) = rho := finite.inj heq
    linarith
  · rw [if_neg (by rwa [lt_finite])]
    have hcondition : (Scalar.lt (finite (3 / 4)) (finite r) &&
        Scalar.le (0.9 * finite rho) length) = true ↔
          3 / 4 < r ∧ Scalar.le (0.9 * finite rho) length = true := by
      rw [Bool.and_eq_true, lt_finite]
    by_cases hgood : 3 / 4 < r ∧ Scalar.le (0.9 * finite rho) length = true
    · rw [if_pos (hcondition.2 hgood), lit_two, finite_mul, Scalar.least]
      -- Twice a positive radius is another one, but the largest radius may come before it.
      by_cases hfull : M < 2 * rho
      · rw [if_pos ((lt_finite ..).2 hfull), finite.injEq]
        constructor
        · intro heq
          exact ⟨not_lt.1 hpoor, .inl heq.symm⟩
        · rintro ⟨-, rfl | hnot⟩
          · rfl
          · exact absurd hgood hnot
      · rw [if_neg (by rwa [lt_finite]), finite.injEq]
        refine iff_of_false (fun heq => by linarith) ?_
        rintro ⟨-, rfl | hnot⟩
        · exact hfull (by linarith)
        · exact hnot hgood
    · rw [if_neg (mt hcondition.1 hgood)]
      exact iff_of_true rfl ⟨not_lt.1 hpoor, .inr hgood⟩

open Exact in
/-- **A step that fails keeps the radius** if it has made no trial, or one after which the radius stays
    as it is. -/
theorem radius_of_step_failed_iff {M eta rho : K} {A : Setting ω (Exact K)} {p : Progress (Exact K)}
    {w v : Workspace (TrustRegion (Exact K)) ω} {e : Failure (Exact K)} (hs : Region M eta rho w.solver)
    (h : (solver.step A p).exec w = (.error e, v)) :
    v.solver.radius = w.solver.radius ↔ ∀ gradient hessian t u,
      (explore A p).exec w = (.ok (gradient, hessian, t), u) →
        ∃ r, t.ratio p.cost = finite r ∧ 1 / 4 ≤ r ∧
          (rho = M ∨ ¬ (3 / 4 < r ∧ Scalar.le (0.9 * w.solver.radius) t.length = true)) := by
  have hleft : v.solver.radius = leftRadius A p w :=
    congrArg TrustRegion.radius (blank_of_step_failed h)
  have hmade := ends_explore A p w
  rw [hleft]
  unfold leftRadius
  rcases hexec : (explore A p).exec w with ⟨_ | ⟨gradient, hessian, t⟩, u⟩
  -- Before the trial is complete nothing has been written.
  · exact iff_of_true rfl fun _ _ _ _ => nofun
  -- With a trial the new radius is there, whatever fails after it; the ratio decides which one it is.
  · obtain ⟨r, hr⟩ := (hmade.of_ok hexec).1.ratio_finite
    dsimp only
    rw [hr, hs.nextRadius_eq_iff]
    constructor
    · rintro hkept _ _ _ _ ⟨⟩
      exact ⟨r, hr, hkept⟩
    · intro hkept
      obtain ⟨r', hr', hkept⟩ := hkept gradient hessian t u rfl
      obtain rfl : r' = r := finite.inj (hr'.symm.trans hr)
      exact hkept

end

end TrustRegion

/-! ### The method at hand -/

namespace ProgressOn

variable [Scalar α] {p q : Progress α}

/-- A report of all that there is does not show what the previous values have been. -/
theorem update_renewed (h : p.Renewed q) {report : Report α} (hparam : report.param.isSome)
    (hcost : report.cost.isSome) (hgradient : report.gradient.isSome)
    (hhessian : report.hessian.isSome) : q.update report = p.update report := by
  have hmerge : q.merge report = p.merge report := by
    rw [h, merge_eq, merge_eq]
    simp [hparam, hcost, hgradient, hhessian]
  unfold ProgressOn.update
  rw [hmerge]

end ProgressOn

namespace TrustRegion

variable [Scalar α] {A : Setting ω α} {p : Progress α} {spent : ω → Prop}
  {F : Tensor α → Except (Failure α) α} {G H : Tensor α → Except (Failure α) (Tensor α)}

/-- **The initialisation of another call** reports what is known, once nothing fails any more. -/
theorem init_again (hA : A.operator.Transient spent F G H) (hp : Informed F G H p)
    (s : TrustRegion α) {t : Session ω} (ht : spent t.host.memory) :
    ∃ report? t', (solver.init A p).exec ⟨s, t⟩ = (.ok report?, ⟨s, t'⟩) ∧
      p.Renewed (Run.started p report?) := by
  obtain ⟨⟨hF, ⟨g, hg, hG⟩, hbest⟩, ⟨h, hh, hH⟩⟩ := hp
  have hinit : (init A p).Ends ⟨s, t⟩ (fun report? w =>
      p.Renewed (Run.started p report?) ∧ w.solver = s) fun _ => False := by
    -- Cost, gradient and Hessian are asked for again, and answered as before.
    refine ends_init_iff.2 ((hA.ends_cost_spent hF ht).mono ?_)
    rintro c t₁ ⟨rfl, ht₁⟩
    refine (hA.ends_gradient_spent hG ht₁).mono ?_
    rintro v t₂ ⟨rfl, ht₂⟩
    refine (hA.ends_hessian_spent hH ht₂).mono ?_
    rintro m t₃ ⟨rfl, -⟩
    refine ⟨ProgressOn.update_known ⟨?_, ?_, ?_, ?_⟩, rfl⟩
    · rintro x ⟨⟩
      rfl
    · rintro c ⟨⟩
      exact ⟨rfl, hbest⟩
    · rintro u ⟨⟩
      exact hg
    · rintro u ⟨⟩
      exact hh
  obtain ⟨report?, ⟨s', t'⟩, hexec, hrenewed, rfl⟩ := hinit.exists_ok
  exact ⟨report?, t', hexec, hrenewed⟩

/-- An initialisation that fails leaves the method as it was. -/
theorem solver_of_init_failed {s : TrustRegion α} {t : Session ω} {v : Workspace (Method α) ω}
    {e : Failure α} (h : (Method.solver.init A p).exec ⟨.trustRegion s, t⟩ = (.error e, v)) :
    v.solver = .trustRegion s := by
  have hkept : ((solver.init A p).exec ⟨s, t⟩).2.solver = s :=
    (ordinary_init (· = s) p).leaves A ⟨s, t⟩ rfl
  rw [Method.exec_init] at h
  obtain ⟨-, rfl⟩ := Prod.mk.inj h
  exact congrArg Method.trustRegion hkept

/-- A step reports all that there is. -/
theorem report_of_step {w v : Workspace (TrustRegion α) ω} {report : Report α}
    (h : (solver.step A p).exec w = (.ok report, v)) : report.param.isSome ∧ report.cost.isSome ∧
      report.gradient.isSome ∧ report.hessian.isSome := by
  obtain ⟨gradient, hessian, t, -, hreports, -⟩ := (ends_step_trial A p w.solver w.session).of_ok h
  cases hreports with
  | taken => exact ⟨rfl, rfl, rfl, rfl⟩
  | kept => exact ⟨rfl, rfl, rfl, rfl⟩

/-- Another call does not show in a step. -/
theorem alike_renewed (A : Setting ω α) (s : TrustRegion α) {q : Progress α} (h : p.Renewed q) :
    Method.Alike A (.trustRegion s) p q where
  -- The step reads nothing of what a renewal changes.
  step t := by
    rw [Method.exec_step, Method.exec_step, h]
    rfl
  update {t report v} hstep := by
    rw [Method.exec_step] at hstep
    have houtcome : ((solver.step A p).exec ⟨s, t⟩).1 = .ok report := congrArg Prod.fst hstep
    obtain ⟨hparam, hcost, hgradient, hhessian⟩ := report_of_step (Prod.ext houtcome rfl)
    exact ProgressOn.update_renewed h hparam hcost hgradient hhessian
  reason := by rw [h]

/-- With the radius that it had before, a method whose step has failed has all of its settings. -/
theorem blank_of_radius_kept {w v : Workspace (TrustRegion α) ω} {e : Failure α}
    (h : (solver.step A p).exec w = (.error e, v)) (hradius : v.solver.radius = w.solver.radius) :
    v.solver.blank = w.solver.blank := by
  have hblank := blank_of_step_failed h
  have hleft : v.solver.radius = leftRadius A p w := congrArg TrustRegion.radius hblank
  rw [hblank, ← hleft, hradius]
  rfl

end TrustRegion

namespace Method

/-- Such a method has the memory of a trust region. -/
theorem IsTrustRegion.exists_eq {m : Method α} (h : m.IsTrustRegion) : ∃ s, m = .trustRegion s := by
  cases m with
  | trustRegion s => exact ⟨s, rfl⟩
  | _ => exact h.elim

/-- The radius of a trust-region method. -/
def radius? : Method α → Option α
  | .trustRegion s => some s.radius
  | _ => none

variable [Scalar α]

/-- A trust-region method stays one. -/
theorem lasting_trustRegion : Lasting (IsTrustRegion (α := α)) where
  builtIn := IsTrustRegion.builtIn
  dispatch act w hw := by
    obtain ⟨m, t⟩ := w
    rw [exec_dispatch]
    cases m with
    | trustRegion s => trivial
    | _ => exact hw.elim

/-- **With the same settings** the method does what it would have done. -/
theorem resumes_trustRegion {A : Setting ω α} {spent : ω → Prop}
    {F : Tensor α → Except (Failure α) α} {G H : Tensor α → Except (Failure α) (Tensor α)}
    (hA : A.operator.Transient spent F G H) {p : Progress α} (hp : TrustRegion.Informed F G H p)
    {s s' : TrustRegion α} (h : s'.blank = s.blank) :
    Resumes A spent p (.trustRegion s) (.trustRegion s') where
  builtIn := trivial
  init t ht := by
    obtain ⟨report?, t', hinit, hrenewed⟩ := TrustRegion.init_again hA hp s' ht
    refine ⟨report?, t', ?_, TrustRegion.alike_renewed A s' hrenewed⟩
    rw [exec_init]
    unfold acting Workspace.wrapping
    rw [Action.exec_focus, hinit]
  step {t report v} hstep :=
    step_of_renews (fun x t => exec_step A p ⟨.trustRegion x, t⟩)
      (TrustRegion.step_sees A p).renews h hstep

end Method

/-! ### Both calls -/

namespace Run

section
variable [Scalar α] [Scalar.Ordered α] {op : Operator ω α} {op' : Operator ω' α} {spent : ω' → Prop}
  {Q : η' → Prop} {F : Tensor α → Except (Failure α) α}
  {G H : Tensor α → Except (Failure α) (Tensor α)}

/-- **A failed step of a trust-region method** leaves its settings as they were, but for the radius,
    which is the next one already if the trial has been made.  If the radius is still the same where a
    run fails, then another call is, iteration by iteration, where the run would have been without the
    failure. -/
theorem trustRegion_recovers (hop : op.Pointwise F G H) (hop' : op'.Transient spent F G H)
    (O : Observer η α) {O' : Observer η' α} (hO : O'.Quiet Q) (debug : Bool) (c : RunConfig α)
    {r final : Run (Method α) ω η α} {q left : Run (Method α) ω' η' α} {f : Failure α}
    (hr : r.progress.reason = .notTerminated) (hm : r.solver.IsTrustRegion)
    (hprogress : q.progress = r.progress) (hsolver : q.solver = r.solver)
    (hq : Watches.Attentive Q q.observers)
    (hok : (execute (plan ⟨op, debug⟩ O c)).exec r = (.ok (), final))
    (hfail : (execute (plan ⟨op', debug⟩ O' c)).exec q = (.error f, left)) :
    let P := plan ⟨op, debug⟩ O c
    let P' := plan ⟨op', debug⟩ O' c
    let n := left.progress.iter - q.progress.iter
    (∀ {τ : Type} (A : Setting τ α) (p : Progress α) {w v : Workspace (TrustRegion α) τ}
        {e : Failure α}, (TrustRegion.solver.step A p).exec w = (.error e, v) →
      v.solver.blank = { w.solver.blank with radius := TrustRegion.leftRadius A p w }) ∧
    (left.solver.radius? = (stateAfter P' q n).solver.radius? → Resumed P P' r left n ∧
      ∃ final', (execute P').exec left = (.ok (), final') ∧
        final'.progress = final.progress ∧ final'.solver = final.solver) := by
  intro P P' n
  refine ⟨fun A p w v e => TrustRegion.blank_of_step_failed, fun hradius => ?_⟩
  obtain ⟨hbroken, hspent, hleft⟩ := broken_of_error Method.lasting_trustRegion hop hop' hO hprogress
    hsolver hm hq hr hok hfail
  obtain ⟨s₀, hs₀⟩ := hm.exists_eq
  generalize hp : left.progress = p at hbroken
  generalize hs : left.solver = m at hbroken
  -- The run has failed in its opening, or in an iteration after some that succeeded.
  cases hbroken with
  | @opening w hinit =>
    rw [hs₀] at hinit
    -- A failed initialisation leaves the solver as it was, so the second call starts like the first.
    have hkept : left.solver = r.solver := by rw [hs, hs₀, TrustRegion.solver_of_init_failed hinit]
    have hn : n = 0 := by
      show left.progress.iter - q.progress.iter = 0
      rw [hp, hprogress, Nat.sub_self]
    rw [hn]
    exact ⟨resumed_opening Method.lasting_trustRegion hop hop' hO hm hp hkept hspent hleft,
      resumes_opening Method.lasting_trustRegion hop hop' hO hm hok hp hkept hspent hleft⟩
  | @iteration k w hk hcap hsame hstep =>
    have hn : n = k := by
      show left.progress.iter - q.progress.iter = k
      rw [hp, hprogress, (hk.mono (Nat.le_succ k)).iter_eq, Nat.add_sub_cancel_left]
    -- What the iterations before it have merged is what the operator answers.
    obtain ⟨s, hbefore, hinformed⟩ := TrustRegion.attends_of_reached hop.consistent hs₀
      (hk.consecutive.reached hk.reached k (Nat.le_succ k))
    rw [hbefore] at hsame hstep
    rw [Method.exec_step] at hstep
    obtain ⟨houtcome, rfl⟩ := Prod.mk.inj hstep
    rw [hn, hsame, hs] at hradius
    -- With the radius kept, all that differs is what a step overwrites.
    have hblank := TrustRegion.blank_of_radius_kept (Prod.ext houtcome rfl) (Option.some.inj hradius)
    have hresumes : Method.Resumes ⟨op', debug⟩ spent left.progress (stateAfter P r k).solver
        left.solver := by
      rw [hp, hs, hbefore]
      exact Method.resumes_trustRegion hop' hinformed hblank
    rw [hn]
    exact ⟨resumed_iteration Method.lasting_trustRegion hop hop' hO hm hk hp hresumes hspent hleft,
      resumes_iteration Method.lasting_trustRegion hop hop' hO hm hok hk hcap hp hresumes hspent hleft⟩

end

/-- A Hessian that is too small for the sphere function on the line. -/
def shallowHessian : Tensor (Exact ℚ) := .ofMat .array (Matrix.diagonal fun _ : Fin 1 => 9 / 8)

/-- The sphere function with it: every step leads too far. -/
def shallowSphere : Operator Unit (Exact ℚ) :=
  { sphereOperator with hessian? := some fun _ => pure shallowHessian }

/-- It answers at every point, and remembers nothing. -/
theorem shallowSphere_pointwise : shallowSphere.Pointwise (fun x => .ok (sphere x))
    (fun x => .ok (sphereGradient x)) fun _ => .ok shallowHessian where
  cost _ _ := ⟨(), rfl⟩
  gradient _ _ := ⟨(), rfl⟩
  hessian _ _ := ⟨(), rfl⟩

/-- A region that is much too large. -/
def wideRegion : TrustRegion (Exact ℚ) := ⟨.dogleg .unset, 32.0, 100.0, 0.125⟩

/-- Two iterations without a failure. -/
def shallowPlan : Plan (Method (Exact ℚ)) Unit Empty (Exact ℚ) :=
  plan ⟨shallowSphere, true⟩ noObserver ⟨2, -1.0, true⟩

/-- From the point `1`. -/
def shallowStart : Run (Method (Exact ℚ)) Unit Empty (Exact ℚ) :=
  ⟨seeded (.ofVec .array ![1]) 2 none none none, .trustRegion wideRegion, .start (), []⟩

/-- The same with a failure at the evaluation of number `n`. -/
def brittlePlan (n : ℕ) : Plan (Method (Exact ℚ)) (Unit × Nat) (Watcher (Exact ℚ)) (Exact ℚ) :=
  plan ⟨shallowSphere.faltering n (.operator "broken"), true⟩ Watcher.observer ⟨2, -1.0, true⟩

/-- The same, with a recorder. -/
def brittleStart : Run (Method (Exact ℚ)) (Unit × Nat) (Watcher (Exact ℚ)) (Exact ℚ) :=
  ⟨seeded (.ofVec .array ![1]) 2 none none none, .trustRegion wideRegion, .start ((), 0),
    [⟨.always, .recorder []⟩]⟩

/-- The trial cost of the second step fails, and another call makes this step.  In the step of a fresh
    workspace a gradient fails after the radius has been set to a quarter. -/
theorem trustRegion_recovers_sphere :
    (∃ final f left final', (execute shallowPlan).exec shallowStart = (.ok (), final) ∧
      (execute (brittlePlan 6)).exec brittleStart = (.error f, left) ∧ left.progress.iter = 1 ∧
      Resumed shallowPlan (brittlePlan 6) shallowStart left 1 ∧
      (execute (brittlePlan 6)).exec left = (.ok (), final') ∧
      final'.progress = final.progress ∧ final'.solver = final.solver) ∧
    ∃ e v, (TrustRegion.solver.step (brittlePlan 1).setting (seeded (.ofVec .array ![1]) 2 (some 1.0)
        (some (.ofVec .array ![2])) (some shallowHessian))).exec ⟨wideRegion, .start ((), 0)⟩ =
          (.error e, v) ∧ v.solver.blank = { wideRegion.blank with radius := 8.0 } := by
  have hclean : ((execute shallowPlan).exec shallowStart).1.isOk = true := by decide +kernel
  have hbroken : ((execute (brittlePlan 6)).exec brittleStart).1.isOk = false := by decide +kernel
  have hiter : ((execute (brittlePlan 6)).exec brittleStart).2.progress.iter = 1 := by decide +kernel
  have hradius : ((execute (brittlePlan 6)).exec brittleStart).2.solver.radius? =
      (stateAfter (brittlePlan 6) brittleStart 1).solver.radius? := by decide +kernel
  obtain ⟨f, hfail⟩ := Action.exec_eq_of_not_isOk hbroken
  obtain ⟨hstep, hagain⟩ := trustRegion_recovers shallowSphere_pointwise
    (shallowSphere_pointwise.faltering 6 (.operator "broken")) noObserver Watcher.observer_quiet true
    ⟨2, -1.0, true⟩ (r := shallowStart) (q := brittleStart) rfl trivial rfl rfl
    ⟨by simp [brittleStart, Watcher.Sure], by simp [brittleStart, ObserverMode.always]⟩
    (Action.exec_eq_of_isOk hclean) hfail
  have hn : ((execute (brittlePlan 6)).exec brittleStart).2.progress.iter - brittleStart.progress.iter =
      1 := by rw [hiter]; rfl
  rw [hn] at hagain
  obtain ⟨hresumed, final', hsecond, hprogress, hsolver⟩ := hagain hradius
  have hlate : ((TrustRegion.solver.step (brittlePlan 1).setting (seeded (.ofVec .array ![1]) 2
      (some 1.0) (some (.ofVec .array ![2])) (some shallowHessian))).exec
        ⟨wideRegion, .start ((), 0)⟩).1.isOk = false := by decide +kernel
  have hleft : TrustRegion.leftRadius (brittlePlan 1).setting (seeded (.ofVec .array ![1]) 2
      (some 1.0) (some (.ofVec .array ![2])) (some shallowHessian)) ⟨wideRegion, .start ((), 0)⟩ =
        (8.0 : Exact ℚ) := by decide +kernel
  obtain ⟨e, hfailed⟩ := Action.exec_eq_of_not_isOk hlate
  refine ⟨⟨_, f, _, final', Action.exec_eq_of_isOk hclean, hfail, hiter, hresumed, hsecond, hprogress,
    hsolver⟩, e, _, hfailed, ?_⟩
  rw [hstep _ _ hfailed, hleft]

/-- **The radius does not survive a gradient that fails** at a point that has been accepted.  Another
    call ends with another radius than the run without the failure. -/
theorem not_trustRegion_recovers :
    ∃ final f left final', (execute shallowPlan).exec shallowStart = (.ok (), final) ∧
      (execute (brittlePlan 4)).exec brittleStart = (.error f, left) ∧ left.progress.iter = 0 ∧
      (stateAfter (brittlePlan 4) brittleStart 0).solver.radius? = some 32.0 ∧
      left.solver.radius? = some 8.0 ∧ (execute (brittlePlan 4)).exec left = (.ok (), final') ∧
      final.solver.radius? = some 2.0 ∧ final'.solver.radius? = some 0.5 := by
  have hclean : ((execute shallowPlan).exec shallowStart).1.isOk = true := by decide +kernel
  have hbroken : ((execute (brittlePlan 4)).exec brittleStart).1.isOk = false := by decide +kernel
  have hagain : ((execute (brittlePlan 4)).exec
      ((execute (brittlePlan 4)).exec brittleStart).2).1.isOk = true := by decide +kernel
  obtain ⟨f, hfail⟩ := Action.exec_eq_of_not_isOk hbroken
  refine ⟨_, f, _, _, Action.exec_eq_of_isOk hclean, hfail, ?_, ?_, ?_, Action.exec_eq_of_isOk hagain,
    ?_, ?_⟩
  · decide +kernel
  · decide +kernel
  · decide +kernel
  · decide +kernel
  · decide +kernel

end Run

end Minimization
