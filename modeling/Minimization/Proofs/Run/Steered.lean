import Minimization.Proofs.Counts.Recording
import Minimization.Proofs.Observer.Quiet
import Minimization.Proofs.Run.Finished

namespace Minimization.Run

open Minimization

/-!
# Runs that follow a path

A solver that reports nothing but points, and never stops by itself, leads a run along a path.  Such a
run ends at its cap, at the point of the path with that number, unless the user stops it.

* `Steers` — the steps of the solver lead from each point of a path to the next one.
* `Unasked` — the user never asks the run to stop.
* `OnPath` — where a run is after `i` iterations; `onPath_fresh` — at its start;
  `Steers.ends_opening`, `Steers.ends_iterate` — how it comes there.
* `Steers.goes` — no iteration fails up to the cap.
* `Steers.execute_eq` — the whole run.
-/

variable {σ ω η α : Type} [Scalar α]

/-- With the memory `s` the solver has nothing to report at the start, its steps lead from each point
    of the path to the next one and report nothing else, and it never stops by itself. -/
structure Steers (P : Plan σ ω η α) (s : σ) (path : ℕ → Tensor α) : Prop where
  init : ∀ (p : Progress α) (session : Session ω), (P.solver.init P.setting p).Ends ⟨s, session⟩
    (fun report? w => report? = none ∧ w.solver = s) fun _ => False
  step : ∀ (i : ℕ) (p : Progress α) (session : Session ω), p.param = path i →
    (P.solver.step P.setting p).Ends ⟨s, session⟩ (fun report w =>
      report = { param := some (path (i + 1)) } ∧ w.solver = s ∧
        ∃ d, w.session.counts = session.counts + d) fun _ => False
  terminate : ∀ (p : Progress α) (session : Session ω), (P.solver.terminate p).Ends ⟨s, session⟩
    (fun own w => own = .notTerminated ∧ w.solver = s) fun _ => False

/-- The user never asks the run to stop. -/
def Unasked (P : Plan σ ω η α) (r : Run σ ω η α) : Prop :=
  ∀ i, Goes P r i → raised P.config (stateAfter P r i).session.host.interrupt = false

/-- A run that may make `k` iterations has made `i` of them along the path, and has stopped if these
    are all.  No step reports a cost. -/
structure OnPath (s : σ) (path : ℕ → Tensor α) (k : ℕ) (cost : α) (i : ℕ) (p : Progress α) (m : σ) :
    Prop where
  solver : m = s
  param : p.param = path i
  prevParam : ∀ j, i = j + 1 → p.prevParam = path j
  cost : p.cost = cost
  iter : p.iter = i
  maxIters : p.maxIters = k
  running : i = 0 ∨ i < k → p.reason = .notTerminated
  full : 0 < i → k ≤ i → p.reason = .maxIters

/-- A run that starts at the first point of a path, with nothing known there. -/
theorem onPath_fresh (P : Plan σ ω η α) (s : σ) (path : ℕ → Tensor α) (session : Session ω)
    (ws : List (Watch η)) :
    OnPath s path P.config.maxIters Scalar.infinity 0
      (fresh P (path 0) none none none s session ws).progress s where
  solver := rfl
  param := rfl
  prevParam _ h := nomatch h
  cost := rfl
  iter := rfl
  maxIters := rfl
  running _ := rfl
  full h := absurd h (Nat.lt_irrefl 0)

namespace Steers

variable {P : Plan σ ω η α} {s : σ} {path : ℕ → Tensor α} {k i : ℕ} {cost : α} {R : η → Prop}
  {r : Run σ ω η α}

/-- The start of a run leaves it where it is. -/
theorem ends_opening (h : Steers P s path) (hO : P.observer.Quiet R)
    (hr : OnPath s path k cost 0 r.progress r.solver) (hws : Watches.Attentive R r.observers) :
    (opening P).Ends r (fun _ t => OnPath s path k cost 0 t.progress t.solver ∧
      Watches.Attentive R t.observers) fun _ => False := by
  refine ends_opening_watched (Q := fun p m _ _ => OnPath s path k cost 0 p m) ?_
    fun name notes b => hO.ends_init name notes hws
  have hsolver := hr.solver
  rw [hsolver]
  refine (h.init r.progress r.session).mono ?_
  rintro _ w ⟨rfl, hw⟩
  exact { hr with solver := hw }

/-- **One iteration** leads to the next point of the path, and stops the run there if it is the last
    one. -/
theorem ends_iterate (h : Steers P s path) (hO : P.observer.Quiet R)
    (hnumber : Scalar.isNaN cost = false) (htarget : Scalar.le cost P.config.targetCost = false)
    (hr : OnPath s path k cost i r.progress r.solver) (hws : Watches.Attentive R r.observers)
    (hi : i = 0 ∨ i < k) :
    (iterate P).Ends r (fun _ t => OnPath s path k cost (i + 1) t.progress t.solver ∧
      Watches.Attentive R t.observers) fun _ => False := by
  refine ends_iterate_watched (Q := fun p m _ _ => OnPath s path k cost (i + 1) p m) (hr.running hi) ?_
    fun p notes isNewBest b => hO.ends_iteration p notes isNewBest hws
  have hsolver := hr.solver
  rw [hsolver]
  refine (h.step i r.progress r.session hr.param).mono ?_
  rintro report w ⟨rfl, hw, d, hcounts⟩
  have hcost : r.progress.cost = cost := hr.cost
  constructor
  · -- The cost is the number that it was, and no counter has gone down.
    intro e he
    unfold inspection finding at he
    have hnumber' : Scalar.isNaN (counted r { param := some (path (i + 1)) } w).progress.cost = false := by
      show Scalar.isNaN r.progress.cost = false
      rw [hcost, hnumber]
    have hgrown : Counts.decreased? r.session.counts
        (counted r { param := some (path (i + 1)) } w).session.counts = none := by
      show Counts.decreased? r.session.counts w.session.counts = none
      rw [hcounts, Counts.decreased?_add]
    rw [hnumber', hgrown] at he
    split at he <;> cases he
  · intro session _ _
    rw [hw]
    refine (h.terminate _ session).mono ?_
    rintro _ v ⟨rfl, hv⟩
    have hrule : ruling P.config
        (r.progress.update { param := some (path (i + 1)) }).1.increment .notTerminated =
        if k ≤ i + 1 then .maxIters else .notTerminated := by
      show (if (r.progress.maxIters : ℤ) ≤ ((r.progress.iter + 1 : ℕ) : ℤ) then Reason.maxIters
        else if Scalar.le r.progress.cost P.config.targetCost then .targetCost
        else .notTerminated) = _
      rw [hr.maxIters, hr.iter, hcost, htarget, if_neg Bool.false_ne_true]
      exact if_congr Nat.cast_le rfl rfl
    refine ⟨hv, rfl, ?_, hcost, congrArg (· + 1) hr.iter, hr.maxIters, fun hlt => ?_, fun _ hle => ?_⟩
    · intro j hj
      obtain rfl : i = j := Nat.succ.inj hj
      exact hr.param
    · exact hrule.trans (if_neg (by omega))
    · exact hrule.trans (if_pos hle)

/-- **All iterations up to the cap** follow the path. -/
theorem goes (h : Steers P s path) (hO : P.observer.Quiet R) (hnumber : Scalar.isNaN cost = false)
    (htarget : Scalar.le cost P.config.targetCost = false)
    (hr : OnPath s path k cost 0 r.progress r.solver) (hws : Watches.Attentive R r.observers)
    (hcalm : Unasked P r) (hi : i ≤ k) :
    Goes P r i ∧ OnPath s path k cost i (stateAfter P r i).progress (stateAfter P r i).solver ∧
      Watches.Attentive R (stateAfter P r i).observers := by
  -- The step lemma gives the next state on the path; no interrupt and no target keep the run going.
  induction i with
  | zero =>
    obtain ⟨hprogress, hsolver, -⟩ := begun_course P r
    have hobservers := (begun_surroundings P r).2
    have hbegun : OnPath s path k cost 0 (begun P r).progress (begun P r).solver := by
      rw [hprogress, hsolver]
      exact hr
    obtain ⟨⟨⟩, t, hopen, ht⟩ := (h.ends_opening hO hbegun (hobservers ▸ hws)).exists_ok
    have hstate : stateAfter P r 0 = t := congrArg Prod.snd hopen
    rw [hstate]
    exact ⟨.zero (by rw [hopen]; rfl), ht⟩
  | succ i ih =>
    obtain ⟨hgoes, honPath, hwatches⟩ := ih (by omega)
    obtain ⟨⟨⟩, t, hiterate, ht⟩ :=
      (h.ends_iterate hO hnumber htarget honPath hwatches (.inr hi)).exists_ok
    have hstate : stateAfter P r (i + 1) = t := congrArg Prod.snd hiterate
    rw [hstate]
    exact ⟨hgoes.next (honPath.running (.inr hi)) (hcalm i hgoes) (by rw [hiterate]; rfl), ht⟩

/-- **A whole run** ends at its cap, at the point of the path with that number. -/
theorem execute_eq (h : Steers P s path) (hO : P.observer.Quiet R)
    (hnumber : Scalar.isNaN cost = false) (htarget : Scalar.le cost P.config.targetCost = false)
    (hr : OnPath s path k cost 0 r.progress r.solver) (hws : Watches.Attentive R r.observers)
    (hcalm : Unasked P r) :
    ∃ final, (execute P).exec r = (.ok (), final) ∧ final.progress.iter = k ∧
      final.progress.reason = .maxIters ∧ final.progress.param = path k ∧
      ∀ j, k = j + 1 → final.progress.prevParam = path j := by
  obtain ⟨hgoes, honPath, -⟩ := h.goes hO hnumber htarget hr hws hcalm (le_refl k)
  obtain rfl | hpos := Nat.eq_zero_or_pos k
  · -- Without iterations the run stops right after its start.
    have hbody := hgoes.body_of_barred hr.maxIters
    rw [exec_stop (honPath.running (.inl rfl))] at hbody
    refine ⟨_, (execute_ok_iff P).2 ⟨_, hbody, rfl⟩, ?_⟩
    rw [finished_progress]
    exact ⟨honPath.iter, rfl, honPath.param, nofun⟩
  · have hstopped := honPath.full hpos (le_refl k)
    have hcap : ¬ r.progress.maxIters = 0 := by
      rw [hr.maxIters]
      omega
    refine ⟨_, hgoes.execute_eq hcap (by rw [hstopped]; decide), ?_⟩
    rw [finished_progress]
    exact ⟨honPath.iter, hstopped, honPath.param, honPath.prevParam⟩

end Steers

end Minimization.Run
