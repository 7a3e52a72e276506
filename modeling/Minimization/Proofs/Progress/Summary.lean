import Mathlib.Data.List.Induction
import Minimization.Proofs.Progress.Merge
import Minimization.Proofs.Scalar.Double
import Minimization.Run.Basic

namespace Minimization

/-!
# Progress as a summary of what was reported

The progress of a run is a fold over a log of merged reports and counted iterations.  This file says
what the fold computes, in terms of the log alone.

* `Event`, `Chronicle` — what can happen to the progress, and a log of it; `Progress.after` reads
  it.
* `Latest` — a field holds the last value that was reported for it, its companion the one before.
* `Mark`, `Lowest`, `Standing` — the best cost: the merge that set it, and the best cost before
  that.
* `Chronicle.Summary` — the whole progress in terms of the log; `Run.seeded_summary` proves it of
  every log, by induction from its end.

A cost that is not a number never counts, and neither does an infinite one: a cost must lie below
infinity to be the best.
-/

/-- What happens to the progress of a run. -/
inductive Event (α : Type) where
  /-- A report is merged. -/
  | report (r : Report α)
  /-- An iteration is counted. -/
  | increment

/-- What happened to the progress of a run, in order. -/
abbrev Chronicle (α : Type) := List (Event α)

variable {α β : Type}

/-- The part of the report, if the event merged one that holds it. -/
def Event.read (part : Report α → Option β) : Event α → Option β
  | .report r => part r
  | .increment => none

/-- Applies one event. -/
def Event.apply [Scalar α] (p : Progress α) : Event α → Progress α
  | .report r => (p.update r).1
  | .increment => p.increment

/-- The progress after a log of events. -/
def Progress.after [Scalar α] (p : Progress α) (log : Chronicle α) : Progress α :=
  log.foldl Event.apply p

/-- The last event is applied to what the others have led to. -/
theorem Progress.after_concat [Scalar α] (p : Progress α) (log : Chronicle α) (e : Event α) :
    p.after (log ++ [e]) = e.apply (p.after log) := by
  simp [Progress.after]

namespace Chronicle

/-- The values that a log reports for one part, in order. -/
def values (part : Report α → Option β) (log : Chronicle α) : List β :=
  log.filterMap (Event.read part)

/-- The costs that a log reports. -/
def costs (log : Chronicle α) : List α := log.values (·.cost)

/-- The point that is current after a log. -/
def point (x : Tensor α) (log : Chronicle α) : Tensor α := (log.values (·.param)).getLastD x

/-- The iterations that a log counts. -/
def increments (log : Chronicle α) : Nat :=
  log.countP fun | .increment => true | .report _ => false

/-- A log and another one report their values in turn. -/
theorem values_append (part : Report α → Option β) (log more : Chronicle α) :
    values part (log ++ more) = log.values part ++ more.values part := by
  simp [values]

/-- One more event reports one value at most. -/
@[simp] theorem values_concat (part : Report α → Option β) (log : Chronicle α) (e : Event α) :
    values part (log ++ [e]) = log.values part ++ (e.read part).toList := by
  rw [values_append]
  cases h : e.read part <;> simp [values, h]

/-- It reports one cost at most. -/
theorem costs_concat (log : Chronicle α) (e : Event α) :
    costs (log ++ [e]) = log.costs ++ (e.read (·.cost)).toList :=
  values_concat _ log e

/-- A report counts no iteration. -/
@[simp] theorem increments_concat_report (log : Chronicle α) (r : Report α) :
    increments (log ++ [.report r]) = log.increments := by
  simp [increments]

/-- An increment counts one. -/
@[simp] theorem increments_concat_increment (log : Chronicle α) :
    increments (log ++ [.increment]) = log.increments + 1 := by
  simp [increments]

end Chronicle

/-! ### Current and previous values -/

/-- A field that starts as `x` holds the last of the values reported for it, and its companion holds
    what the field was just before that report. -/
structure Latest (x : β) (values : List β) (now previous : β) : Prop where
  now : now = values.getLastD x
  previous : previous = values.dropLast.getLastD x

/-- Before any report a field and its companion are the same. -/
theorem Latest.start (x : β) : Latest x [] x x := ⟨rfl, rfl⟩

/-- A report sets the field if it holds a value for it. -/
theorem Latest.merge {x now previous : β} {values : List β} (h : Latest x values now previous)
    (value : Option β) : Latest x (values ++ value.toList) (value.getD now)
      (if value.isSome then now else previous) := by
  cases value with
  | none => simpa using h
  | some v => exact ⟨by simp, by simpa using h.now⟩

/-! ### The best cost -/

/-- A best point: where, its cost, and how many iterations were complete. -/
structure Mark (α : Type) where
  param : Tensor α
  cost : α
  iter : Nat

/-- Where every run starts: no cost is known. -/
def Mark.start [Scalar α] (x : Tensor α) : Mark α := ⟨x, Scalar.infinity, 0⟩

/-- The merge of `r` between `before` and `later` set the best cost `c`: it lies below infinity and
    below every number before, and no number later is below it. -/
structure Lowest [Scalar α] (before : Chronicle α) (r : Report α) (later : Chronicle α) (c : α) :
    Prop where
  cost : r.cost = some c
  lt_infinity : Scalar.lt c Scalar.infinity = true
  lt_before : ∀ d ∈ before.costs, Scalar.isNaN d = false → Scalar.lt c d = true
  le_later : ∀ d ∈ later.costs, Scalar.isNaN d = false → Scalar.le c d = true

/-- The best mark of a log that starts at `x`, and the one that was the best before it.  Without a
    cost below infinity both are the start. -/
inductive Standing [Scalar α] (x : Tensor α) : Chronicle α → Mark α → Mark α → Prop
  | start {log : Chronicle α} (h : ∀ c ∈ log.costs, Scalar.lt c Scalar.infinity = false) :
      Standing x log (.start x) (.start x)
  | record {before : Chronicle α} {r : Report α} {later : Chronicle α} {c : α}
      {previous earlier : Mark α} (h : Lowest before r later c)
      (hprevious : Standing x before previous earlier) :
      Standing x (before ++ .report r :: later)
        ⟨Chronicle.point x (before ++ [.report r]), c, before.increments⟩ previous

namespace Standing

variable [Scalar α] {x : Tensor α} {log : Chronicle α} {best previous : Mark α}

/-- An event without a cost changes no standing. -/
theorem keep (h : Standing x log best previous) {e : Event α} (he : e.read (·.cost) = none) :
    Standing x (log ++ [e]) best previous := by
  -- An event without a cost leaves the list of costs as it is.
  cases h with
  | start h =>
    refine .start fun c hc => h c ?_
    simpa [Chronicle.costs_concat, he] using hc
  | @record before r later c _ _ h hprevious =>
    have hlater : Chronicle.costs (later ++ [e]) = later.costs := by
      simp [Chronicle.costs_concat, he]
    rw [List.append_assoc, List.cons_append]
    exact .record ⟨h.cost, h.lt_infinity, h.lt_before, hlater ▸ h.le_later⟩ hprevious

variable [Scalar.Ordered α]

/-- The best cost is a number. -/
theorem isNaN_cost (h : Standing x log best previous) : Scalar.isNaN best.cost = false := by
  cases h with
  | start => exact Scalar.Ordered.isNaN_infinity
  | record h _ => exact (Scalar.Ordered.isNaN_of_lt h.lt_infinity).1

/-- A cost that is not below the best one changes no standing. -/
theorem miss (h : Standing x log best previous) {r : Report α} {c : α} (hr : r.cost = some c)
    (hc : Scalar.lt c best.cost = false) : Standing x (log ++ [.report r]) best previous := by
  have hcosts (l : Chronicle α) : Chronicle.costs (l ++ [.report r]) = l.costs ++ [c] := by
    simp [Chronicle.costs_concat, Event.read, hr]
  have hnumber := h.isNaN_cost
  -- Without a record there is nothing to beat but infinity; with one, the new cost joins those after it.
  cases h with
  | start h =>
    refine .start fun d hd => ?_
    rw [hcosts, List.mem_append, List.mem_singleton] at hd
    rcases hd with hd | rfl
    · exact h d hd
    · exact hc
  | @record before r' later c' _ _ h hprevious =>
    rw [List.append_assoc, List.cons_append]
    refine .record ⟨h.cost, h.lt_infinity, h.lt_before, fun d hd hdn => ?_⟩ hprevious
    rw [hcosts, List.mem_append, List.mem_singleton] at hd
    rcases hd with hd | rfl
    · exact h.le_later d hd hdn
    · exact Scalar.Ordered.le_iff.2 ⟨hnumber, hdn, hc⟩

end Standing

/-! ### The summary -/

/-- **What a log amounts to.**  The progress of a run that starts at `x` with the given seeds, in
    terms of what was reported since. -/
structure Chronicle.Summary [Scalar α] (x : Tensor α) (maxIters : Int) (cost? : Option α)
    (gradient? hessian? : Option (Tensor α)) (log : Chronicle α) (p : Progress α) : Prop where
  param : Latest x (log.values (·.param)) p.param p.prevParam
  cost : Latest Scalar.infinity (cost?.toList ++ log.costs) p.cost p.prevCost
  gradient : Latest none ((gradient?.map some).toList ++ log.values (·.gradient.map some))
    p.gradient p.prevGradient
  hessian : Latest none ((hessian?.map some).toList ++ log.values (·.hessian.map some))
    p.hessian p.prevHessian
  iter : p.iter = log.increments
  maxIters : p.maxIters = maxIters
  reason : p.reason = .notTerminated
  /-- The best cost is the minimum of infinity and all numbers among the costs: a lower bound … -/
  bestCost_le_infinity : Scalar.le p.bestCost Scalar.infinity = true
  bestCost_le : ∀ c ∈ log.costs, Scalar.isNaN c = false → Scalar.le p.bestCost c = true
  /-- … which is one of them. -/
  bestCost_mem : p.bestCost = Scalar.infinity ∨ p.bestCost ∈ log.costs
  best : ∃ iter, Standing x log ⟨p.bestParam, p.bestCost, p.lastBestIter⟩
    ⟨p.prevBestParam, p.prevBestCost, iter⟩

namespace Chronicle.Summary

variable [Scalar α] {x : Tensor α} {maxIters : Int} {cost? : Option α}
  {gradient? hessian? : Option (Tensor α)} {log : Chronicle α} {p : Progress α}

/-- Counting an iteration. -/
theorem increment (h : Summary x maxIters cost? gradient? hessian? log p) :
    Summary x maxIters cost? gradient? hessian? (log ++ [.increment]) p.increment where
  param := by simpa [Event.read, ProgressOn.increment] using h.param
  cost := by simpa [costs_concat, Event.read, ProgressOn.increment] using h.cost
  gradient := by simpa [Event.read, ProgressOn.increment] using h.gradient
  hessian := by simpa [Event.read, ProgressOn.increment] using h.hessian
  iter := by simp [h.iter]
  maxIters := h.maxIters
  reason := h.reason
  bestCost_le_infinity := h.bestCost_le_infinity
  bestCost_le := by simpa [costs_concat, Event.read, ProgressOn.increment] using h.bestCost_le
  bestCost_mem := by simpa [costs_concat, Event.read, ProgressOn.increment] using h.bestCost_mem
  best := by
    obtain ⟨iter, hbest⟩ := h.best
    exact ⟨iter, hbest.keep rfl⟩

variable [Scalar.Ordered α]

/-- A cost is below the best one if it is below infinity and below every number before. -/
theorem lt_bestCost_iff (h : Summary x maxIters cost? gradient? hessian? log p) (c : α) :
    Scalar.lt c p.bestCost = true ↔ Scalar.lt c Scalar.infinity = true ∧
      ∀ d ∈ log.costs, Scalar.isNaN d = false → Scalar.lt c d = true := by
  constructor
  · intro hc
    exact ⟨Scalar.Ordered.lt_of_lt_of_le hc h.bestCost_le_infinity,
      fun d hd hdn => Scalar.Ordered.lt_of_lt_of_le hc (h.bestCost_le d hd hdn)⟩
  · rintro ⟨hinf, hlt⟩
    rcases h.bestCost_mem with hbest | hbest
    · rw [hbest]
      exact hinf
    · exact hlt _ hbest (Scalar.Ordered.le_iff.1 h.bestCost_le_infinity).1

/-- **A report sets a new best** if its cost lies below infinity and below every number before. -/
theorem update_iff (h : Summary x maxIters cost? gradient? hessian? log p) (r : Report α) :
    (p.update r).2 = true ↔ ∃ c, r.cost = some c ∧ Scalar.lt c Scalar.infinity = true ∧
      ∀ d ∈ log.costs, Scalar.isNaN d = false → Scalar.lt c d = true := by
  rcases ProgressOn.update_cases p r with ⟨c, hr, hc, heq⟩ | ⟨hnot, heq⟩
  · have hlowest := (h.lt_bestCost_iff c).1 hc
    exact ⟨fun _ => ⟨c, hr, hlowest⟩, fun _ => by rw [heq]⟩
  · rw [heq]
    constructor
    · intro h
      simp at h
    · rintro ⟨c, hr, hlowest⟩
      have hc := (h.lt_bestCost_iff c).2 hlowest
      rw [hnot c hr] at hc
      simp at hc

/-- Merging a report that sets a new best. -/
theorem promote (h : Summary x maxIters cost? gradient? hessian? log p) {r : Report α} {c : α}
    (hr : r.cost = some c) (hc : Scalar.lt c p.bestCost = true) :
    Summary x maxIters cost? gradient? hessian? (log ++ [.report r]) (p.merge r).promote := by
  obtain ⟨hinf, hlt⟩ := (h.lt_bestCost_iff c).1 hc
  -- The log gains one cost, which is lower than all the others.
  have hcosts : Chronicle.costs (log ++ [.report r]) = log.costs ++ [c] := by
    simp [costs_concat, Event.read, hr]
  have hcost : (p.merge r).cost = c := by simp [ProgressOn.merge_eq, hr]
  have hpoint : (p.merge r).param = point x (log ++ [.report r]) := by
    have := (h.param.merge r.param).now
    simpa [ProgressOn.merge_eq, point, Event.read] using this
  refine ⟨?_, ?_, ?_, ?_, ?_, ?_, ?_, ?_, ?_, ?_, ?_⟩
  · simpa [ProgressOn.promote, ProgressOn.merge_eq, Event.read] using h.param.merge r.param
  · simpa [ProgressOn.promote, ProgressOn.merge_eq, Event.read, costs_concat] using
      h.cost.merge r.cost
  · simpa [ProgressOn.promote, ProgressOn.merge_eq, Event.read] using
      h.gradient.merge (r.gradient.map some)
  · simpa [ProgressOn.promote, ProgressOn.merge_eq, Event.read] using
      h.hessian.merge (r.hessian.map some)
  · simpa [ProgressOn.promote] using h.iter
  · simpa [ProgressOn.promote] using h.maxIters
  · simpa [ProgressOn.promote] using h.reason
  -- The last fields are the ones that a record moves.
  · show Scalar.le (p.merge r).cost Scalar.infinity = true
    rw [hcost]
    exact Scalar.Ordered.le_of_lt hinf
  · show ∀ d ∈ _, _ → Scalar.le (p.merge r).cost d = true
    intro d hd hdn
    rw [hcosts, List.mem_append, List.mem_singleton] at hd
    rw [hcost]
    rcases hd with hd | rfl
    · exact Scalar.Ordered.le_of_lt (hlt d hd hdn)
    · exact Scalar.Ordered.le_refl hdn
  · right
    show (p.merge r).cost ∈ _
    rw [hcosts, hcost]
    simp
  · obtain ⟨iter, hbest⟩ := h.best
    refine ⟨p.lastBestIter, ?_⟩
    have hlowest : Lowest log r [] c := ⟨hr, hinf, hlt, by simp [costs, values]⟩
    show Standing x _ ⟨(p.merge r).param, (p.merge r).cost, (p.merge r).iter⟩
      ⟨(p.merge r).bestParam, (p.merge r).bestCost, p.lastBestIter⟩
    have hkept : (p.merge r).bestParam = p.bestParam ∧ (p.merge r).bestCost = p.bestCost := by
      simp [ProgressOn.merge_eq]
    rw [hkept.1, hkept.2, hcost, hpoint, ProgressOn.iter_merge, h.iter]
    exact .record hlowest hbest

/-- Merging a report that sets no new best. -/
theorem merge (h : Summary x maxIters cost? gradient? hessian? log p) {r : Report α}
    (hr : ∀ c, r.cost = some c → Scalar.lt c p.bestCost = false) :
    Summary x maxIters cost? gradient? hessian? (log ++ [.report r]) (p.merge r) := by
  -- The new report beats nothing, so the record stands: only what is merged changes.
  obtain ⟨iter, hbest⟩ := h.best
  have hkept : (p.merge r).bestCost = p.bestCost := by simp [ProgressOn.merge_eq]
  refine ⟨?_, ?_, ?_, ?_, ?_, ?_, ?_, ?_, ?_, ?_, ?_⟩
  · simpa [ProgressOn.merge_eq, Event.read] using h.param.merge r.param
  · simpa [ProgressOn.merge_eq, Event.read, costs_concat] using h.cost.merge r.cost
  · simpa [ProgressOn.merge_eq, Event.read] using h.gradient.merge (r.gradient.map some)
  · simpa [ProgressOn.merge_eq, Event.read] using h.hessian.merge (r.hessian.map some)
  · simpa using h.iter
  · simpa using h.maxIters
  · simpa using h.reason
  · rw [hkept]
    exact h.bestCost_le_infinity
  · intro d hd hdn
    rw [hkept]
    rw [costs_concat, List.mem_append, Option.mem_toList] at hd
    rcases hd with hd | hd
    · exact h.bestCost_le d hd hdn
    · have hnumber := (Scalar.Ordered.le_iff.1 h.bestCost_le_infinity).1
      exact Scalar.Ordered.le_iff.2 ⟨hnumber, hdn, hr d hd⟩
  · rw [hkept, costs_concat, List.mem_append]
    rcases h.bestCost_mem with hmem | hmem
    · exact .inl hmem
    · exact .inr (.inl hmem)
  · refine ⟨iter, ?_⟩
    simp only [ProgressOn.merge_eq]
    cases hcost : r.cost with
    | none => exact hbest.keep hcost
    | some c => exact hbest.miss hcost (hr c hcost)

end Chronicle.Summary

section Seeded

variable [Scalar α] [Scalar.Ordered α] (x : Tensor α) (maxIters : Int) (cost? : Option α)
  (gradient? hessian? : Option (Tensor α))

/-- A run that has seen nothing but its seeds. -/
theorem Chronicle.Summary.seeded : Chronicle.Summary x maxIters cost? gradient? hessian? []
    (Run.seeded x maxIters cost? gradient? hessian?) := by
  -- By cases on which fields are given, since the seed merges only those.
  refine ⟨?_, ?_, ?_, ?_, ?_, ?_, ?_, ?_, ?_, ?_, 0, ?_⟩
  · cases cost? <;> cases gradient? <;> cases hessian? <;> exact .start x
  · cases cost? <;> cases gradient? <;> cases hessian? <;> exact ⟨rfl, rfl⟩
  · cases cost? <;> cases gradient? <;> cases hessian? <;> exact ⟨rfl, rfl⟩
  · cases cost? <;> cases gradient? <;> cases hessian? <;> exact ⟨rfl, rfl⟩
  · cases cost? <;> cases gradient? <;> cases hessian? <;> rfl
  · cases cost? <;> cases gradient? <;> cases hessian? <;> rfl
  · cases cost? <;> cases gradient? <;> cases hessian? <;> rfl
  · cases cost? <;> cases gradient? <;> cases hessian? <;>
      exact Scalar.Ordered.le_refl Scalar.Ordered.isNaN_infinity
  · simp [costs, values]
  · left
    cases cost? <;> cases gradient? <;> cases hessian? <;> rfl
  · have h : Standing x [] (.start x) (.start x) := .start (by simp [costs, values])
    cases cost? <;> cases gradient? <;> cases hessian? <;> exact h

/-- A run that has seen its seeds and a log. -/
theorem Chronicle.Summary.after (log : Chronicle α) :
    Chronicle.Summary x maxIters cost? gradient? hessian? log
      ((Run.seeded x maxIters cost? gradient? hessian?).after log) := by
  -- The field values refer to the end of the log, so the induction takes events off its end.
  induction log using List.reverseRecOn with
  | nil => exact .seeded x maxIters cost? gradient? hessian?
  | append_singleton log e ih =>
    rw [Progress.after_concat]
    cases e with
    | increment => exact ih.increment
    | report r =>
      show Chronicle.Summary _ _ _ _ _ _ (ProgressOn.update _ r).1
      rcases ProgressOn.update_cases (Progress.after _ log) r with ⟨c, hr, hc, heq⟩ | ⟨hnot, heq⟩
      · rw [heq]
        exact ih.promote hr hc
      · rw [heq]
        exact ih.merge hnot

/-- **Progress is the summary of what was reported.**  Every field is what the log amounts to, and
    merging another report announces a new best exactly if its cost lies below infinity and below
    all numbers that were reported as costs before. -/
theorem Run.seeded_summary (log : Chronicle α) :
    Chronicle.Summary x maxIters cost? gradient? hessian? log
        ((Run.seeded x maxIters cost? gradient? hessian?).after log) ∧
      ∀ r : Report α, (((Run.seeded x maxIters cost? gradient? hessian?).after log).update r).2 =
        true ↔ ∃ c, r.cost = some c ∧ Scalar.lt c Scalar.infinity = true ∧
          ∀ d ∈ log.costs, Scalar.isNaN d = false → Scalar.lt c d = true := by
  have hsummary := Chronicle.Summary.after x maxIters cost? gradient? hessian? log
  exact ⟨hsummary, hsummary.update_iff⟩

end Seeded

/-- A point and its cost. -/
def costing (x c : Double) : Report Double := { param := some (.vector .array [x]), cost := some c }

/-- A cost, an iteration, and a cost that is not a number. -/
def Chronicle.stuck : Chronicle Double :=
  [.report (costing 1.0 2.0), .increment, .report (costing 2.0 Scalar.notANumber)]

/-- A cost below the only number reported before is a new best. -/
theorem Run.seeded_summary_stuck :
    Scalar.Ordered Double ∧
      Chronicle.Summary (.vector .array [0.0]) 5 none none none Chronicle.stuck
        ((Run.seeded (.vector .array [0.0]) 5 none none none).after Chronicle.stuck) ∧
      (((Run.seeded (.vector .array [0.0]) 5 none none none).after Chronicle.stuck).update
        (costing 3.0 1.0)).2 = true := by
  obtain ⟨hsummary, hnew⟩ :=
    Run.seeded_summary (α := Double) (.vector .array [0.0]) 5 none none none Chronicle.stuck
  refine ⟨inferInstance, hsummary, (hnew _).2 ⟨1.0, rfl, by decide +kernel, ?_⟩⟩
  show ∀ d ∈ [(2.0 : Double), Scalar.notANumber], Scalar.isNaN d = false → Scalar.lt 1.0 d = true
  decide +kernel

/-- An infinite cost is never the best one, not even where no other cost is reported: the start
    stays the best point, although the merge attained the minimum of all costs. -/
theorem Run.bestParam_of_infinite_cost : ¬ ∀ (x : Tensor Double) (before later : Chronicle Double)
    (r : Report Double) (c : Double), r.cost = some c →
    Scalar.eq c ((Run.seeded x 5 none none none).after
      (before ++ .report r :: later)).bestCost = true →
    (∀ d ∈ before.costs, Scalar.eq d c = false) →
    ((Run.seeded x 5 none none none).after (before ++ .report r :: later)).bestParam =
      Chronicle.point x (before ++ [.report r]) := by
  intro h
  have hone := h (.vector .array [0.0]) [] [] (costing 1.0 Scalar.infinity) Scalar.infinity rfl
    (by decide +kernel) (by simp [Chronicle.costs, Chronicle.values])
  -- The points differ in their only entry, which lies on either side of one half.
  have hentries := congrArg (fun t => t.entries.map (Scalar.lt 0.5)) hone
  revert hentries
  decide +kernel

end Minimization
