import Minimization.Problem.Sphere
import Minimization.Proofs.Counts.Pool
import Minimization.Proofs.Scalar.Exact

namespace Minimization

/-!
# Wrappers around one operator

What happens to wrappers in the course of time keeps the sum of their counts equal to the number of
calls of the operator, but for counts that a used-up wrapper takes over: nobody can take them over
from it again.

* `Pool.Operation` — what can be done with the wrappers around one operator.
* `Pool.spilled` — what an operation takes out of the sum.
* `Pool.Balanced`, `Pool.balanced` — an operation is right about calls, counts and what is spilled.
* `Pool.history` — so is any number of operations.
* `Pool.lost_eq_zero_iff` — nothing is lost if and only if nothing is ever spilled.

So the sum is right all the time if and only if nothing is spilled.
-/

namespace Pool

variable {ω α : Type}

/-- What can be done with the wrappers around one operator.  Names are given to new wrappers only. -/
inductive Operation (α : Type) where
  /-- Wraps the operator. -/
  | wrap (name : String)
  /-- Wraps a wrapper. -/
  | rewrap (other : String)
  /-- Wraps the operator of another wrapper. -/
  | renew (name other : String)
  | evaluate (name : String) (capability : Capability) (x : Tensor α)
  | consume (name other : String)

namespace Operation

/-- The operation. -/
def act : Operation α → Action (Pool ω α) α Unit
  | .wrap name => adopt name 0
  | .rewrap other => Pool.rewrap other
  | .renew name other => Pool.renew name other
  | .evaluate name capability x => discard (Pool.evaluate name capability x)
  | .consume name other => Pool.consume name other

/-- The name of a new wrapper. -/
def created : Operation α → Option String
  | .wrap name => some name
  | .renew name _ => some name
  | _ => none

end Operation

/-- The counts that a used-up wrapper takes over. -/
def spilled (p : Pool ω α) : Operation α → Counts
  | .consume name other =>
    match p.lookup name, p.lookup other with
    | some ⟨none, _⟩, some ⟨some _, c⟩ => c
    | _, _ => .zero
  | _ => .zero

/-- A pool around one operator. -/
structure Around (op : Operator ω α) (p : Pool ω α) : Prop where
  operators : ∃ memory, p.operators = [(op, memory)]
  names : p.names.Nodup
  inner : ∀ e ∈ p.wrappers, ∀ position, e.2.inner = some position → position = 0

/-! ### One operation -/

section Step

variable {op : Operator ω α} {p : Pool ω α}

/-- Another wrapper around the one operator may be put into the pool. -/
theorem Around.put (hp : Around op p) {name : String} {w : Wrapper}
    (hw : ∀ position, w.inner = some position → position = 0) : Around op (put name w p) where
  operators := by
    rw [operators_put]
    exact hp.operators
  names := nodup_names_put hp.names
  inner := by
    intro e he
    obtain rfl | he := mem_wrappers_put he
    · exact hw
    · exact hp.inner e he

/-- Whatever is wrapped is this operator. -/
theorem Around.position_eq (hp : Around op p) {name : String} {position : Nat} {c : Counts}
    (h : p.lookup name = some ⟨some position, c⟩) : position = 0 :=
  hp.inner _ (mem_of_lookup h) position rfl

/-- An operation, done to a pool and to the pool with a record. -/
structure Balanced (op : Operator ω α) (p : Pool ω α) (o : Operation α) (record calls : Counts)
    (x : Except (Failure α) Unit × Pool ω α) (y : Except (Failure α) Unit × Pool (ω × Counts) α) :
    Prop where
  /-- The record does not matter, and the calls are on it. -/
  outcome : y = (x.1, x.2.recorded (record + calls))
  around : Around op x.2
  names : ∀ n ∈ x.2.names, n ∈ p.names ∨ o.created = some n
  /-- Calls are counted, and counts are held or spilled. -/
  sum : ∀ k, p.counted k + calls.get k = x.2.counted k + (p.spilled o).get k
  /-- Wrappers stay as they are if the operation fails, but not if the operator does. -/
  failed : ∀ e, x.1 = .error e → x.2.wrappers = p.wrappers ∨ ∃ name k a memory,
    p.operators = [(op, memory)] ∧ o = .evaluate name k a ∧
      ((op.answer k a).exec ⟨memory, .unguarded⟩).1 = .error e

/-- A refused operation changes nothing. -/
theorem Balanced.refused (hp : Around op p) {o : Operation α} (ho : p.spilled o = .zero)
    (record : Counts) (e : Failure α) :
    Balanced op p o record .zero (.error e, p) (.error e, p.recorded record) where
  outcome := by rw [Counts.add_zero]
  around := hp
  names n hn := .inl hn
  sum k := by rw [ho]
  failed _ _ := .inl rfl

/-- A new wrapper holds nothing. -/
theorem Balanced.fresh (hp : Around op p) {o : Operation α} (ho : p.spilled o = .zero)
    {name : String} (hname : o.created = some name) (hnew : name ∉ p.names) (record : Counts) :
    Balanced op p o record .zero (.ok (), put name (.fresh 0) p)
      (.ok (), put name (.fresh 0) (p.recorded record)) where
  outcome := by rw [put_recorded, Counts.add_zero]
  around := hp.put fun position h => by
    cases h
    rfl
  names n hn := by
    obtain rfl | hn := mem_names_put.1 hn
    · exact .inr hname
    · exact .inl hn
  sum k := by
    rw [counted_put_of_not_mem hnew, ho]
    unfold Wrapper.fresh
    rw [Wrapper.held_some, Counts.get_zero]
  failed e he := by cases he

/-- A call goes up in the counts of the wrapper, and the operator acts on its memory. -/
theorem exec_call {memory : ω} (hop : p.operators = [(op, memory)]) {name : String} {c : Counts}
    (h : p.lookup name = some ⟨some 0, c⟩) (k : Capability) (x : Tensor α) :
    (Operation.evaluate name k x).act.exec p =
      (((op.answer k x).exec ⟨memory, .unguarded⟩).1.map fun _ => (),
        ⟨[(op, ((op.answer k x).exec ⟨memory, .unguarded⟩).2.memory)],
          (put name ⟨some 0, c.tick k⟩ p).wrappers⟩) := by
  have hat : (put name ⟨some 0, c.tick k⟩ p).operators[0]? = some (op, memory) := by
    rw [operators_put, hop]
    rfl
  show Action.exec (discard (Pool.evaluate name k x)) p = _
  rw [Action.exec_discard, exec_evaluate, h]
  simp only [exec_onOperator hat]
  rw [operators_put, hop]
  rfl

/-- A call is counted before the operator receives it. -/
theorem Balanced.called (hp : Around op p) {name : String} {c : Counts}
    (h : p.lookup name = some ⟨some 0, c⟩) (k : Capability) (x : Tensor α) (record : Counts) :
    Balanced op p (.evaluate name k x) record (Counts.zero.tick k)
      ((Operation.evaluate name k x).act.exec p)
      ((Operation.evaluate name k x).act.exec (p.recorded record)) := by
  obtain ⟨memory, hop⟩ := hp.operators
  have hrecorded : (p.recorded record).operators = [(op.recording, (memory, record))] := by
    unfold recorded
    rw [hop]
    rfl
  have hput : Around op (put name ⟨some 0, c.tick k⟩ p) := hp.put fun position h => by
    cases h
    rfl
  have hname : (p.recorded record).lookup name = some ⟨some 0, c⟩ := h
  rw [exec_call hop h, exec_call hrecorded hname, Operator.exec_answer_recording, put_recorded,
    Counts.tick_eq_add record]
  exact {
    outcome := rfl
    around := ⟨⟨_, rfl⟩, hput.names, hput.inner⟩
    names := by
      intro n hn
      left
      obtain rfl | hn := mem_names_put.1 hn
      · exact mem_names_of_lookup h
      · exact hn
    sum := by
      intro l
      have hsum := counted_put hp.names h ⟨some 0, c.tick k⟩ l
      rw [Counts.tick_eq_add c, Wrapper.held_some, Wrapper.held_some, Counts.get_add] at hsum
      show p.counted l + _ = (put name ⟨some 0, c.tick k⟩ p).counted l + Counts.zero.get l
      rw [Counts.tick_eq_add c, Counts.get_zero]
      omega
    failed := by
      intro e he
      -- The wrapper was not refused, so it is the operator that has failed.
      refine .inr ⟨name, k, x, memory, hop, rfl, ?_⟩
      cases hcall : ((op.answer k x).exec ⟨memory, .unguarded⟩).1 with
      | ok y =>
        rw [hcall] at he
        cases he
      | error e' =>
        rw [hcall] at he
        cases he
        rfl }

/-- What one wrapper takes over from another one is held by it, unless it is used up. -/
theorem Balanced.consumed (hp : Around op p) {name other : String} (hne : name ≠ other)
    {w : Wrapper} (hw : p.lookup name = some w) {position : Nat} {c : Counts}
    (ho : p.lookup other = some ⟨some position, c⟩) (record : Counts) :
    Balanced op p (.consume name other) record .zero
      (.ok (), put other ⟨none, c⟩ (put name ⟨w.inner, w.counts + c⟩ p))
      (.ok (), put other ⟨none, c⟩ (put name ⟨w.inner, w.counts + c⟩ (p.recorded record))) where
  outcome := by rw [put_recorded, put_recorded, Counts.add_zero]
  around := by
    refine (hp.put fun position h => ?_).put fun position h => ?_
    · exact hp.inner _ (mem_of_lookup hw) position h
    · cases h
  names n hn := by
    left
    obtain rfl | hn := mem_names_put.1 hn
    · exact mem_names_of_lookup ho
    · obtain rfl | hn := mem_names_put.1 hn
      · exact mem_names_of_lookup hw
      · exact hn
  sum k := by
    have ho' : (put name ⟨w.inner, w.counts + c⟩ p).lookup other = some ⟨some position, c⟩ := by
      rw [lookup_put_of_ne hne.symm]
      exact ho
    -- The first write adds to the wrapper, the second one uses the other wrapper up.
    have hfirst := counted_put hp.names hw ⟨w.inner, w.counts + c⟩ k
    have hsecond := counted_put (nodup_names_put hp.names) ho' ⟨none, c⟩ k
    obtain ⟨_ | l, d⟩ := w
    · -- A used-up wrapper holds nothing before and after, so `c` is spilled.
      simp only [spilled, hw, ho, Wrapper.held_none, Wrapper.held_some, Counts.get_zero]
        at hfirst hsecond ⊢
      omega
    · simp only [spilled, hw, Wrapper.held_none, Wrapper.held_some, Counts.get_add,
        Counts.get_zero] at hfirst hsecond ⊢
      omega
  failed e he := by cases he

/-- A call of a wrapper that is used up, or of no wrapper, is refused. -/
theorem balanced_evaluate (hp : Around op p) (name : String) (k : Capability) (x : Tensor α)
    (record : Counts) : ∃ calls, Balanced op p (.evaluate name k x) record calls
      ((Operation.evaluate name k x).act.exec p)
      ((Operation.evaluate name k x).act.exec (p.recorded record)) := by
  rcases hw : p.lookup name with _ | ⟨_ | position, c⟩
  · refine ⟨.zero, ?_⟩
    unfold Operation.act
    rw [Action.exec_discard, Action.exec_discard, exec_evaluate, exec_evaluate, lookup_recorded, hw]
    exact .refused hp rfl record _
  · refine ⟨.zero, ?_⟩
    unfold Operation.act
    rw [Action.exec_discard, Action.exec_discard, exec_evaluate, exec_evaluate, lookup_recorded, hw]
    exact .refused hp rfl record _
  · obtain rfl := hp.position_eq hw
    exact ⟨_, .called hp hw k x record⟩

/-- A wrapper takes over counts unless one of the two is missing, both are the same, or the other
    one is used up. -/
theorem balanced_consume (hp : Around op p) (name other : String) (record : Counts) :
    Balanced op p (.consume name other) record .zero
      ((Operation.consume name other).act.exec p)
      ((Operation.consume name other).act.exec (p.recorded record)) := by
  unfold Operation.act
  rw [exec_consume, exec_consume, lookup_recorded, lookup_recorded]
  -- The cases of the source in its order: either name may be unknown, a wrapper may not consume itself,
  -- and the other one may have been consumed.
  rcases hw : p.lookup name with _ | w
  · exact .refused hp (by simp [spilled, hw]) record _
  rcases ho : p.lookup other with _ | ⟨inner, c⟩
  · exact .refused hp (by simp [spilled, ho]) record _
  by_cases hne : name = other
  · subst hne
    have hspilled : p.spilled (.consume name name : Operation α) = .zero := by
      cases inner with
      | none => simp [spilled, ho]
      | some position => simp [spilled, ho]
    simp only [↓reduceIte]
    exact .refused hp hspilled record _
  · simp only [hne, ↓reduceIte]
    cases inner with
    | none => exact .refused hp (by simp [spilled, ho]) record _
    | some position => exact .consumed hp hne hw ho record

/-- **An operation is right about calls and counts.** -/
theorem balanced (hp : Around op p) (o : Operation α)
    (hnew : ∀ name, o.created = some name → name ∉ p.names) (record : Counts) :
    ∃ calls, Balanced op p o record calls (o.act.exec p) (o.act.exec (p.recorded record)) := by
  -- Only evaluations and consumption are more than a wrapper put in a place.
  cases o with
  | wrap name => exact ⟨.zero, .fresh hp rfl rfl (hnew name rfl) record⟩
  | rewrap other =>
    refine ⟨.zero, ?_⟩
    unfold Operation.act
    rw [exec_rewrap, exec_rewrap, lookup_recorded]
    cases p.lookup other with
    | none => exact .refused hp rfl record _
    | some o => exact .refused hp rfl record _
  | renew name other =>
    refine ⟨.zero, ?_⟩
    unfold Operation.act
    rw [exec_renew, exec_renew, lookup_recorded]
    rcases ho : p.lookup other with _ | ⟨_ | position, c⟩
    · exact .refused hp rfl record _
    · exact .refused hp rfl record _
    · rw [hp.position_eq ho]
      exact .fresh hp rfl rfl (hnew name rfl) record
  | evaluate name k x => exact balanced_evaluate hp name k x record
  | consume name other => exact ⟨.zero, balanced_consume hp name other record⟩

end Step

/-! ### Histories -/

/-- The pool after some operations. -/
def after (p : Pool ω α) (ops : List (Operation α)) : Pool ω α :=
  ops.foldl (fun p o => (o.act.exec p).2) p

/-- What some operations take out of the sum. -/
def lost (p : Pool ω α) : List (Operation α) → Counts
  | [] => .zero
  | o :: ops => p.spilled o + (o.act.exec p).2.lost ops

/-- An operator without wrappers. -/
def alone (op : Operator ω α) (memory : ω) : Pool ω α := ⟨[(op, memory)], []⟩

/-- An operator that nobody has wrapped. -/
theorem around_alone (op : Operator ω α) (memory : ω) : Around op (alone op memory) where
  operators := ⟨memory, rfl⟩
  names := List.nodup_nil
  inner := by
    intro e he
    cases he

/-- The operator of a recorded pool has received what has been recorded. -/
theorem received_recorded {op : Operator ω α} {p : Pool ω α} (hp : Around op p) (record : Counts)
    (k : Capability) : (p.recorded record).received k = record.get k := by
  obtain ⟨memory, hop⟩ := hp.operators
  unfold received Pool.recorded
  rw [hop]
  simp

/-- Names that are different are not given again. -/
theorem nodup_created_cons {o : Operation α} {ops : List (Operation α)}
    (h : ((o :: ops).filterMap Operation.created).Nodup) :
    (ops.filterMap Operation.created).Nodup ∧
      ∀ name ∈ ops.filterMap Operation.created, o.created ≠ some name := by
  rw [List.filterMap_cons] at h
  cases ho : o.created with
  | none =>
    rw [ho] at h
    exact ⟨h, fun name _ hname => by cases hname⟩
  | some n =>
    rw [ho] at h
    obtain ⟨hn, hops⟩ := List.nodup_cons.1 h
    refine ⟨hops, fun name hmem hname => ?_⟩
    cases hname
    exact hn hmem

/-- **Calls are counted, and counts are held or lost**, whatever is done with the wrappers. -/
theorem history {op : Operator ω α} {p : Pool ω α} (hp : Around op p) {ops : List (Operation α)}
    (hops : (ops.filterMap Operation.created).Nodup)
    (hnew : ∀ name ∈ ops.filterMap Operation.created, name ∉ p.names) (record : Counts) :
    ∃ calls, (p.recorded record).after ops = (p.after ops).recorded (record + calls) ∧
      Around op (p.after ops) ∧
      (∀ n ∈ (p.after ops).names, n ∈ p.names ∨ n ∈ ops.filterMap Operation.created) ∧
      ∀ k, p.counted k + calls.get k = (p.after ops).counted k + (p.lost ops).get k := by
  induction ops generalizing p record with
  | nil =>
    refine ⟨.zero, ?_, hp, fun n hn => .inl hn, fun k => rfl⟩
    rw [Counts.add_zero]
    rfl
  | cons o ops ih =>
    have hcreated : ∀ name, o.created = some name →
        name ∈ (o :: ops).filterMap Operation.created := fun name hname =>
      List.mem_filterMap.2 ⟨o, List.mem_cons_self .., hname⟩
    obtain ⟨calls, hfirst⟩ := balanced hp o (fun name hname => hnew name (hcreated name hname)) record
    have hrest := nodup_created_cons hops
    -- No later wrapper has the name of one that is there after the first operation.
    have hfresh : ∀ name ∈ ops.filterMap Operation.created, name ∉ (o.act.exec p).2.names := by
      intro name hname hmem
      obtain hmem | hmem := hfirst.names name hmem
      · obtain ⟨o', ho', hname⟩ := List.mem_filterMap.1 hname
        exact hnew name (List.mem_filterMap.2 ⟨o', List.mem_cons_of_mem _ ho', hname⟩) hmem
      · exact hrest.2 name hname hmem
    obtain ⟨more, hrun, haround, hnames, hsum⟩ :=
      ih hfirst.around hrest.1 hfresh (record + calls)
    refine ⟨calls + more, ?_, haround, fun n hn => ?_, fun k => ?_⟩
    · show ((o.act.exec (p.recorded record)).2).after ops = _
      rw [hfirst.outcome, hrun, Counts.add_assoc]
      rfl
    · obtain hn | hn := hnames n hn
      · obtain hn | hn := hfirst.names n hn
        · exact .inl hn
        · exact .inr (hcreated n hn)
      · obtain ⟨o', ho', hn⟩ := List.mem_filterMap.1 hn
        exact .inr (List.mem_filterMap.2 ⟨o', List.mem_cons_of_mem _ ho', hn⟩)
    · have hk := hfirst.sum k
      have hk' := hsum k
      show _ = ((o.act.exec p).2.after ops).counted k + (p.spilled o + (o.act.exec p).2.lost ops).get k
      rw [Counts.get_add, Counts.get_add]
      omega

/-- The same for an operator that has no wrapper yet. -/
theorem history_alone (op : Operator ω α) (memory : ω) {ops : List (Operation α)}
    (hops : (ops.filterMap Operation.created).Nodup) :
    ∃ calls, (alone op.recording (memory, .zero)).after ops =
        ((alone op memory).after ops).recorded calls ∧
      Around op ((alone op memory).after ops) ∧
      (∀ n ∈ ((alone op memory).after ops).names, n ∈ ops.filterMap Operation.created) ∧
      ∀ k, calls.get k =
        ((alone op memory).after ops).counted k + ((alone op memory).lost ops).get k := by
  obtain ⟨calls, hrun, haround, hnames, hsum⟩ :=
    history (around_alone op memory) hops (fun _ _ h => by cases h) .zero
  -- The pool has no wrappers at first, so there is nothing to add up.
  refine ⟨calls, ?_, haround, fun n hn => ?_, fun k => ?_⟩
  · rw [← Counts.zero_add calls]
    exact hrun
  · obtain hn | hn := hnames n hn
    · cases hn
    · exact hn
  · rw [← hsum k]
    exact (Nat.zero_add _).symm

/-- An operation that fails changes no wrapper, unless it is the operator that has failed. -/
theorem failed_of_history (op : Operator ω α) (memory : ω) {done : List (Operation α)}
    {o : Operation α} (hops : ((done ++ [o]).filterMap Operation.created).Nodup) {e : Failure α}
    (h : (o.act.exec ((alone op memory).after done)).1 = .error e) :
    ((alone op memory).after (done ++ [o])).wrappers = ((alone op memory).after done).wrappers ∨
      ∃ name k x memory', ((alone op memory).after done).operators = [(op, memory')] ∧
        o = .evaluate name k x ∧
          ((op.answer k x).exec ⟨memory', .unguarded⟩).1 = .error e := by
  rw [List.filterMap_append] at hops
  obtain ⟨hdone, -, hdiff⟩ := List.nodup_append.1 hops
  obtain ⟨_, -, haround, hnames, -⟩ := history_alone op memory hdone
  -- The last name is new, since no name is given twice.
  have hnew : ∀ name, o.created = some name → name ∉ ((alone op memory).after done).names := by
    intro name hname hmem
    have hlast : name ∈ [o].filterMap Operation.created := by
      rw [List.filterMap_cons, hname]
      exact List.mem_cons_self ..
    exact hdiff name (hnames name hmem) name hlast rfl
  obtain ⟨_, hstep⟩ := balanced haround o hnew .zero
  -- The last operation is carried out on what the others have left.
  have hafter : (alone op memory).after (done ++ [o]) =
      (o.act.exec ((alone op memory).after done)).2 := by
    unfold after
    rw [List.foldl_append]
    rfl
  rw [hafter]
  exact hstep.failed e h

/-- Nothing is lost if and only if no operation spills anything. -/
theorem lost_eq_zero_iff {p : Pool ω α} {ops : List (Operation α)} :
    p.lost ops = .zero ↔
      ∀ done o, done ++ [o] <+: ops → (p.after done).spilled o = .zero := by
  -- The induction is on the operations still to come, so the pool moves with it.
  induction ops generalizing p with
  | nil =>
    constructor
    · intro _ done o h
      simp at h
    · intro _
      rfl
  | cons o ops ih =>
    show p.spilled o + (o.act.exec p).2.lost ops = .zero ↔ _
    rw [Counts.add_eq_zero_iff, ih]
    constructor
    · rintro ⟨ho, hops⟩ done o' h
      cases done with
      | nil =>
        obtain ⟨heq, -⟩ := List.cons_prefix_cons.1 h
        rw [heq]
        exact ho
      | cons d done =>
        obtain ⟨heq, hrest⟩ := List.cons_prefix_cons.1 h
        subst heq
        exact hops done o' hrest
    · intro h
      refine ⟨h [] o ?_, fun done o' hdone => h (o :: done) o' ?_⟩
      · exact List.cons_prefix_cons.2 ⟨rfl, List.nil_prefix⟩
      · exact List.cons_prefix_cons.2 ⟨rfl, hdone⟩

/-- **The sum of the counts that are held is the number of calls, all the time, if and only if no
    used-up wrapper takes over a count.**  It is less by what is lost otherwise.  An operation that
    fails changes no wrapper, unless it is the operator that has failed: then the call counts.
    Different wrappers have different names. -/
theorem conserved_iff (op : Operator ω α) (memory : ω) (ops : List (Operation α))
    (hops : (ops.filterMap Operation.created).Nodup) :
    (((alone op.recording (memory, .zero)).after ops).wrappers =
        ((alone op memory).after ops).wrappers ∧
      ∀ k, ((alone op.recording (memory, .zero)).after ops).received k =
        ((alone op memory).after ops).counted k + ((alone op memory).lost ops).get k) ∧
    ((∀ done, done <+: ops → ∀ k, ((alone op.recording (memory, .zero)).after done).received k =
        ((alone op memory).after done).counted k) ↔
      ∀ done o, done ++ [o] <+: ops → ((alone op memory).after done).spilled o = .zero) ∧
    ∀ done o e, done ++ [o] <+: ops →
      (o.act.exec ((alone op memory).after done)).1 = .error e →
        ((alone op memory).after (done ++ [o])).wrappers = ((alone op memory).after done).wrappers ∨
        ∃ name k x memory', ((alone op memory).after done).operators = [(op, memory')] ∧
          o = .evaluate name k x ∧
            ((op.answer k x).exec ⟨memory', .unguarded⟩).1 = .error e := by
  have hnodup : ∀ done, done <+: ops → (done.filterMap Operation.created).Nodup :=
    fun done hdone => (hdone.filterMap _).sublist.nodup hops
  have hreceived : ∀ done, done <+: ops → ∀ k,
      ((alone op.recording (memory, .zero)).after done).received k =
        ((alone op memory).after done).counted k + ((alone op memory).lost done).get k := by
    intro done hdone k
    obtain ⟨calls, hrun, haround, -, hsum⟩ := history_alone op memory (hnodup done hdone)
    rw [hrun, received_recorded haround, hsum]
  refine ⟨⟨?_, hreceived ops (List.prefix_refl _)⟩, ?_, ?_⟩
  · obtain ⟨calls, hrun, -⟩ := history_alone op memory hops
    rw [hrun]
    rfl
  · rw [← lost_eq_zero_iff]
    constructor
    · intro h
      refine Counts.ext_get fun k => ?_
      have hk := h ops (List.prefix_refl _) k
      rw [hreceived ops (List.prefix_refl _)] at hk
      rw [Counts.get_zero]
      omega
    · intro h done hdone k
      have hlost : (alone op memory).lost done = .zero :=
        lost_eq_zero_iff.2 fun past o hpast => lost_eq_zero_iff.1 h past o (hpast.trans hdone)
      -- What is lost never comes back, so nothing is lost before the end either.
      rw [hreceived done hdone, hlost, Counts.get_zero, Nat.add_zero]
  · intro done o e hdone hfail
    exact failed_of_history op memory (hnodup _ hdone) hfail

/-- A wrapper takes over what another one has counted. -/
def merging : List (Operation (Exact ℚ)) :=
  [.wrap "a", .renew "b" "a", .evaluate "b" .cost (.vector .array [1.0]), .consume "a" "b",
    .consume "a" "b"]

/-- Two wrappers of one operator, of which one takes over the counts of the other. -/
theorem conserved_iff_merging : (merging.filterMap Operation.created).Nodup ∧
    ((alone sphereOperator.recording ((), .zero)).after merging).received .cost =
      ((alone sphereOperator ()).after merging).counted .cost +
        ((alone sphereOperator ()).lost merging).get .cost ∧
    ((alone sphereOperator ()).after merging).counted .cost = 1 := by
  have hnames : (merging.filterMap Operation.created).Nodup := by decide
  have hsum := (conserved_iff sphereOperator () merging hnames).1.2 .cost
  exact ⟨hnames, hsum, by decide +kernel⟩

/-- A used-up wrapper takes over what another one has counted. -/
def spilling : List (Operation (Exact ℚ)) :=
  [.wrap "a", .renew "b" "a", .consume "a" "b", .renew "c" "a",
    .evaluate "c" .cost (.vector .array [1.0]), .consume "b" "c"]

/-- **A call is lost.**  The last operation is not refused, although its wrapper is used up. -/
theorem not_conserved :
    ((alone sphereOperator.recording ((), .zero)).after spilling).received .cost = 1 ∧
    ((alone sphereOperator ()).after spilling).counted .cost = 0 ∧
    ((Operation.consume "b" "c").act.exec
      ((alone sphereOperator ()).after spilling.dropLast)).1.isOk = true := by
  decide +kernel

end Pool

end Minimization
