import Mathlib.Algebra.Ring.Nat
import Minimization.Operator.Wrapper
import Minimization.Proofs.Counts.Recording

namespace Minimization

/-!
# What the wrappers of a pool hold

A wrapper holds what it has counted until it is used up.  The sum over all wrappers of a pool
changes by what is written, and only there.

* `Pool.lookup` — the wrapper of a name, if there is one.
* `Wrapper.held`, `Pool.counted` — the counts of the wrappers that are not used up.
* `Pool.counted_put` — writing one wrapper changes the sum by that wrapper.
* `Pool.exec_consume` and the equations beside it — what the operations do.
* `Pool.recorded` — the pool in which every operator has the same record.
-/

/-- What a wrapper has counted, unless it is used up. -/
def Wrapper.held (w : Wrapper) (k : Capability) : Nat :=
  if w.inner.isSome then w.counts.get k else 0

/-- A wrapper around an operator holds its counts. -/
@[simp] theorem Wrapper.held_some (position : Nat) (c : Counts) (k : Capability) :
    (⟨some position, c⟩ : Wrapper).held k = c.get k := rfl

/-- A wrapper that has been consumed holds none. -/
@[simp] theorem Wrapper.held_none (c : Counts) (k : Capability) :
    (⟨none, c⟩ : Wrapper).held k = 0 := rfl

namespace Pool

variable {ω α β : Type}

/-- The wrapper of a name, if there is one. -/
def lookup (p : Pool ω α) (name : String) : Option Wrapper :=
  (p.wrappers.find? (·.1 == name)).map (·.2)

/-- The names of the wrappers. -/
def names (p : Pool ω α) : List String := p.wrappers.map (·.1)

/-- How often the wrappers that are not used up have counted a capability. -/
def counted (p : Pool ω α) (k : Capability) : Nat := (p.wrappers.map fun e => e.2.held k).sum

/-! ### Writing a wrapper -/

section Put

variable {name other : String} {w v : Wrapper} {ws : List (String × Wrapper)} {p : Pool ω α}

/-- A wrapper whose name is taken replaces the one of that name. -/
theorem wrappers_put_of_mem (h : name ∈ p.names) (w : Wrapper) :
    (put name w p).wrappers = p.wrappers.map fun (n, v) => (n, if n == name then w else v) := by
  have hany : p.wrappers.any (·.1 == name) = true := by
    obtain ⟨e, he, hname⟩ := List.mem_map.1 h
    exact List.any_eq_true.2 ⟨e, he, beq_iff_eq.2 hname⟩
  unfold put
  rw [if_pos hany]

/-- Any other one comes last. -/
theorem wrappers_put_of_not_mem (h : name ∉ p.names) (w : Wrapper) :
    (put name w p).wrappers = p.wrappers ++ [(name, w)] := by
  have hany : ¬ p.wrappers.any (·.1 == name) = true := by
    intro hany
    obtain ⟨e, he, hname⟩ := List.any_eq_true.1 hany
    exact h (List.mem_map.2 ⟨e, he, beq_iff_eq.1 hname⟩)
  unfold put
  rw [if_neg hany]

/-- The operators stay. -/
@[simp] theorem operators_put (name : String) (w : Wrapper) (p : Pool ω α) :
    (put name w p).operators = p.operators := by
  unfold put
  split <;> rfl

/-- A name that nobody has is not found. -/
theorem lookup_eq_none_iff : p.lookup name = none ↔ name ∉ p.names := by
  unfold lookup names
  rw [Option.map_eq_none_iff, List.find?_eq_none, List.mem_map]
  constructor
  · rintro h ⟨e, he, hname⟩
    exact h e he (beq_iff_eq.2 hname)
  · intro h e he hname
    exact h ⟨e, he, beq_iff_eq.1 hname⟩

/-- A name that is found is one of the names. -/
theorem mem_names_of_lookup (h : p.lookup name = some w) : name ∈ p.names := by
  by_cases hname : name ∈ p.names
  · exact hname
  · rw [lookup_eq_none_iff.2 hname] at h
    cases h

/-- A wrapper that is found is one of the wrappers. -/
theorem mem_of_lookup (h : p.lookup name = some w) : (name, w) ∈ p.wrappers := by
  obtain ⟨⟨n, v⟩, he, rfl⟩ := Option.map_eq_some_iff.1 h
  have hname := List.find?_some he
  simp only [beq_iff_eq] at hname
  subst hname
  exact List.mem_of_find?_eq_some he

/-- A wrapper that is there keeps its place. -/
theorem names_put_of_mem (h : name ∈ p.names) (w : Wrapper) : (put name w p).names = p.names := by
  unfold names
  rw [wrappers_put_of_mem h, List.map_map]
  rfl

/-- A new wrapper comes last. -/
theorem names_put_of_not_mem (h : name ∉ p.names) (w : Wrapper) :
    (put name w p).names = p.names ++ [name] := by
  unfold names
  rw [wrappers_put_of_not_mem h, List.map_append]
  rfl

/-- The names are those before and the new one. -/
theorem mem_names_put {n : String} : n ∈ (put name w p).names ↔ n = name ∨ n ∈ p.names := by
  by_cases h : name ∈ p.names
  · rw [names_put_of_mem h]
    constructor
    · exact .inr
    · rintro (rfl | hn)
      · exact h
      · exact hn
  · rw [names_put_of_not_mem h, List.mem_append, List.mem_singleton, or_comm]

/-- No name is there twice, because a new wrapper replaces the old one of its name. -/
theorem nodup_names_put (hp : p.names.Nodup) : (put name w p).names.Nodup := by
  by_cases h : name ∈ p.names
  · rw [names_put_of_mem h]
    exact hp
  · rw [names_put_of_not_mem h]
    refine List.nodup_append.2 ⟨hp, by simp, fun a ha b hb => ?_⟩
    rw [List.mem_singleton.1 hb]
    rintro rfl
    exact h ha

/-- To replace one wrapper does not change what is found under another name. -/
theorem find?_replace_of_ne (hne : other ≠ name) (w : Wrapper) (ws : List (String × Wrapper)) :
    ((ws.map fun (n, v) => (n, if n == name then w else v)).find? (·.1 == other)) =
      ws.find? (·.1 == other) := by
  induction ws with
  | nil => rfl
  | cons e ws ih =>
    obtain ⟨n, v⟩ := e
    by_cases hn : n = other
    · subst hn
      simp [hne]
    · rw [List.map_cons, List.find?_cons_of_neg (by simpa using hn),
        List.find?_cons_of_neg (by simpa using hn)]
      exact ih

/-- Other wrappers stay what they were. -/
theorem lookup_put_of_ne (hne : other ≠ name) (w : Wrapper) (p : Pool ω α) :
    (put name w p).lookup other = p.lookup other := by
  unfold lookup
  by_cases h : name ∈ p.names
  · rw [wrappers_put_of_mem h, find?_replace_of_ne hne]
  · have hlast : (name == other) = false := beq_eq_false_iff_ne.2 hne.symm
    rw [wrappers_put_of_not_mem h, List.find?_append, List.find?_singleton, hlast]
    simp

/-- What is in the pool afterwards was there before or is what was written. -/
theorem mem_wrappers_put {e : String × Wrapper} (h : e ∈ (put name w p).wrappers) :
    e = (name, w) ∨ e ∈ p.wrappers := by
  by_cases hname : name ∈ p.names
  · rw [wrappers_put_of_mem hname] at h
    obtain ⟨⟨n, v⟩, he, rfl⟩ := List.mem_map.1 h
    by_cases hn : n = name
    · left
      simp [hn]
    · right
      simpa [hn] using he
  · rw [wrappers_put_of_not_mem hname] at h
    simpa [or_comm] using h

/-- Where there is no wrapper of that name, nothing is replaced. -/
theorem replace_of_not_mem (h : name ∉ ws.map (·.1)) (w : Wrapper) :
    (ws.map fun (n, v) => (n, if n == name then w else v)) = ws := by
  refine (List.map_congr_left fun e he => ?_).trans (List.map_id ws)
  have hne : e.1 ≠ name := by
    rintro rfl
    exact h (List.mem_map_of_mem he)
  simp [hne]

/-- **What the wrappers hold altogether** changes by what the replaced one holds before and after. -/
theorem sum_replace (hws : (ws.map (·.1)).Nodup) (hv : ws.find? (·.1 == name) = some (name, v))
    (w : Wrapper) (k : Capability) :
    (((ws.map fun (n, v) => (n, if n == name then w else v))).map fun e => e.2.held k).sum +
      v.held k = (ws.map fun e => e.2.held k).sum + w.held k := by
  induction ws with
  | nil => cases hv
  | cons e ws ih =>
    obtain ⟨n, u⟩ := e
    rw [List.map_cons, List.nodup_cons] at hws
    by_cases hn : n = name
    · -- The wrapper stands here, and its name does not come back further on.
      subst hn
      have huv : u = v := by simpa using hv
      subst huv
      rw [List.map_cons, replace_of_not_mem hws.1]
      simp only [beq_self_eq_true, ↓reduceIte, List.map_cons, List.sum_cons]
      omega
    · rw [List.find?_cons_of_neg (by simpa using hn)] at hv
      have hrest := ih hws.2 hv
      simp only [List.map_cons, List.sum_cons, beq_iff_eq, hn, ↓reduceIte] at hrest ⊢
      omega

/-- A new wrapper adds what it holds. -/
theorem counted_put_of_not_mem (h : name ∉ p.names) (w : Wrapper) (k : Capability) :
    (put name w p).counted k = p.counted k + w.held k := by
  unfold counted
  rw [wrappers_put_of_not_mem h]
  simp

/-- **Writing one wrapper changes the sum by that wrapper.** -/
theorem counted_put (hp : p.names.Nodup) (hv : p.lookup name = some v) (w : Wrapper)
    (k : Capability) : (put name w p).counted k + v.held k = p.counted k + w.held k := by
  obtain ⟨⟨n, u⟩, hfind, rfl⟩ := Option.map_eq_some_iff.1 hv
  have hname := List.find?_some hfind
  simp only [beq_iff_eq] at hname
  subst hname
  unfold counted
  rw [wrappers_put_of_mem (mem_names_of_lookup hv)]
  exact sum_replace hp hfind w k

end Put

/-! ### The operations -/

section Exec

variable (name other : String) (p : Pool ω α)

/-- To look a wrapper up changes nothing. -/
theorem exec_find : (find name).exec p = match p.lookup name with
    | some w => (.ok w, p)
    | none => (.error .unknownName, p) := by
  unfold find lookup
  rcases hfind : p.wrappers.find? (·.1 == name) with _ | e
  · simp only [Action.exec_bind, Action.exec_get, hfind]
    rfl
  · simp only [Action.exec_bind, Action.exec_get, hfind]
    rfl

/-- A wrapper cannot be wrapped. -/
theorem exec_rewrap : (rewrap other).exec p = match p.lookup other with
    | some _ => (.error (.impossible .wrappedTwice), p)
    | none => (.error .unknownName, p) := by
  unfold rewrap
  rw [Action.exec_bind, Action.exec_discard, exec_find]
  cases p.lookup other with
  | none => rfl
  | some o => rfl

/-- A new wrapper around what another one wraps starts counting at zero. -/
theorem exec_renew : (renew name other).exec p = match p.lookup other with
    | some ⟨some position, _⟩ => (.ok (), put name (.fresh position) p)
    | some ⟨none, _⟩ => (.error (.impossible .alreadyConsumed), p)
    | none => (.error .unknownName, p) := by
  unfold renew
  rw [Action.exec_bind, exec_find]
  rcases p.lookup other with _ | ⟨_ | position, c⟩
  · rfl
  · rfl
  · rfl

/-- **To consume** leaves the other wrapper without its operator, and adds its counts to the own ones. -/
theorem exec_consume : (consume name other).exec p = match p.lookup name, p.lookup other with
    | some w, some o =>
      if name = other then (.error (.impossible .selfConsumption), p) else
      match o.inner with
      | some _ => (.ok (), put other { o with inner := none }
          (put name { w with counts := w.counts + o.counts } p))
      | none => (.error (.impossible .alreadyConsumed), p)
    | _, _ => (.error .unknownName, p) := by
  unfold consume
  rw [Action.exec_bind, exec_find]
  -- The receiver is looked up first, but only the other one is checked.
  cases p.lookup name with
  | none => rfl
  | some w =>
    simp only [Action.exec_bind, exec_find]
    rcases p.lookup other with _ | o
    · rfl
    · by_cases hne : name = other
      · simp only [hne, ↓reduceIte]
        rfl
      · rcases o with ⟨_ | position, c⟩
        · simp only [hne, ↓reduceIte]
          rfl
        · simp only [hne, ↓reduceIte]
          rfl

/-- **An evaluation** is counted before the operator is asked, so that it counts if that fails. -/
theorem exec_evaluate (k : Capability) (x : Tensor α) : (evaluate name k x).exec p =
    match p.lookup name with
    | some ⟨some position, c⟩ => (onOperator position fun op => op.answer k x).exec
        (put name ⟨some position, c.tick k⟩ p)
    | some ⟨none, _⟩ => (.error (.impossible .alreadyConsumed), p)
    | none => (.error .unknownName, p) := by
  unfold evaluate
  rw [Action.exec_bind, exec_find]
  rcases p.lookup name with _ | ⟨_ | position, c⟩
  · rfl
  · rfl
  · rfl

end Exec

/-! ### Calls of the operator -/

/-- What the operator does to its memory is all that a call does to the pool. -/
theorem exec_onOperator {p : Pool ω α} {position : Nat} {op : Operator ω α} {memory : ω}
    (h : p.operators[position]? = some (op, memory))
    (act : Operator ω α → Action (Host ω) α β) :
    (onOperator position act).exec p = (((act op).exec ⟨memory, .unguarded⟩).1,
      { p with operators :=
          p.operators.set position (op, ((act op).exec ⟨memory, .unguarded⟩).2.memory) }) := by
  unfold onOperator
  simp only [Action.exec_bind, Action.exec_get, h]
  rfl

/-- The pool in which every operator has the same record. -/
def recorded (p : Pool ω α) (record : Counts) : Pool (ω × Counts) α :=
  ⟨p.operators.map fun e => (e.1.recording, (e.2, record)), p.wrappers⟩

/-- What the operators record does not matter to the wrappers. -/
@[simp] theorem lookup_recorded (p : Pool ω α) (record : Counts) (name : String) :
    (p.recorded record).lookup name = p.lookup name := rfl

/-- Wrappers are put into a recorded pool as into any other. -/
theorem put_recorded (name : String) (w : Wrapper) (p : Pool ω α) (record : Counts) :
    put name w (p.recorded record) = (put name w p).recorded record := by
  unfold put recorded
  split
  · rfl
  · rfl

/-- How many calls the operators of a pool have on their records. -/
def received (q : Pool (ω × Counts) α) (k : Capability) : Nat :=
  (q.operators.map fun e => e.2.2.get k).sum

end Pool

/-- A recording operator answers as before, and the call is on its record. -/
theorem Operator.exec_answer_recording {ω α : Type} (op : Operator ω α) (k : Capability)
    (x : Tensor α) (memory : ω) (record : Counts) (i : Interrupt) :
    (op.recording.answer k x).exec ⟨(memory, record), i⟩ =
      (((op.answer k x).exec ⟨memory, i⟩).1,
        ⟨(((op.answer k x).exec ⟨memory, i⟩).2.memory, record.tick k),
          ((op.answer k x).exec ⟨memory, i⟩).2.interrupt⟩) := by
  cases k with
  -- The cost is a number that is made a tensor of, the other answers are given as they are.
  | cost =>
    have hcost : ((op.cost x).recording .cost).exec ⟨(memory, record), i⟩ =
        (((op.cost x).exec ⟨memory, i⟩).1, ⟨(((op.cost x).exec ⟨memory, i⟩).2.memory,
          record.tick .cost), ((op.cost x).exec ⟨memory, i⟩).2.interrupt⟩) := rfl
    show Action.exec ((op.cost x).recording .cost >>= fun c => pure (Tensor.scalar .array c)) _ = _
    unfold answer
    rw [Action.exec_bind, Action.exec_bind, hcost]
    rcases (op.cost x).exec ⟨memory, i⟩ with ⟨_ | c, h⟩
    · rfl
    · rfl
  | gradient => rfl
  | hessian => rfl
  | jacobian => rfl

end Minimization
