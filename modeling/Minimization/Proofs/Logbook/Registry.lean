import Mathlib.Tactic.Common
import Minimization.Logbook.Basic

namespace Minimization

/-!
# What the requests to the loggers leave

A logger is known by its place among all loggers, which it never changes.  Each of the three
requests may be refused, and what a refused one leaves is told along with what one carried out does.

* `Logbook.place?` — the place of the logger of a name.
* `Logbook.Ordered` — every logger handed out has one handler, both have the level in force, and the
  pattern is one of some; no other logger has a handler.
* `Logbook.get_cases`, `Logbook.setLevel_cases`, `Logbook.configure_cases` — all that a request can
  do.
-/

/-- The level a choice means, if it means one. -/
def LevelChoice.level? (choice : LevelChoice) : Option Int := (choice.value (α := Unit)).toOption

/-- A choice that means no level is refused. -/
theorem LevelChoice.value_cases {α : Type} (choice : LevelChoice) :
    (∃ level, choice.level? = some level ∧ choice.value (α := α) = .ok level) ∨
      choice.level? = none ∧ ∃ e, choice.value (α := α) = .error e := by
  cases choice with
  | number n => exact .inl ⟨n, rfl, rfl⟩
  | unsuited => exact .inr ⟨rfl, _, rfl⟩
  | named s =>
    simp only [level?, value]
    split
    · exact .inr ⟨rfl, _, rfl⟩
    · split
      · exact .inr ⟨rfl, _, rfl⟩
      · exact .inl ⟨_, rfl, rfl⟩

namespace Logger

/-- A logger has one handler, both have a level, and the handler has a pattern. -/
def Obeys (l : Logger) (level : Int) (pattern : Pattern) : Prop :=
  l.level = level ∧ ∃ stream, l.handlers = [⟨level, stream, pattern⟩]

/-- A logger with another level, also for its handlers. -/
def withLevel (level : Int) (l : Logger) : Logger :=
  { l with level := level, handlers := l.handlers.map ({ · with level := level }) }

/-- A logger with another level and one new handler. -/
def withHandler (level : Int) (stream : Stream) (pattern : Pattern) (l : Logger) : Logger :=
  { l with level := level, handlers := [⟨level, stream, pattern⟩] }

variable {l : Logger} {level : Int} {pattern : Pattern}

/-- A new level is obeyed, with the pattern there was. -/
theorem Obeys.withLevel {old : Int} (h : l.Obeys old pattern) :
    (l.withLevel level).Obeys level pattern := by
  obtain ⟨-, stream, hh⟩ := h
  exact ⟨rfl, stream, by simp [Logger.withLevel, hh]⟩

/-- A new handler makes a logger obey, whatever handlers it had. -/
theorem obeys_withHandler (stream : Stream) :
    (l.withHandler level stream pattern).Obeys level pattern := ⟨rfl, stream, rfl⟩

/-- There is one pattern a logger obeys. -/
theorem Obeys.pattern_unique {level' : Int} {pattern' : Pattern} (h : l.Obeys level pattern)
    (h' : l.Obeys level' pattern') : pattern = pattern' := by
  obtain ⟨-, stream, hh⟩ := h
  obtain ⟨-, stream', hh'⟩ := h'
  exact (Handler.mk.inj (List.cons.inj (hh.symm.trans hh')).1).2.2

end Logger

namespace Logbook

variable {α : Type} {b c : Logbook} {k l : Logger} {full : String} {P Q : Pattern → Prop}

/-! ### Places -/

/-- The names of all loggers, by their places. -/
def names (b : Logbook) : List String := b.loggers.map (·.name)

/-- The place of the logger of a name. -/
def place? (b : Logbook) (full : String) : Option ℕ := b.names.idxOf? full

/-- At the place of a name there is a logger of this name. -/
theorem exists_of_place? {p : ℕ} (h : b.place? full = some p) :
    ∃ l ∈ b.loggers, b.loggers[p]? = some l ∧ l.name = full := by
  obtain ⟨hp, hname, -⟩ := List.idxOf?_eq_some_iff.1 h
  have hp' : p < b.loggers.length := by simpa [names] using hp
  exact ⟨b.loggers[p], List.getElem_mem hp', List.getElem?_eq_getElem hp', by
    simpa [names] using hname⟩

/-- Two names of one place are the same. -/
theorem place?_inj {x y : String} {p : ℕ} (hx : b.place? x = some p) (hy : b.place? y = some p) :
    x = y := by
  obtain ⟨_, hx, -⟩ := List.idxOf?_eq_some_iff.1 hx
  obtain ⟨_, hy, -⟩ := List.idxOf?_eq_some_iff.1 hy
  exact hx.symm.trans hy

/-- A name keeps its place when others come behind. -/
theorem place?_of_isPrefix {p : ℕ} (h : b.place? full = some p) (hbc : b.names <+: c.names) :
    c.place? full = some p := hbc.findIdx?_eq_some h

/-! ### The two ways to change loggers -/

/-- To put a logger in is not to hand it out. -/
@[simp] theorem put_handedOut (b : Logbook) (l : Logger) :
    (b.put l).handedOut = b.handedOut := by
  unfold put
  split <;> rfl

/-- Nor does it change the level in force. -/
@[simp] theorem put_level (b : Logbook) (l : Logger) : (b.put l).level = b.level := by
  unfold put
  split <;> rfl

/-- Nor does it change the pattern in force. -/
@[simp] theorem put_pattern (b : Logbook) (l : Logger) : (b.put l).pattern = b.pattern := by
  unfold put
  split <;> rfl

/-- A logger put in is new, or in the place of the one of its name. -/
theorem names_put (b : Logbook) (l : Logger) :
    (b.put l).names = if l.name ∈ b.names then b.names else b.names ++ [l.name] := by
  have hany : (b.loggers.any (·.name == l.name)) = true ↔ l.name ∈ b.names := by
    simp [names]
  by_cases h : l.name ∈ b.names
  · rw [put, if_pos (hany.2 h), if_pos h, names, names, List.map_map]
    refine List.map_congr_left fun k _ => ?_
    simp only [Function.comp_apply]
    split <;> simp_all
  · rw [put, if_neg (mt hany.1 h), if_neg h]
    simp [names]

/-- The names there were keep their places when a logger is put in. -/
theorem isPrefix_names_put (b : Logbook) (l : Logger) : b.names <+: (b.put l).names := by
  rw [names_put]
  split
  · exact List.prefix_rfl
  · exact List.prefix_append _ _

/-- The logger put in is known by its name. -/
theorem name_mem_names_put (b : Logbook) (l : Logger) : l.name ∈ (b.put l).names := by
  rw [names_put]
  split
  · assumption
  · simp

/-- Apart from the logger put in, none of its name is left. -/
theorem mem_put (h : k ∈ (b.put l).loggers) : k = l ∨ k ∈ b.loggers ∧ k.name ≠ l.name := by
  unfold put at h
  split at h
  · obtain ⟨m, hm, rfl⟩ := List.mem_map.1 h
    by_cases hml : m.name = l.name
    · exact .inl (if_pos (by simpa using hml))
    · exact .inr (by simpa [hml] using hm)
  · rename_i hnone
    simp only [List.any_eq_true, not_exists, not_and, beq_iff_eq] at hnone
    rcases List.mem_append.1 h with hk | hk
    · exact .inr ⟨hk, hnone k hk⟩
    · exact .inl (List.mem_singleton.1 hk)

/-- A change that keeps the names keeps them by their places. -/
theorem names_mapHandedOut {f : Logger → Logger} (hf : ∀ l, (f l).name = l.name) :
    (b.mapHandedOut f).names = b.names := by
  rw [mapHandedOut, names, names, List.map_map]
  refine List.map_congr_left fun l _ => ?_
  simp only [Function.comp_apply]
  split
  · exact hf l
  · rfl

/-- They keep their places as well when the level changes with the loggers. -/
theorem isPrefix_names_mapHandedOut {f : Logger → Logger} (hf : ∀ l, (f l).name = l.name)
    (level : Int) : b.names <+: names { b.mapHandedOut f with level := level } :=
  (names_mapHandedOut (b := b) hf).symm ▸ List.prefix_rfl

/-- A logger after a change was changed if it is handed out, and is as it was if not. -/
theorem mem_mapHandedOut {f : Logger → Logger} (hf : ∀ l, (f l).name = l.name)
    (h : k ∈ (b.mapHandedOut f).loggers) :
    (k.name ∈ b.handedOut ∧ ∃ l ∈ b.loggers, l.name ∈ b.handedOut ∧ k = f l) ∨
      (k.name ∉ b.handedOut ∧ k ∈ b.loggers) := by
  obtain ⟨l, hl, rfl⟩ := List.mem_map.1 h
  by_cases hout : l.name ∈ b.handedOut
  · simp only [List.contains_iff_mem, hout, if_true, hf]
    exact .inl ⟨trivial, l, hl, hout, rfl⟩
  · simp only [List.contains_iff_mem, hout, if_false]
    exact .inr ⟨not_false, hl⟩

/-! ### Order among the loggers -/

/-- Every logger handed out has one handler, both have the level in force, and the pattern is one of
    some.  No other logger has a handler. -/
structure Ordered (P : Pattern → Prop) (b : Logbook) : Prop where
  known : ∀ full ∈ b.handedOut, full ∈ b.names
  obeys : ∀ l ∈ b.loggers, l.name ∈ b.handedOut → ∃ pattern, P pattern ∧ l.Obeys b.level pattern
  silent : ∀ l ∈ b.loggers, l.name ∉ b.handedOut → l.handlers = []

namespace Ordered

/-- More patterns may be allowed. -/
theorem mono (hb : b.Ordered P) (h : ∀ pattern, P pattern → Q pattern) : b.Ordered Q where
  known := hb.known
  obeys := fun l hl hout =>
    let ⟨pattern, hP, hobeys⟩ := hb.obeys l hl hout
    ⟨pattern, h pattern hP, hobeys⟩
  silent := hb.silent

/-- What is in force for loggers to come does not matter to those there are. -/
theorem withPattern (hb : b.Ordered P) (text : String) : Ordered P { b with pattern := text } :=
  ⟨hb.known, hb.obeys, hb.silent⟩

/-- A new logger with the settings in force may be handed out. -/
theorem handOut {pattern : Pattern} (hb : b.Ordered P) (hP : P pattern) (full : String) :
    Ordered P { b.put (fresh full b.level pattern) with handedOut := b.handedOut ++ [full] } where
  known := by
    intro x hx
    rcases List.mem_append.1 hx with hx | hx
    · exact (isPrefix_names_put b _).subset (hb.known x hx)
    · rw [List.mem_singleton.1 hx]
      exact name_mem_names_put b (fresh full b.level pattern)
  obeys := by
    intro k hk hout
    simp only [put_level]
    -- The logger handed out obeys from the start, the others have obeyed before.
    rcases mem_put hk with rfl | ⟨hk, hne⟩
    · exact ⟨pattern, hP, rfl, .standard, rfl⟩
    · refine hb.obeys k hk ((List.mem_append.1 hout).resolve_right fun h => hne ?_)
      exact List.mem_singleton.1 h
  silent := by
    intro k hk hout
    rcases mem_put hk with rfl | ⟨hk, -⟩
    · exact absurd (List.mem_append_right _ (List.mem_singleton_self _)) hout
    · exact hb.silent k hk fun h => hout (List.mem_append_left _ h)

/-- A logger without a handler may be put in under a name that is not handed out. -/
theorem put (hb : b.Ordered P) (hl : l.handlers = []) (hout : l.name ∉ b.handedOut) :
    (b.put l).Ordered P where
  known := by
    rw [put_handedOut]
    exact fun x hx => (isPrefix_names_put b l).subset (hb.known x hx)
  obeys := by
    rw [put_handedOut, put_level]
    intro k hk hk'
    -- The logger put in is not handed out, so nothing is asked of it but silence.
    rcases mem_put hk with rfl | ⟨hk, -⟩
    · exact absurd hk' hout
    · exact hb.obeys k hk hk'
  silent := by
    rw [put_handedOut]
    intro k hk hk'
    rcases mem_put hk with rfl | ⟨hk, -⟩
    · exact hl
    · exact hb.silent k hk hk'

/-- Loggers may be changed if those handed out obey new settings then. -/
theorem mapHandedOut {f : Logger → Logger} {level : Int} (hb : b.Ordered P)
    (hname : ∀ l, (f l).name = l.name)
    (hf : ∀ l ∈ b.loggers, l.name ∈ b.handedOut →
      ∃ pattern, Q pattern ∧ (f l).Obeys level pattern) :
    Ordered Q { b.mapHandedOut f with level := level } where
  known := fun x hx => (isPrefix_names_mapHandedOut hname level).subset (hb.known x hx)
  obeys := by
    intro k hk hout
    rcases mem_mapHandedOut hname hk with ⟨-, l, hl, hl', rfl⟩ | ⟨hout', -⟩
    · exact hf l hl hl'
    · exact absurd hout hout'
  silent := by
    intro k hk hout
    rcases mem_mapHandedOut hname hk with ⟨hout', -⟩ | ⟨-, hk⟩
    · exact absurd hout' hout
    · exact hb.silent k hk hout

end Ordered

/-! ### All that a request can do -/

/-- A logger handed out is returned again; a new one gets the settings in force, unless the pattern
    among them is none: then a logger without handler stays behind. -/
theorem get_cases (hb : b.Ordered P) (name : Option String) :
    (fullName name ∈ b.handedOut ∧
      (get name : Action Logbook α String).exec b = (.ok (fullName name), b)) ∨
    (fullName name ∉ b.handedOut ∧ Pattern.isValid b.pattern = true ∧
      (get name : Action Logbook α String).exec b = (.ok (fullName name),
        { b.put (fresh (fullName name) b.level (.ofText b.pattern)) with
          handedOut := b.handedOut ++ [fullName name] })) ∨
    (fullName name ∉ b.handedOut ∧ Pattern.isValid b.pattern = false ∧
      ∃ l : Logger, l.name = fullName name ∧ l.handlers = [] ∧
        (get name : Action Logbook α String).exec b = (.error .unknownValue, b.put l)) := by
  by_cases hout : fullName name ∈ b.handedOut
  · refine .inl ⟨hout, ?_⟩
    simp [get, Action.exec_bind, hout]
  -- Whether the logger is there already or not, it has no handler as long as it is not handed out.
  obtain ⟨l, hl⟩ : ∃ l, (b.find? (fullName name)).getD ⟨fullName name, 0, [], true⟩ = l := ⟨_, rfl⟩
  have hsilent : l.name = fullName name ∧ l.handlers = [] := by
    cases hfind : b.find? (fullName name) with
    | none => simp [← hl, hfind]
    | some k =>
      obtain rfl : k = l := by simpa [hfind] using hl
      have hname : k.name = fullName name := by simpa using List.find?_some hfind
      exact ⟨hname, hb.silent k (List.mem_of_find?_eq_some hfind) (hname ▸ hout)⟩
  cases hvalid : Pattern.isValid b.pattern with
  | true =>
    refine .inr (.inl ⟨hout, rfl, ?_⟩)
    simp [get, Action.exec_bind, hout, hl, hsilent.2, hvalid, -bind_pure_comp]
  | false =>
    refine .inr (.inr ⟨hout, rfl, { l with level := b.level }, hsilent.1, hsilent.2, ?_⟩)
    simp [get, Action.exec_bind, hout, hl, hsilent.2, hvalid]

/-- A level is set for all loggers handed out and those to come, or nothing changes. -/
theorem setLevel_cases (choice : LevelChoice) (b : Logbook) :
    (∃ level, choice.level? = some level ∧
      (setLevel choice : Action Logbook α Unit).exec b = (.ok (),
        { b.mapHandedOut (Logger.withLevel level) with level := level })) ∨
    (choice.level? = none ∧
      ∃ e, (setLevel choice : Action Logbook α Unit).exec b = (.error e, b)) := by
  rcases choice.value_cases (α := α) with ⟨level, hlevel, hvalue⟩ | ⟨hlevel, e, hvalue⟩
  · refine .inl ⟨level, hlevel, ?_⟩
    rw [setLevel, Action.exec_bind, Action.exec_ofExcept, hvalue]
    rfl
  · exact .inr ⟨hlevel, e, by simp [setLevel, Action.exec_bind, hvalue]⟩

/-- All loggers handed out get one new handler, or nothing changes but the pattern in force. -/
theorem configure_cases (choice : LevelChoice) (pattern? : Option String) (stream : Stream)
    (b : Logbook) :
    (∃ level, choice.level? = some level ∧ Pattern.isValid (pattern?.getD b.pattern) = true ∧
      (configure choice pattern? stream : Action Logbook α Unit).exec b = (.ok (),
        { mapHandedOut { b with pattern := pattern?.getD b.pattern }
            (Logger.withHandler level stream (.ofText (pattern?.getD b.pattern))) with
          level := level })) ∨
    ((choice.level? = none ∨ Pattern.isValid (pattern?.getD b.pattern) = false) ∧
      ∃ e, (configure choice pattern? stream : Action Logbook α Unit).exec b =
        (.error e, { b with pattern := pattern?.getD b.pattern })) := by
  -- The pattern is stored first; it is tested before the level is.
  cases hvalid : Pattern.isValid (pattern?.getD b.pattern) with
  | false => exact .inr ⟨.inr rfl, .unknownValue, by simp [configure, Action.exec_bind, hvalid]⟩
  | true =>
    rcases choice.value_cases (α := α) with ⟨level, hlevel, hvalue⟩ | ⟨hlevel, e, hvalue⟩
    · refine .inl ⟨level, hlevel, rfl, ?_⟩
      simp only [configure, Action.exec_bind, Action.exec_modify, Action.exec_get, hvalid, hvalue]
      rfl
    · exact .inr ⟨.inl hlevel, e, by simp [configure, Action.exec_bind, hvalid, hvalue]⟩

end Logbook

end Minimization
