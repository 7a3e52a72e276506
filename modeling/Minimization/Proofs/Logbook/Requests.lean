import Mathlib.Data.List.Induction
import Minimization.Proofs.Logbook.Registry

namespace Minimization.Logbook

/-!
# Sequences of requests to the loggers

Requests are made one after the other, and one that is refused keeps what it did before.  What a
single one may do is said once, and what a sequence does follows by induction on its last request.

* `Logbook.lastLevel`, `Logbook.lastPattern` — the level and the pattern last asked for.
* `Logbook.after` — the book after some requests.
* `Logbook.Follows` — what a request may do.
* `ordered_after`, `pattern_after`, `level_after` — what a sequence does: the pattern in force is
  the one last asked for, and so is the level if all patterns have directives.
-/

/-! ### Requests and what they ask for -/

/-- What may be asked of the loggers. -/
inductive Request where
  | get (name : Option String)
  | setLevel (choice : LevelChoice)
  | configure (choice : LevelChoice) (pattern? : Option String) (stream : Stream)
deriving Repr

namespace Request

/-- The level a request asks for. -/
def level? : Request → Option Int
  | .get _ => none
  | .setLevel choice => choice.level?
  | .configure choice _ _ => choice.level?

/-- The pattern a request asks for. -/
def pattern? : Request → Option String
  | .configure _ pattern? _ => pattern?
  | _ => none

/-- What a request does to the book. -/
def action {α : Type} : Request → Action Logbook α Unit
  | .get name => discard (Logbook.get name)
  | .setLevel choice => Logbook.setLevel choice
  | .configure choice pattern? stream => Logbook.configure choice pattern? stream

end Request

/-- The level last asked for, that of warnings before any. -/
def lastLevel (qs : List Request) : Int := (qs.filterMap (·.level?)).getLast?.getD warningLevel

/-- The pattern last asked for. -/
def lastPattern (qs : List Request) : String :=
  (qs.filterMap (·.pattern?)).getLast?.getD defaultPattern

/-- The last request decides on the level, if it asks for one. -/
theorem lastLevel_concat (qs : List Request) (q : Request) :
    lastLevel (qs ++ [q]) = q.level?.getD (lastLevel qs) := by
  cases h : q.level? <;> simp [lastLevel, h]

/-- It decides on the pattern as well. -/
theorem lastPattern_concat (qs : List Request) (q : Request) :
    lastPattern (qs ++ [q]) = q.pattern?.getD (lastPattern qs) := by
  cases h : q.pattern? <;> simp [lastPattern, h]

/-! ### Runs -/

section Runs

variable (α : Type)

/-- The book after a request, carried out or refused. -/
def next (b : Logbook) (q : Request) : Logbook := ((q.action (α := α)).exec b).2

/-- The book after some requests. -/
def after (qs : List Request) : Logbook := qs.foldl (next α) initial

/-- The place of the logger that a request for a name returns, if it returns one. -/
def handed? (name : Option String) (b : Logbook) : Option ℕ :=
  match (get name : Action Logbook α String).exec b with
  | (.ok full, after) => after.place? full
  | (.error _, _) => none

end Runs

variable {α : Type} {b : Logbook} {P : Pattern → Prop} {qs rs : List Request}

/-! ### One request -/

/-- The patterns that loggers may have after a request: the one in force then, or an old one unless
    a new one was set for all. -/
def Allowed (P : Pattern → Prop) (b : Logbook) (q : Request) (pattern : Pattern) : Prop :=
  pattern = .ofText (q.pattern?.getD b.pattern) ∨ P pattern ∧
    (q.pattern? = none ∨ q.level? = none ∨ Pattern.isValid (q.pattern?.getD b.pattern) = false)

/-- What a request leaves: places and names handed out stay, its pattern is in force in any case and
    its level if that pattern has a directive, and there is order among the loggers. -/
structure Follows (P : Pattern → Prop) (b c : Logbook) (q : Request) : Prop where
  names : b.names <+: c.names
  handedOut : b.handedOut ⊆ c.handedOut
  pattern : c.pattern = q.pattern?.getD b.pattern
  level : Pattern.isValid (q.pattern?.getD b.pattern) = true → c.level = q.level?.getD b.level
  ordered : c.Ordered (Allowed P b q)

/-- What a request for a logger leaves; the name it returns is dropped. -/
theorem next_get (name : Option String) (b : Logbook) :
    next α b (.get name) = ((get name : Action Logbook α String).exec b).2 :=
  congrArg Prod.snd (Action.exec_discard _ b)

/-- A request for a logger hands out one at most, with the settings in force. -/
theorem follows_get (hb : b.Ordered P) (name : Option String) :
    Follows P b (next α b (.get name)) (.get name) := by
  have hold : b.Ordered (Allowed P b (.get name)) := hb.mono fun _ hP => .inr ⟨hP, .inl rfl⟩
  rw [next_get]
  rcases get_cases (α := α) hb name with
    ⟨-, h⟩ | ⟨-, -, h⟩ | ⟨hout, -, l, hl, hsilent, h⟩ <;> rw [h]
  · exact ⟨List.prefix_rfl, List.Subset.refl _, rfl, fun _ => rfl, hold⟩
  · exact ⟨isPrefix_names_put _ _, List.subset_append_left _ _, put_pattern _ _,
      fun _ => put_level _ _, hold.handOut (.inl rfl) (fullName name)⟩
  · exact ⟨isPrefix_names_put _ _, by simp, put_pattern _ _, fun _ => put_level _ _,
      hold.put hsilent (hl ▸ hout)⟩

/-- A request for a level changes the loggers handed out, if it means one. -/
theorem follows_setLevel (hb : b.Ordered P) (choice : LevelChoice) :
    Follows P b (next α b (.setLevel choice)) (.setLevel choice) := by
  have hold : b.Ordered (Allowed P b (.setLevel choice)) :=
    hb.mono fun _ hP => .inr ⟨hP, .inl rfl⟩
  show Follows P b ((setLevel choice : Action Logbook α Unit).exec b).2 (.setLevel choice)
  rcases setLevel_cases (α := α) choice b with ⟨level, hlevel, h⟩ | ⟨hlevel, e, h⟩ <;> rw [h]
  · refine ⟨isPrefix_names_mapHandedOut (f := Logger.withLevel level) (fun _ => rfl) level,
      List.Subset.refl _, rfl, fun _ => ?_, hold.mapHandedOut (fun _ => rfl) fun l hl hout => ?_⟩
    · simp [Request.level?, hlevel]
    · obtain ⟨pattern, hP, hobeys⟩ := hold.obeys l hl hout
      exact ⟨pattern, hP, hobeys.withLevel⟩
  · exact ⟨List.prefix_rfl, List.Subset.refl _, rfl, fun _ => by simp [Request.level?, hlevel],
      hold⟩

/-- A request for both sets the pattern before it can be refused. -/
theorem follows_configure (hb : b.Ordered P) (choice : LevelChoice) (pattern? : Option String)
    (stream : Stream) :
    Follows P b (next α b (.configure choice pattern? stream))
      (.configure choice pattern? stream) := by
  show Follows P b ((configure choice pattern? stream : Action Logbook α Unit).exec b).2 _
  rcases configure_cases (α := α) choice pattern? stream b with
    ⟨level, hlevel, -, h⟩ | ⟨hrefused, e, h⟩ <;> rw [h]
  · refine ⟨isPrefix_names_mapHandedOut
        (f := Logger.withHandler level stream (.ofText (pattern?.getD b.pattern)))
        (fun _ => rfl) level,
      List.Subset.refl _, rfl, fun _ => ?_, (hb.withPattern _).mapHandedOut (fun _ => rfl)
        fun l _ _ => ⟨_, .inl rfl, Logger.obeys_withHandler stream⟩⟩
    simp [Request.level?, hlevel]
  · -- The request was refused: if its pattern has a directive, then for its level.
    refine ⟨List.prefix_rfl, List.Subset.refl _, rfl, fun hvalid => ?_,
      (hb.withPattern _).mono fun _ hP => .inr ⟨hP, .inr hrefused⟩⟩
    have hlevel := hrefused.resolve_right fun hinvalid =>
      Bool.false_ne_true (hinvalid.symm.trans hvalid)
    simp [Request.level?, hlevel]

/-- Every request does what a request may do. -/
theorem follows_next (hb : b.Ordered P) (q : Request) : Follows P b (next α b q) q := by
  cases q with
  | get name => exact follows_get hb name
  | setLevel choice => exact follows_setLevel hb choice
  | configure choice pattern? stream => exact follows_configure hb choice pattern? stream

/-! ### Many requests -/

/-- Requests are carried out in turn. -/
theorem after_concat (α : Type) (qs : List Request) (q : Request) :
    after α (qs ++ [q]) = next α (after α qs) q := by simp [after]

/-- The pattern in force before any request has a directive. -/
theorem isValid_defaultPattern : Pattern.isValid defaultPattern = true := by decide +kernel

/-- The first loggers have the first level and pattern. -/
theorem ordered_initial : initial.Ordered (· = .ofText defaultPattern) where
  known := by
    intro full h
    exact List.mem_cons_of_mem _ h
  obeys := by
    intro l hl hout
    rcases List.mem_cons.1 hl with rfl | hl
    · exact absurd hout (by decide)
    · obtain ⟨name, -, rfl⟩ := List.mem_map.1 hl
      exact ⟨_, rfl, rfl, .standard, rfl⟩
  silent := by
    intro l hl hout
    rcases List.mem_cons.1 hl with rfl | hl
    · rfl
    · obtain ⟨name, hname, rfl⟩ := List.mem_map.1 hl
      exact absurd hname hout

/-- There is order after any requests. -/
theorem ordered_after (α : Type) (qs : List Request) : (after α qs).Ordered fun _ => True := by
  induction qs using List.reverseRecOn with
  | nil => exact ordered_initial.mono fun _ _ => trivial
  | append_singleton qs q ih =>
    rw [after_concat]
    exact (follows_next ih q).ordered.mono fun _ _ => trivial

/-- Places and names handed out stay from one book to a later one. -/
theorem kept_after_append (α : Type) (qs rs : List Request) :
    (after α qs).names <+: (after α (qs ++ rs)).names ∧
      (after α qs).handedOut ⊆ (after α (qs ++ rs)).handedOut := by
  induction rs using List.reverseRecOn with
  | nil => simp
  | append_singleton rs q ih =>
    rw [← List.append_assoc, after_concat]
    have hstep := follows_next (α := α) (ordered_after α (qs ++ rs)) q
    exact ⟨ih.1.trans hstep.names, List.Subset.trans ih.2 hstep.handedOut⟩

/-- The pattern last asked for is in force. -/
theorem pattern_after (α : Type) (qs : List Request) : (after α qs).pattern = lastPattern qs := by
  induction qs using List.reverseRecOn with
  | nil => rfl
  | append_singleton qs q ih =>
    rw [after_concat, (follows_next (ordered_after α qs) q).pattern, ih, lastPattern_concat]

/-- Every pattern asked for has a directive. -/
def PatternsValid (qs : List Request) : Prop :=
  ∀ q ∈ qs, ∀ text ∈ q.pattern?, Pattern.isValid text = true

/-- The pattern last asked for has a directive if all have. -/
theorem PatternsValid.lastPattern (h : PatternsValid qs) :
    Pattern.isValid (lastPattern qs) = true := by
  cases htext : (qs.filterMap (·.pattern?)).getLast? with
  | none => simpa [Logbook.lastPattern, htext] using isValid_defaultPattern
  | some text =>
    obtain ⟨q, hq, hqt⟩ := List.mem_filterMap.1 (List.mem_of_getLast? htext)
    simpa [Logbook.lastPattern, htext] using h q hq text hqt

/-- The level last asked for is in force. -/
theorem level_after (α : Type) (h : PatternsValid qs) : (after α qs).level = lastLevel qs := by
  induction qs using List.reverseRecOn with
  | nil => rfl
  | append_singleton qs q ih =>
    have hvalid : Pattern.isValid (q.pattern?.getD (after α qs).pattern) = true := by
      rw [pattern_after, ← lastPattern_concat]
      exact h.lastPattern
    rw [after_concat, (follows_next (ordered_after α qs) q).level hvalid,
      ih fun q' hq' => h q' (List.mem_append_left _ hq'), lastLevel_concat]

end Minimization.Logbook
