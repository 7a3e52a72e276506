import Mathlib.Algebra.Order.BigOperators.Group.List
import Mathlib.Algebra.Order.Group.Nat
import Minimization.Proofs.Logbook.Requests

namespace Minimization.Logbook

/-!
# One level and one pattern for all loggers

What the loggers returned look like after any requests is told by the requests alone: each has one
handler, with the level and the pattern last asked for.  A request that is refused breaks this if it
brings a pattern, because that stays in force for loggers to come while those there are keep theirs.

* `Logbook.Returned` — the loggers returned, by their places.
* `Logbook.Shared` — each of them has one handler, and all have one level and one pattern.
* `Logbook.Harmless` — a request that cannot set the loggers at odds.
* `settings_shared_iff` — equal names have one logger, there is one level at any time, and the level
  and the pattern are those last asked for exactly as long as all requests are harmless.
-/

section Statements

variable (α : Type)

/-- A place is that of a logger which was there from the start or was returned since. -/
def Returned (qs : List Request) (p : ℕ) : Prop :=
  (∃ full ∈ initial.handedOut, initial.place? full = some p) ∨
    ∃ qs' name, qs' ++ [.get name] <+: qs ∧ handed? α name (after α qs') = some p

/-- Every logger returned has one handler, with a level and a pattern. -/
def Shared (qs : List Request) (level : Int) (pattern : Pattern) : Prop :=
  ∀ p, Returned α qs p → ∃ l, (after α qs).loggers[p]? = some l ∧ l.Obeys level pattern

/-- Every logger returned has one handler, with a level and some pattern. -/
def Levelled (qs : List Request) (level : Int) : Prop :=
  ∀ p, Returned α qs p → ∃ l pattern, (after α qs).loggers[p]? = some l ∧ l.Obeys level pattern

/-- Every logger returned has one handler, with the level and the pattern last asked for. -/
def UpToDate (qs : List Request) : Prop := Shared α qs (lastLevel qs) (.ofText (lastPattern qs))

/-- A request for any name returns a logger. -/
def Answers (qs : List Request) : Prop := ∀ name, (handed? α name (after α qs)).isSome = true

end Statements

/-- A request that cannot set the loggers at odds: a pattern it brings has a directive, and if its
    choice is no level the pattern means what the one in force means. -/
def Harmless (qs : List Request) (q : Request) : Prop :=
  ∀ text ∈ q.pattern?, Pattern.isValid text = true ∧
    (q.level? = none → Pattern.ofText text = Pattern.ofText (lastPattern qs))

variable {α : Type} {b : Logbook} {P : Pattern → Prop} {qs : List Request} {q : Request} {p : ℕ}

/-! ### The loggers returned -/

/-- A logger returned is at the place of its name; none is returned if the name is new and the
    pattern in force has no directive. -/
theorem handed?_cases (hb : b.Ordered P) (name : Option String) :
    (handed? α name b = (next α b (.get name)).place? (fullName name) ∧
      fullName name ∈ (next α b (.get name)).handedOut) ∨
    (fullName name ∉ b.handedOut ∧ Pattern.isValid b.pattern = false ∧
      handed? α name b = none) := by
  rw [next_get]
  rcases get_cases (α := α) hb name with ⟨hout, h⟩ | ⟨-, -, h⟩ | ⟨hout, hvalid, l, -, -, h⟩
  · exact .inl (by simpa [handed?, h] using hout)
  · exact .inl (by simp [handed?, h])
  · exact .inr ⟨hout, hvalid, by simp [handed?, h]⟩

/-- A logger returned is at the place of its name, which is handed out from then on. -/
theorem place?_of_handed? {name : Option String} (h : handed? α name (after α qs) = some p) :
    (after α (qs ++ [.get name])).place? (fullName name) = some p ∧
      fullName name ∈ (after α (qs ++ [.get name])).handedOut := by
  rw [after_concat]
  rcases handed?_cases (α := α) (ordered_after α qs) name with ⟨heq, hout⟩ | ⟨-, -, hnone⟩
  · exact ⟨heq ▸ h, hout⟩
  · simp [hnone] at h

/-- Known names have loggers returned, and so have all names if the pattern in force is one. -/
theorem isSome_handed? (hb : b.Ordered P) (hvalid : Pattern.isValid b.pattern = true)
    (name : Option String) : (handed? α name b).isSome = true := by
  rcases handed?_cases (α := α) hb name with ⟨heq, hout⟩ | ⟨-, hinvalid, -⟩
  · rw [heq, place?, List.isSome_idxOf?]
    exact (follows_next hb _).ordered.known _ hout
  · exact absurd (hinvalid.symm.trans hvalid) Bool.false_ne_true

/-- A logger returned stays at its place and stays handed out. -/
theorem Returned.place? (h : Returned α qs p) :
    ∃ full ∈ (after α qs).handedOut, (after α qs).place? full = some p := by
  rcases h with ⟨full, hout, hp⟩ | ⟨qs', name, ⟨rs, rfl⟩, hp⟩
  · have hkeep := kept_after_append α [] qs
    exact ⟨full, hkeep.2 hout, place?_of_isPrefix hp hkeep.1⟩
  · have hkeep := kept_after_append α (qs' ++ [.get name]) rs
    obtain ⟨hp, hout⟩ := place?_of_handed? hp
    exact ⟨_, hkeep.2 hout, place?_of_isPrefix hp hkeep.1⟩

/-- A logger returned is in order. -/
theorem Returned.obeys (h : Returned α qs p) (hP : (after α qs).Ordered P) :
    ∃ l pattern, (after α qs).loggers[p]? = some l ∧ P pattern ∧
      l.Obeys (after α qs).level pattern := by
  obtain ⟨full, hout, hp⟩ := h.place?
  obtain ⟨l, hl, hlp, hname⟩ := exists_of_place? hp
  obtain ⟨pattern, hPp, hobeys⟩ := hP.obeys l hl (hname ▸ hout)
  exact ⟨l, pattern, hlp, hPp, hobeys⟩

/-- The patterns of a logger's handlers. -/
def patterns (l : Logger) : List Pattern := l.handlers.map (·.pattern)

/-- Where settings are shared, each logger returned has the one pattern. -/
theorem Shared.patterns {level : Int} {pattern : Pattern} (h : Shared α qs level pattern)
    (hp : Returned α qs p) : (after α qs).loggers[p]?.map patterns = some [pattern] := by
  obtain ⟨l, hl, -, stream, hh⟩ := h p hp
  simp [hl, Logbook.patterns, hh]

/-! ### One logger for a name, and one level -/

/-- Once a logger was returned, a request returns it again exactly if its full name is the same. -/
theorem handed?_eq_iff {qs₁ qs₂ : List Request} {x y : Option String}
    (hx : handed? α x (after α qs₁) = some p) :
    handed? α y (after α (qs₁ ++ .get x :: qs₂)) = some p ↔ fullName x = fullName y := by
  obtain ⟨hpx, hout⟩ := place?_of_handed? hx
  -- The first logger keeps its place until the second request has been carried out.
  have hkeep := kept_after_append α (qs₁ ++ [.get x]) qs₂
  rw [List.append_assoc, List.singleton_append] at hkeep
  replace hpx := place?_of_isPrefix hpx hkeep.1
  have hstep := follows_next (α := α) (ordered_after α (qs₁ ++ .get x :: qs₂)) (.get y)
  have hpx' := place?_of_isPrefix hpx hstep.names
  rcases handed?_cases (α := α) (ordered_after α (qs₁ ++ .get x :: qs₂)) y with
    ⟨heq, -⟩ | ⟨hnew, -, hnone⟩
  · rw [heq]
    constructor
    · exact place?_inj hpx'
    · intro hname
      rwa [← hname]
  · refine iff_of_false (by simp [hnone]) fun hname => hnew ?_
    exact hname ▸ hkeep.2 hout

/-- There is one level at any time, and it is the one last asked for if all patterns have
    directives. -/
theorem exists_levelled (α : Type) (qs : List Request) :
    ∃ level, (PatternsValid qs → level = lastLevel qs) ∧ Levelled α qs level := by
  refine ⟨(after α qs).level, level_after α, fun p hp => ?_⟩
  obtain ⟨l, pattern, hl, -, hobeys⟩ := hp.obeys (ordered_after α qs)
  exact ⟨l, pattern, hl, hobeys⟩

/-! ### One pattern -/

/-- A harmless request leaves all loggers with the pattern in force. -/
theorem Harmless.ordered (hq : Harmless qs q)
    (hb : (after α qs).Ordered (· = .ofText (lastPattern qs))) :
    (after α (qs ++ [q])).Ordered (· = .ofText (lastPattern (qs ++ [q]))) := by
  rw [after_concat, lastPattern_concat]
  refine (follows_next hb q).ordered.mono fun pattern hallowed => ?_
  rw [Allowed, pattern_after] at hallowed
  rcases hallowed with hnew | ⟨hold, hspared⟩
  · exact hnew
  cases htext : q.pattern? with
  | none => simpa using hold
  | some text =>
    -- An old pattern was spared although a new one came: the request was refused for its level.
    obtain ⟨hvalid, hsame⟩ := hq text htext
    rcases hspared with hnone | hlevel | hinvalid
    · simp [htext] at hnone
    · exact hold.trans (hsame hlevel).symm
    · simp [htext, hvalid] at hinvalid

/-- After harmless requests all loggers have the pattern last asked for. -/
theorem ordered_of_harmless (h : ∀ qs' q, qs' ++ [q] <+: qs → Harmless qs' q) :
    (after α qs).Ordered (· = .ofText (lastPattern qs)) := by
  induction qs using List.reverseRecOn with
  | nil => exact ordered_initial
  | append_singleton qs q ih =>
    exact (h qs q List.prefix_rfl).ordered (ih fun qs' q' hq' =>
      h qs' q' (hq'.trans (List.prefix_append qs [q])))

/-- Harmless requests ask for patterns with directives only. -/
theorem patternsValid_of_harmless (h : ∀ qs' q, qs' ++ [q] <+: qs → Harmless qs' q) :
    PatternsValid qs := by
  intro q hq text htext
  obtain ⟨qs', rs, rfl⟩ := List.append_of_mem hq
  exact (h qs' q ⟨rs, by simp⟩ text htext).1

/-- After harmless requests a logger is returned for any name, and all have the settings last asked
    for. -/
theorem answers_upToDate_of_harmless (h : ∀ qs' q, qs' ++ [q] <+: qs → Harmless qs' q) :
    Answers α qs ∧ UpToDate α qs := by
  have hvalid := patternsValid_of_harmless h
  constructor
  · refine isSome_handed? (ordered_after α qs) ?_
    rw [pattern_after]
    exact hvalid.lastPattern
  · intro p hp
    obtain ⟨l, pattern, hl, rfl, hobeys⟩ := hp.obeys (ordered_of_harmless h)
    exact ⟨l, hl, level_after α hvalid ▸ hobeys⟩

/-- A name is no longer than the full one. -/
theorem length_le_fullName (name : String) : name.length ≤ (fullName (some name)).length := by
  rw [fullName]
  split
  · exact le_rfl
  · rw [String.length_append]
    exact Nat.le_add_left _ _

/-- There are names without end. -/
theorem exists_fullName_not_mem (xs : List String) : ∃ name, fullName name ∉ xs := by
  -- A name longer than all of them together is new.
  let name := String.ofList (List.replicate ((xs.map String.length).sum + 1) 'a')
  have hlength : name.length = (xs.map String.length).sum + 1 := by
    rw [String.length_ofList, List.length_replicate]
  refine ⟨some name, fun h => ?_⟩
  have hle := List.le_sum_of_mem (List.mem_map_of_mem (f := String.length) h)
  have hge := length_le_fullName name
  omega

/-- If a logger is returned for any name, the pattern in force has a directive. -/
theorem Answers.isValid (h : Answers α qs) : Pattern.isValid (lastPattern qs) = true := by
  obtain ⟨name, hname⟩ := exists_fullName_not_mem (after α qs).handedOut
  rw [← pattern_after α]
  by_contra hinvalid
  rcases get_cases (α := α) (ordered_after α qs) name with
    ⟨hout, -⟩ | ⟨-, hvalid, -⟩ | ⟨-, -, l, -, -, hget⟩
  · exact hname hout
  · exact hinvalid hvalid
  · have hsome := h name
    simp [handed?, hget] at hsome

/-- A request with a pattern whose choice is no level changes no logger. -/
theorem loggers_next_of_refused {text : String} (htext : q.pattern? = some text)
    (hlevel : q.level? = none) (b : Logbook) : (next α b q).loggers = b.loggers := by
  cases q with
  | get => simp [Request.pattern?] at htext
  | setLevel => simp [Request.pattern?] at htext
  | configure choice pattern? stream =>
    show ((configure choice pattern? stream : Action Logbook α Unit).exec b).2.loggers = _
    rcases configure_cases (α := α) choice pattern? stream b with
      ⟨level, hlevel', -, -⟩ | ⟨-, e, h⟩
    · exact absurd (hlevel.symm.trans hlevel') (by simp)
    · rw [h]

/-- A request that is not harmless takes something from the loggers. -/
theorem harmless_of_upToDate (hbefore : UpToDate α qs) (hanswers : Answers α (qs ++ [q]))
    (hafter : UpToDate α (qs ++ [q])) : Harmless qs q := by
  intro text htext
  have hlast : lastPattern (qs ++ [q]) = text := by
    rw [lastPattern_concat, Option.mem_def.1 htext, Option.getD_some]
  refine ⟨hlast ▸ hanswers.isValid, fun hlevel => ?_⟩
  -- The first logger of all is as it was, and has both patterns.
  have hfirst : initial.place? runLogger = some 1 := by decide
  have hfirst (rs : List Request) : Returned α rs 1 :=
    .inl ⟨runLogger, List.mem_cons_self, hfirst⟩
  obtain ⟨l, hl, hold⟩ := hbefore 1 (hfirst qs)
  obtain ⟨l', hl', hnew⟩ := hafter 1 (hfirst (qs ++ [q]))
  rw [after_concat, loggers_next_of_refused htext hlevel, hl] at hl'
  cases hl'
  rw [← hlast]
  exact hnew.pattern_unique hold

/-! ### The settings of all loggers -/

/-- After any requests to the loggers, those refused included, a logger returned once is returned
    again for equal full names and for no others; all loggers returned have one handler each and
    one level, which is the one last asked for if all patterns have directives.  All along the
    requests a logger is returned for any name, and all loggers returned have the level and the
    pattern last asked for, exactly if every request is harmless. -/
theorem settings_shared_iff (α : Type) :
    (∀ qs₁ x qs₂ y p, handed? α x (after α qs₁) = some p →
      (handed? α y (after α (qs₁ ++ .get x :: qs₂)) = some p ↔ fullName x = fullName y)) ∧
    (∀ qs, ∃ level, (PatternsValid qs → level = lastLevel qs) ∧ Levelled α qs level) ∧
    ∀ qs, (∀ qs', qs' <+: qs → Answers α qs' ∧ UpToDate α qs') ↔
      ∀ qs' q, qs' ++ [q] <+: qs → Harmless qs' q := by
  refine ⟨fun qs₁ x qs₂ y p hx => handed?_eq_iff hx, exists_levelled α, fun qs => ?_⟩
  constructor
  · intro h qs' q hq
    have hbefore := h qs' ((List.prefix_append qs' [q]).trans hq)
    have hafter := h (qs' ++ [q]) hq
    exact harmless_of_upToDate hbefore.2 hafter.1 hafter.2
  · intro h qs' hqs'
    exact answers_upToDate_of_harmless fun rs q hq => h rs q (hq.trans hqs')

/-- Two loggers are asked for, and between them the level and the pattern change. -/
def aroundChange : List Request :=
  [.get (some "a"), .setLevel (.named "debug"),
    .configure (.number 20) (some "%(message)s") .standard, .get (some "b")]

/-- Both loggers have the new settings, and the first of them is found under its full name. -/
theorem settings_shared_aroundChange :
    handed? Unit (some "optloop.a") (after Unit aroundChange) = some 3 ∧
      UpToDate Unit aroundChange := by
  have hall := settings_shared_iff Unit
  constructor
  · exact (hall.1 [] (some "a") _ (some "optloop.a") 3 (by decide +kernel)).2 (by decide +kernel)
  · refine ((hall.2.2 aroundChange).2 fun qs' q hq text htext => ?_) _ List.prefix_rfl |>.2
    -- Only one of the requests brings a pattern, and its choice is a level.
    have hmem : q ∈ aroundChange := hq.subset (by simp)
    simp only [aroundChange, List.mem_cons, List.not_mem_nil, or_false] at hmem
    rcases hmem with rfl | rfl | rfl | rfl
    · cases htext
    · cases htext
    · cases htext
      exact ⟨by decide +kernel, fun hlevel => nomatch hlevel⟩
    · cases htext

/-- Two loggers are asked for, and between them a pattern comes with a choice that is no level. -/
def aroundRefusal : List Request :=
  [.get (some "a"), .configure (.named "BASIC_FORMAT") (some "%(message)s") .standard,
    .get (some "b")]

/-- After a refused request with a pattern, no settings are those of all loggers returned. -/
theorem settings_apart : ¬ ∃ level pattern, Shared Unit aroundRefusal level pattern := by
  rintro ⟨level, pattern, h⟩
  have ha : Returned Unit aroundRefusal 3 :=
    .inr ⟨[], some "a", by simp [aroundRefusal], by decide +kernel⟩
  have hb : Returned Unit aroundRefusal 4 :=
    .inr ⟨aroundRefusal.take 2, some "b", List.prefix_rfl, by decide +kernel⟩
  have hsame := (h.patterns ha).trans (h.patterns hb).symm
  -- One of the two patterns has eight pieces, the other a single one.
  have hlengths : ((after Unit aroundRefusal).loggers[3]?.map patterns).map (·.map List.length) ≠
      ((after Unit aroundRefusal).loggers[4]?.map patterns).map (·.map List.length) := by
    decide +kernel
  exact hlengths (congrArg _ hsame)

end Minimization.Logbook
