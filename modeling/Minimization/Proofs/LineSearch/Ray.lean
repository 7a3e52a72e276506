import Minimization.Proofs.LineSearch.Parts
import Minimization.Proofs.Operator.Answers
import Minimization.Proofs.Tensor.Vectors

namespace Minimization

/-!
# Lines of finite numbers

* `Ray` — origin and direction of a line, given by finite numbers; `Ray.point` is the point at a
  step length.
* `Line.On` — a line search that goes along a ray; its points are those of the ray.
* `Line.ends_begin_outset` — what a search knows once it has begun: cost, gradient and slope at the
  origin.  A direction of length zero ends it, and one that does not lead downhill is refused.
* `Line.ends_begin` — the same for an operator whose answers depend on the point alone.
-/

variable {K ω : Type}

/-- A tensor of finite numbers along the given axes. -/
def Tensor.IsReal (b : Backend) (shape : List Nat) (t : Tensor (Exact K)) : Prop :=
  ∃ xs : List K, xs.length = volume shape ∧ t = .real b shape xs

/-- Origin and direction of a line. -/
structure Ray (K : Type) where
  backend : Backend
  shape : List Nat
  origin : List K
  direction : List K
  origin_fits : origin.length = volume shape
  direction_fits : direction.length = volume shape

namespace Ray

/-- The origin as a tensor. -/
def start (r : Ray K) : Tensor (Exact K) := .real r.backend r.shape r.origin

/-- The direction as a tensor. -/
def way (r : Ray K) : Tensor (Exact K) := .real r.backend r.shape r.direction

variable [Field K]

/-- The point at a step length. -/
def point (r : Ray K) (a : K) : Tensor (Exact K) :=
  .real r.backend r.shape (List.zipWith (fun x d => x + a * d) r.origin r.direction)

/-- All points of a ray are of its shape, with real entries. -/
theorem isReal_point (r : Ray K) (a : K) : (r.point a).IsReal r.backend r.shape :=
  ⟨_, by simp [r.origin_fits, r.direction_fits], rfl⟩

/-- The line starts at its origin. -/
theorem point_zero (r : Ray K) : r.point 0 = r.start := by
  have h (xs ds : List K) (hlength : xs.length = ds.length) :
      List.zipWith (fun x d => x + 0 * d) xs ds = xs := by
    refine List.ext_getElem (by simp [hlength]) fun i _ _ => ?_
    simp
  unfold point start
  rw [h _ _ (by rw [r.origin_fits, r.direction_fits])]

/-- The length of the direction; it is not a number where the root is missing. -/
def length [LinearOrder K] [Roots K] (r : Ray K) : Exact K :=
  .ofOption (Roots.root? (List.zipWith (· * ·) r.direction r.direction).sum)

/-- The norm of the direction is its length. -/
theorem norm_way [LinearOrder K] [Roots K] (r : Ray K) :
    r.backend.norm r.way = .ok r.length :=
  Backend.norm_real r.backend r.direction

/-- The direction has length zero. -/
def Still [LinearOrder K] [Roots K] (r : Ray K) : Prop := Scalar.eq r.length 0.0 = true

/-- A direction of length zero is zero. -/
theorem Still.eq_zero [LinearOrder K] [Roots K] [IsStrictOrderedRing K] [LawfulRoots K] {r : Ray K}
    (h : r.Still) : ∀ d ∈ r.direction, d = 0 := by
  -- The length is the root of the sum of squares, so that sum is zero as well.
  have hsquares : (r.direction.map fun d => d * d).sum = 0 := by
    unfold Still length at h
    rw [List.zipWith_self, Exact.lit_zero] at h
    cases hr : Roots.root? (r.direction.map fun d => d * d).sum with
    | none => simp [hr, Exact.ofOption, Scalar.eq, Exact.same] at h
    | some q =>
      rw [hr] at h
      obtain rfl : q = 0 := by simpa [Exact.ofOption] using h
      rw [← LawfulRoots.mul_self_of_root? hr, mul_zero]
  have hnonneg : ∀ x ∈ r.direction.map fun d => d * d, 0 ≤ x := by
    intro x hx
    obtain ⟨d, -, rfl⟩ := List.mem_map.1 hx
    exact mul_self_nonneg d
  intro d hd
  have hzero := List.all_zero_of_le_zero_le_of_sum_eq_zero hnonneg hsquares (List.mem_map_of_mem hd)
  exact mul_self_eq_zero.1 hzero

/-- Along a direction of length zero all points are the origin. -/
theorem Still.point [LinearOrder K] [Roots K] [IsStrictOrderedRing K] [LawfulRoots K] {r : Ray K}
    (h : r.Still) (a : K) : r.point a = r.start := by
  have hzero := h.eq_zero
  have hlength : r.direction.length = r.origin.length := by rw [r.direction_fits, r.origin_fits]
  unfold Ray.point start
  congr 1
  refine List.ext_getElem (by simp [hlength]) fun i _ hi => ?_
  simp [hzero _ (List.getElem_mem (hlength ▸ hi))]

/-- The line through a vector along another one. -/
def ofVec (b : Backend) {n : Nat} (x d : Fin n → K) : Ray K where
  backend := b
  shape := [n]
  origin := List.ofFn x
  direction := List.ofFn d
  origin_fits := by simp [volume]
  direction_fits := by simp [volume]

/-- In coordinates a point is the start and a multiple of the direction. -/
theorem point_ofVec (b : Backend) {n : Nat} (x d : Fin n → K) (a : K) :
    (ofVec b x d).point a = Tensor.ofVec b (x + a • d) := by
  show Tensor.real b [n] (List.zipWith _ (List.ofFn x) (List.ofFn d)) = _
  rw [zipWith_ofFn]
  rfl

end Ray

namespace Line

variable [Field K] [LinearOrder K] [Roots K]

/-- A search goes along a ray; cost, gradient and slope are known at the origin. -/
structure On (r : Ray K) (cost : Exact K) (gradient : Tensor (Exact K)) (slope : Exact K)
    (l : Line (Exact K)) : Prop where
  direction : l.direction = some r.way
  start : l.start = some ⟨r.start, cost, gradient, slope⟩

variable {r : Ray K} {cost slope : Exact K} {gradient : Tensor (Exact K)} {l : Line (Exact K)}

omit [Field K] [LinearOrder K] [Roots K] in
/-- The start of the line is the start of the ray. -/
theorem On.requireStart (h : On r cost gradient slope l) :
    l.requireStart = .ok ⟨r.start, cost, gradient, slope⟩ := by
  simp [Line.requireStart, h.start]

/-- The line has the points of the ray. -/
theorem On.point (h : On r cost gradient slope l) (a : K) :
    l.point (.finite a) = .ok (r.point a) := by
  have hadd : r.backend.scaledAdd (.real r.backend r.shape r.origin) (.finite a)
      (.real r.backend r.shape r.direction) = .ok (r.point a) := Backend.scaledAdd_real ..
  simp [Line.point, h.requireStart, h.direction, bind, Except.bind, Ray.start, Ray.way, hadd]

/-- Its slopes are products with the direction of the ray. -/
theorem On.slopeOf (h : On r cost gradient slope l) (g : Tensor (Exact K)) :
    l.slopeOf g = r.backend.dot g r.way := by
  simp [Line.slopeOf, h.requireStart, h.direction, bind, Except.bind, Ray.start]

/-- A line search that has just begun. -/
def begun (r : Ray K) (cost : Exact K) (gradient : Tensor (Exact K)) (slope : Exact K)
    (l : Line (Exact K)) : Line (Exact K) :=
  { l with start := some ⟨r.start, cost, gradient, slope⟩, trials := 0, done := none }

omit [Field K] [LinearOrder K] [Roots K] in
/-- A line aimed along the ray is on it when it begins. -/
theorem On.begun (h : l.direction = some r.way) :
    On r cost gradient slope (begun r cost gradient slope l) := ⟨h, rfl⟩

omit [Field K] [LinearOrder K] [Roots K] in
/-- It stays on the ray when it is done. -/
theorem On.finish (h : On r cost gradient slope l) (reason : Reason) :
    On r cost gradient slope (l.finish reason) := ⟨h.direction, h.start⟩

omit [Field K] [LinearOrder K] [Roots K] in
/-- It stays on the ray when a trial is counted. -/
theorem On.countTrial (h : On r cost gradient slope l) : On r cost gradient slope l.countTrial :=
  ⟨h.direction, h.start⟩

variable {E : Failure (Exact K) → Prop} {session : Session ω}

/-- A search that has begun goes along its ray and has not made a trial.  It is over at once if the
    direction has length zero; otherwise the direction leads downhill. -/
theorem ends_settle
    (hdot : ∀ e, r.backend.dot gradient r.way = .error e → E e)
    (hdescent : ∀ slope, r.backend.dot gradient r.way = .ok slope →
      r.Still ∨ Scalar.lt slope 0.0 = true ∨ E (.invalid .notDescent)) :
    (settle r.start r.way cost gradient : Action (Workspace (Line (Exact K)) ω) _ _).Ends
      ⟨l, session⟩
      (fun report w =>
        report = { param := some r.start, cost := some cost, gradient := some gradient } ∧
        ∃ slope, r.backend.dot gradient r.way = .ok slope ∧
          (r.Still ∧ w.solver = (begun r cost gradient slope l).finish .lineSearchCondition ∨
            ¬r.Still ∧ Scalar.lt slope 0.0 = true ∧
              w.solver = begun r cost gradient slope l)) E := by
  refine ends_settle_of hdot (fun e he => ?_) (fun slope length hslope hnorm hmoving hflat => ?_)
    fun slope length hslope hnorm hbegins => ⟨rfl, slope, hslope, ?_⟩
  · cases r.norm_way.symm.trans he
  · -- The direction is refused, so this must be a failure that is expected.
    obtain rfl := Except.ok.inj (hnorm.symm.trans r.norm_way)
    obtain h | h | h := hdescent slope hslope
    · cases h.symm.trans hmoving
    · cases h.symm.trans hflat
    · exact h
  · obtain rfl := Except.ok.inj (hnorm.symm.trans r.norm_way)
    unfold settled
    by_cases hstill : Scalar.eq r.length 0.0 = true
    · -- Along no direction nothing is searched, whatever the slope is.
      rw [if_pos hstill]
      exact .inl ⟨hstill, rfl⟩
    · rw [if_neg hstill]
      exact .inr ⟨hstill, hbegins.resolve_left hstill, rfl⟩

/-- What a search can rely on at the origin of its ray: the cost there satisfies `C` and the gradient
    `G`, whether they are known or evaluated, and all failures satisfy `E`. -/
structure Outset (A : Setting ω (Exact K)) (r : Ray K) (p : Progress (Exact K))
    (C : Exact K → Prop) (G : Tensor (Exact K) → Prop) (E : Failure (Exact K) → Prop) : Prop where
  param : p.param = r.start
  cost : ∀ t : Session ω, (Session.knownCost A p).Ends t (fun c _ => C c) E
  gradient : ∀ t : Session ω, (Session.knownGradient A p).Ends t (fun v _ => G v) E
  slope : ∀ v e, G v → r.backend.dot v r.way = .error e → E e

variable {A : Setting ω (Exact K)} {p : Progress (Exact K)}

/-- **A search begins** with cost, gradient and slope at the origin of its ray. -/
theorem ends_begin_outset {C : Exact K → Prop} {G : Tensor (Exact K) → Prop} (name : String)
    (hA : Outset A r p C G E) (hl : l.direction = some r.way)
    (hdescent : ∀ v slope, G v → r.backend.dot v r.way = .ok slope →
      r.Still ∨ Scalar.lt slope 0.0 = true ∨ E (.invalid .notDescent)) :
    (Line.begin name A p).Ends ⟨l, session⟩
      (fun report w => ∃ c v slope, C c ∧ G v ∧ r.backend.dot v r.way = .ok slope ∧
        report = { param := some r.start, cost := some c, gradient := some v } ∧
        (r.Still ∧ w.solver = (begun r c v slope l).finish .lineSearchCondition ∨
          ¬r.Still ∧ Scalar.lt slope 0.0 = true ∧ w.solver = begun r c v slope l)) E := by
  rw [ends_begin_iff_of_direction hl]
  refine (hA.cost session).mono fun c t hc => ?_
  refine (hA.gradient t).mono fun v u hv => ?_
  rw [hA.param]
  refine (ends_settle (fun e => hA.slope v e hv) fun slope => hdescent v slope hv).mono ?_
  rintro report w ⟨hreport, slope, hslope, hw⟩
  exact ⟨c, v, slope, hc, hv, hslope, hreport, hw⟩

/-- What a search along a ray can rely on: at tensors of finite numbers the operator answers by `f`
    and `g`, and slopes exist, or else a failure is of the expected kind. -/
structure Terrain (A : Setting ω (Exact K)) (r : Ray K) (f : Tensor (Exact K) → Exact K)
    (g : Tensor (Exact K) → Tensor (Exact K)) (E : Failure (Exact K) → Prop) : Prop where
  cost : Answers A.operator.cost (Tensor.IsReal r.backend r.shape) f E
  gradient : Answers A.operator.gradient (Tensor.IsReal r.backend r.shape) g E
  slope : ∀ a e, r.backend.dot (g (r.point a)) r.way = .error e → E e

/-- What is known when a search begins at the point of a run: the point is the origin, and cost and
    gradient are the operator's there, or are not known. -/
structure Knows (r : Ray K) (f : Tensor (Exact K) → Exact K)
    (g : Tensor (Exact K) → Tensor (Exact K)) (p : Progress (Exact K)) : Prop where
  param : p.param = r.start
  cost : Scalar.isInfinite p.cost = true ∨ p.cost = f r.start
  gradient : ∀ v, p.gradient = some v → v = g r.start

variable {f : Tensor (Exact K) → Exact K} {g : Tensor (Exact K) → Tensor (Exact K)}

/-- Cost and gradient at the origin are the operator's. -/
theorem Terrain.outset (hA : Terrain A r f g E) (hp : Knows r f g p) :
    Outset A r p (· = f r.start) (· = g r.start) E where
  param := hp.param
  cost t := by
    unfold Session.knownCost
    -- Cost and gradient are evaluated unless they are known already.
    split
    · rw [hp.param]
      exact Session.ends_cost hA.cost ⟨_, r.origin_fits, rfl⟩
    · next hfinite =>
      exact hp.cost.resolve_left hfinite
  gradient t := by
    unfold Session.knownGradient
    cases hv : p.gradient with
    | some v => exact hp.gradient v hv
    | none =>
      dsimp only
      rw [hp.param]
      exact Session.ends_gradient hA.gradient ⟨_, r.origin_fits, rfl⟩
  slope := by
    rintro v e rfl he
    exact hA.slope 0 e (r.point_zero.symm ▸ he)

/-- A search begins with cost, gradient and slope of the operator at the origin of its ray. -/
theorem ends_begin (name : String) (hA : Terrain A r f g E) (hp : Knows r f g p)
    (hl : l.direction = some r.way)
    (hdescent : ∀ slope, r.backend.dot (g r.start) r.way = .ok slope →
      r.Still ∨ Scalar.lt slope 0.0 = true ∨ E (.invalid .notDescent)) :
    (Line.begin name A p).Ends ⟨l, session⟩
      (fun report w => report =
          { param := some r.start, cost := some (f r.start), gradient := some (g r.start) } ∧
        ∃ slope, r.backend.dot (g r.start) r.way = .ok slope ∧
          (r.Still ∧ w.solver =
              (begun r (f r.start) (g r.start) slope l).finish .lineSearchCondition ∨
            ¬r.Still ∧ Scalar.lt slope 0.0 = true ∧
              w.solver = begun r (f r.start) (g r.start) slope l)) E := by
  refine (ends_begin_outset name (hA.outset hp) hl ?_).mono ?_
  · rintro v slope rfl
    exact hdescent slope
  · rintro report w ⟨c, v, slope, rfl, rfl, hslope, hreport, hw⟩
    exact ⟨hreport, slope, hslope, hw⟩

end Line

end Minimization
