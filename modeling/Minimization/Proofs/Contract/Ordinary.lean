import Minimization.Proofs.Method.Parts

namespace Minimization

/-!
# Ordinary computations

Apart from the runs inside it, a solver of the library is put together from few things: it asks for
evaluations, writes lines, calculates, and reads and changes its memory.  It does not look at the
operator in any other way, so that it does the same whatever the operator is.  Its calculations may
fail, but none fails as if the user had asked to stop.

Such computations are told here by the way in which they are put together.  What is true of all of them
is then shown once, by induction, with one case for each building block: that two of them keep to a bond
of sessions, that they do not fail as if they had been interrupted, what they leave in the memory.  And
that a solver is ordinary is shown once for each of its parts.

* `Uninterrupted` — a calculation does not fail as if it had been interrupted;
  `Backend.uninterrupted_add` and the lemmas beside it say so of the operations of a backend,
  `ProgressOn.uninterrupted_requireGradient` and its neighbours of what is asked of a progress or of a
  memory.
* `Dogleg.uninterrupted_path`, `Newton.uninterrupted_target`, `QuasiNewton.uninterrupted_revision`,
  `TrustRegion.uninterrupted_predictedDecrease` — the calculations of the solvers.
* `Uniform` — a computation for every kind of operator.
* `Inquiry` — it evaluates and writes lines.
* `Ordinary` — it uses the memory of a solver as well, of which something is kept.
* `Ordinary.calculated` — a calculation alone.
* `Solver.Ordinary` — a solver all parts of which are ordinary.
-/

section Calculations

variable {α β γ : Type}

/-- The calculation does not fail as if the user had asked to stop. -/
def Uninterrupted (x : Except (Failure α) β) : Prop := ∀ e, x = .error e → e ≠ .interrupted

namespace Uninterrupted

/-- A result is no failure. -/
theorem ok (b : β) : Uninterrupted (.ok b : Except (Failure α) β) := nofun

/-- The same as a calculation. -/
theorem pure (b : β) : Uninterrupted (Pure.pure b : Except (Failure α) β) := nofun

/-- A failure of another kind. -/
theorem error {e : Failure α} (h : e ≠ .interrupted) :
    Uninterrupted (.error e : Except (Failure α) β) := by
  rintro _ ⟨⟩
  exact h

/-- One calculation after another. -/
theorem bind {x : Except (Failure α) β} {f : β → Except (Failure α) γ} (hx : Uninterrupted x)
    (hf : ∀ b, Uninterrupted (f b)) : Uninterrupted (x >>= f) := by
  cases x with
  | error e => exact .error (hx e rfl)
  | ok b => exact hf b

end Uninterrupted

/-! ### Operations of a backend -/

namespace Backend

/-- Shapes that do not fit together are refused as such. -/
theorem uninterrupted_fit (b : Backend) (x : Option β) :
    Uninterrupted (b.fit x : Except (Failure α) β) := by
  unfold fit
  split
  · exact .ok _
  · exact .error nofun

/-- So are tensors of two backends. -/
theorem uninterrupted_between (x y : Tensor α) : Uninterrupted (between x y) := by
  unfold between
  split
  · exact .error nofun
  · exact .ok _
  · exact .ok _

/-- So is a tensor that a backend cannot convert. -/
theorem uninterrupted_take (b : Backend) (x : Tensor α) : Uninterrupted (b.take x) := by
  unfold take
  split
  · exact .ok _
  · exact .ok _
  · exact .error nofun

variable [Scalar α]

/-- To add fails if backends or shapes do not agree. -/
theorem uninterrupted_add (x y : Tensor α) : Uninterrupted (add x y) :=
  .bind (uninterrupted_between x y) fun b => uninterrupted_fit b _

/-- So does to subtract. -/
theorem uninterrupted_sub (x y : Tensor α) : Uninterrupted (sub x y) :=
  .bind (uninterrupted_between x y) fun b => uninterrupted_fit b _

/-- So does the product of a matrix and a vector. -/
theorem uninterrupted_apply (m v : Tensor α) : Uninterrupted (apply m v) :=
  .bind (uninterrupted_between m v) fun b => uninterrupted_fit b _

/-- A product that is no number is refused as well. -/
theorem uninterrupted_contract (x y : Tensor α) : Uninterrupted (contract x y) := by
  unfold contract
  split
  · exact .error nofun
  · split
    · exact .error nofun
    · split
      · split
        · exact .ok _
        · exact .error nofun
      · exact .ok _

/-- Each backend has its own way to refuse an inner product. -/
theorem uninterrupted_dot (b : Backend) (x y : Tensor α) : Uninterrupted (b.dot x y) := by
  refine .bind (uninterrupted_take b x) fun x => .bind (uninterrupted_take b y) fun y => ?_
  cases b with
  | array => exact uninterrupted_contract x y
  | tensor =>
    dsimp only
    split
    · exact .pure _
    · exact .error nofun

/-- A length can only fail where the tensor cannot be converted. -/
theorem uninterrupted_norm (b : Backend) (x : Tensor α) : Uninterrupted (b.norm x) :=
  .bind (uninterrupted_take b x) fun _ => .pure _

/-- A quadratic form is a product of products. -/
theorem uninterrupted_weightedDot (b : Backend) (x m y : Tensor α) :
    Uninterrupted (b.weightedDot x m y) :=
  .bind (uninterrupted_apply m y) fun _ => uninterrupted_dot b x _

/-- The outer product needs two vectors. -/
theorem uninterrupted_outer (b : Backend) (x y : Tensor α) : Uninterrupted (b.outer x y) := by
  refine .bind (uninterrupted_take b x) fun x => .bind (uninterrupted_take b y) fun y => ?_
  split
  · exact .pure _
  · exact .error nofun

/-- The identity needs a shape to be like. -/
theorem uninterrupted_eyeLike (b : Backend) (x : Tensor α) : Uninterrupted (b.eyeLike x) := by
  unfold eyeLike
  split
  · exact .error (by rintro ⟨⟩)
  · exact .bind (uninterrupted_take b x) fun _ => .pure _

omit [Scalar α] in
/-- Only square matrices can be inverted. -/
theorem uninterrupted_squareAxes? (b : Backend) (shape : List Nat) :
    Uninterrupted (b.squareAxes? shape : Except (Failure α) _) := by
  unfold squareAxes?
  cases b <;> dsimp only <;> split
  · split
    · exact .ok _
    · exact .error nofun
  · exact .error nofun
  · split
    · exact .ok _
    · exact .error nofun
  · exact .error nofun

/-- **A singular matrix** is refused as a numerical failure. -/
theorem uninterrupted_inv (b : Backend) (m : Tensor α) : Uninterrupted (b.inv m) := by
  refine .bind (uninterrupted_take b m) fun m => ?_
  refine .bind (uninterrupted_squareAxes? b m.shape) fun (batch, n) => ?_
  dsimp only
  split
  · exact .pure _
  · cases b with
    | array => exact .error nofun
    | tensor => exact .error nofun

end Backend

/-! ### What is asked of a progress or of a memory -/

/-- A gradient that is missing is an error of its own kind. -/
theorem ProgressOn.uninterrupted_requireGradient {ρ : Type} (p : ProgressOn ρ α) :
    Uninterrupted p.requireGradient := by
  unfold requireGradient
  split
  · exact .ok _
  · exact .error nofun

/-- So is a Hessian. -/
theorem ProgressOn.uninterrupted_requireHessian {ρ : Type} (p : ProgressOn ρ α) :
    Uninterrupted p.requireHessian := by
  unfold requireHessian
  split
  · exact .ok _
  · exact .error nofun

/-- So is the direction of a line. -/
theorem Line.uninterrupted_requireDirection (name : String) (l : Line α) :
    Uninterrupted (l.requireDirection name) := by
  unfold requireDirection
  split
  · exact .ok _
  · exact .error nofun

/-- So is its start, before a search has begun. -/
theorem Line.uninterrupted_requireStart (l : Line α) : Uninterrupted l.requireStart := by
  unfold requireStart
  split
  · exact .ok _
  · exact .error nofun

/-- So is the bracket of a search. -/
theorem StrongWolfe.uninterrupted_requireBracket (s : StrongWolfe α) :
    Uninterrupted s.requireBracket := by
  unfold requireBracket
  split
  · exact .ok _
  · exact .error nofun

/-- An object that is no line search cannot be given a direction. -/
theorem LineSearch.uninterrupted_setDirection (direction : Option (Tensor α)) (s : LineSearch α) :
    Uninterrupted (s.setDirection direction) := by
  cases s with
  | backtracking s => exact .ok _
  | strongWolfe s => exact .ok _
  | unsuited text => exact .error nofun

/-- Neither can one that is no subproblem be given a radius. -/
theorem Subproblem.uninterrupted_setRadius (r : α) (s : Subproblem α) :
    Uninterrupted (s.setRadius r) := by
  cases s with
  | dogleg s => exact .ok _
  | unsuited text radius => exact .error nofun

section
variable [Scalar α]

namespace Line

/-- A point along a line is a sum. -/
theorem uninterrupted_point (l : Line α) (step : α) : Uninterrupted (l.point step) := by
  refine .bind l.uninterrupted_requireStart fun s => ?_
  split
  · exact Backend.uninterrupted_add _ _
  · exact Backend.uninterrupted_add _ _
  · exact .error nofun

/-- A slope along it is an inner product. -/
theorem uninterrupted_slopeOf (l : Line α) (gradient : Tensor α) :
    Uninterrupted (l.slopeOf gradient) := by
  refine .bind l.uninterrupted_requireStart fun s => ?_
  split
  · exact Backend.uninterrupted_dot _ _ _
  · exact .error nofun
  · exact .error nofun

end Line

/-- What is reported of a bracket is one of these points. -/
theorem StrongWolfe.uninterrupted_report (s : StrongWolfe α) : Uninterrupted s.report :=
  .bind s.uninterrupted_requireBracket fun _ => .bind (s.line.uninterrupted_point _) fun _ => .pure _

/-! ### Compositions -/

/-- The square of a radius may overflow, which is an error of its own. -/
theorem Dogleg.uninterrupted_squaredRadius (s : Dogleg α) : Uninterrupted s.squaredRadius := by
  unfold squaredRadius
  split
  · exact .ok _
  · exact .error nofun

/-- **The end of the dogleg path** is found by solving an equation, which may have no solution. -/
theorem Dogleg.uninterrupted_path (b : Backend) (s : Dogleg α) (g h : Tensor α) :
    Uninterrupted (path b s g h) := by
  refine .bind (Backend.uninterrupted_inv b h) fun inverse => ?_
  refine .bind (Backend.uninterrupted_apply inverse g) fun image => ?_
  refine .bind (Backend.uninterrupted_norm b _) fun length => ?_
  split
  · exact .pure _
  refine .bind (Backend.uninterrupted_dot b g g) fun gg => ?_
  refine .bind (Backend.uninterrupted_weightedDot b g h g) fun ghg => ?_
  refine .bind (Backend.uninterrupted_dot b _ _) fun utu => ?_
  refine .bind (Backend.uninterrupted_dot b _ _) fun btb => ?_
  refine .bind (Backend.uninterrupted_dot b _ _) fun utb => ?_
  refine .bind s.uninterrupted_squaredRadius fun delta => ?_
  dsimp only
  split
  · exact .pure _
  · split
    · exact .bind (Backend.uninterrupted_sub _ _) fun leg =>
        .bind (Backend.uninterrupted_add _ _) fun step => .pure _
    -- A step that leads nowhere is a failure, but not an interrupt.
    · exact .error nofun

/-- The update of an inverse Hessian is made of products and sums. -/
theorem uninterrupted_secantUpdate (h s y : Tensor α) : Uninterrupted (secantUpdate h s y) := by
  refine .bind (Backend.uninterrupted_dot _ y s) fun curvature => ?_
  dsimp only
  split
  · refine .bind (Backend.uninterrupted_eyeLike _ h) fun identity => ?_
    refine .bind (Backend.uninterrupted_outer _ s y) fun left => ?_
    refine .bind (Backend.uninterrupted_sub _ _) fun before => ?_
    refine .bind (Backend.uninterrupted_sub _ _) fun after => ?_
    refine .bind (Backend.uninterrupted_outer _ s s) fun correction => ?_
    refine .bind (Backend.uninterrupted_apply _ _) fun middle => ?_
    refine .bind (Backend.uninterrupted_apply _ _) fun product => ?_
    exact .bind (Backend.uninterrupted_add _ _) fun updated => .pure _
  · exact .pure _

/-- So is all of what is calculated after a search. -/
theorem QuasiNewton.uninterrupted_revision (h x g x' g' : Tensor α) :
    Uninterrupted (revision h x g x' g') :=
  .bind (Backend.uninterrupted_sub _ _) fun _ => .bind (Backend.uninterrupted_sub _ _) fun _ =>
    uninterrupted_secantUpdate h _ _

/-- A Newton step inverts, applies and subtracts. -/
theorem Newton.uninterrupted_target (s : Newton α) (x g h : Tensor α) :
    Uninterrupted (s.target x g h) :=
  .bind (Backend.uninterrupted_inv _ h) fun _ => .bind (Backend.uninterrupted_apply _ g) fun _ =>
    Backend.uninterrupted_sub _ _

/-- The stopping rules need a gradient. -/
theorem QuasiNewton.uninterrupted_terminate (p : Progress α) : Uninterrupted (terminate p) := by
  refine .bind p.uninterrupted_requireGradient fun gradient => ?_
  refine .bind (Backend.uninterrupted_norm _ gradient) fun length => ?_
  split
  · exact .pure _
  · split
    · exact .pure _
    · exact .pure _

/-- The decrease that a model predicts is made of two products. -/
theorem TrustRegion.uninterrupted_predictedDecrease (b : Backend) (cost : α)
    (gradient hessian step : Tensor α) :
    Uninterrupted (predictedDecrease b cost gradient hessian step) :=
  .bind (Backend.uninterrupted_dot b gradient step) fun _ =>
    .bind (Backend.uninterrupted_weightedDot b step hessian step) fun _ => .pure _

/-- The rules of a trust-region method need a gradient as well. -/
theorem TrustRegion.uninterrupted_terminate (s : TrustRegion α) (p : Progress α) :
    Uninterrupted (terminate s p) := by
  refine .bind p.uninterrupted_requireGradient fun gradient => ?_
  refine .bind (Backend.uninterrupted_norm _ gradient) fun length => ?_
  split
  · exact .pure _
  · split
    · exact .pure _
    · exact .pure _

end

end Calculations

/-! ### What a solver is put together from -/

/-- A computation that is given for every kind of operator. -/
abbrev Uniform (α : Type) (S : Type → Type) (β : Type) : Type 1 :=
  (ω : Type) → Setting ω α → Action (S ω) α β

/-- A computation that evaluates the operator and writes lines, and does nothing else. -/
inductive Inquiry {α : Type} : {β : Type} → Uniform α Session β → Prop where
  | pure {β : Type} (b : β) : Inquiry fun _ _ => Pure.pure b
  | bind {β γ : Type} {m : Uniform α Session β} {f : β → Uniform α Session γ} (hm : Inquiry m)
      (hf : ∀ b, Inquiry (f b)) : Inquiry fun ω A => m ω A >>= fun b => f b ω A
  | cost (x : Tensor α) : Inquiry fun _ A => Session.cost A.operator x
  | gradient (x : Tensor α) : Inquiry fun _ A => Session.gradient A.operator x
  | hessian (x : Tensor α) : Inquiry fun _ A => Session.hessian A.operator x
  | log (level : Int) (logger : String) (message : Unit → String) :
      Inquiry fun _ _ => Session.log level logger message

/-- A computation of a solver that makes inquiries, calculates, and uses its memory, for which `I` holds
    before and after.  It fails in other ways than by an interrupt. -/
inductive Ordinary {α : Type} : {σ : Type} → (σ → Prop) → {β : Type} → Uniform α (Workspace σ) β →
    Prop where
  | pure {σ β : Type} {I : σ → Prop} (b : β) : Ordinary I fun _ _ => Pure.pure b
  | throw {σ β : Type} {I : σ → Prop} {e : Failure α} (he : e ≠ .interrupted) :
      Ordinary (β := β) I fun _ _ => MonadExcept.throw e
  | bind {σ β γ : Type} {I : σ → Prop} {m : Uniform α (Workspace σ) β}
      {f : β → Uniform α (Workspace σ) γ} (hm : Ordinary I m) (hf : ∀ b, Ordinary I (f b)) :
      Ordinary I fun ω A => m ω A >>= fun b => f b ω A
  /-- What has come out of the calculation is known to what follows it. -/
  | calculating {σ β γ : Type} {I : σ → Prop} {x : Except (Failure α) β}
      {f : β → Uniform α (Workspace σ) γ} (hx : Uninterrupted x)
      (hf : ∀ b, x = .ok b → Ordinary I (f b)) :
      Ordinary I fun ω A => Action.ofExcept x >>= fun b => f b ω A
  /-- So is what has been read. -/
  | reading {σ β : Type} {I : σ → Prop} {f : σ → Uniform α (Workspace σ) β}
      (hf : ∀ s, I s → Ordinary I (f s)) :
      Ordinary I fun ω A => Workspace.readSolver >>= fun s => f s ω A
  | modifying {σ : Type} {I : σ → Prop} {f : σ → σ} (hf : ∀ s, I s → I (f s)) :
      Ordinary I fun _ _ => Workspace.modifySolver f
  | onSession {σ β : Type} {I : σ → Prop} {m : Uniform α Session β} (hm : Inquiry m) :
      Ordinary I fun ω A => Workspace.onSession (m ω A)
  /-- Work on a part of the memory. -/
  | within {σ τ β : Type} {I : σ → Prop} {J : τ → Prop} {part : σ → τ} {put : τ → σ → σ}
      {m : Uniform α (Workspace τ) β} (hpart : ∀ s, I s → J (part s))
      (hput : ∀ y s, I s → J y → I (put y s)) (hm : Ordinary J m) :
      Ordinary I fun ω A => Workspace.within part put (m ω A)
  /-- Work with a memory that takes the place of the whole. -/
  | wrapping {σ τ β : Type} {I : σ → Prop} {J : τ → Prop} {wrap : τ → σ} {x : τ}
      {m : Uniform α (Workspace τ) β} (hx : J x) (hwrap : ∀ y, J y → I (wrap y)) (hm : Ordinary J m) :
      Ordinary I fun ω A => Workspace.wrapping wrap x (m ω A)

variable {σ α β : Type}

/-- A calculation alone. -/
theorem Ordinary.calculated {I : σ → Prop} {x : Except (Failure α) β} (hx : Uninterrupted x) :
    Ordinary I fun _ _ => Action.ofExcept x := by
  have h : Ordinary I fun _ _ => Action.ofExcept x >>= fun b => Pure.pure b :=
    .calculating hx fun b _ => .pure b
  simp only [bind_pure] at h
  exact h

/-- All parts of a solver are ordinary. -/
structure Solver.Ordinary (I : σ → Prop) (S : (ω : Type) → Solver σ ω α) : Prop where
  name : ∀ ω ω', (S ω').name = (S ω).name
  init : ∀ p, Minimization.Ordinary I fun ω A => (S ω).init A p
  step : ∀ p, Minimization.Ordinary I fun ω A => (S ω).step A p
  terminate : ∀ p, Minimization.Ordinary I fun ω _ => (S ω).terminate p

end Minimization
