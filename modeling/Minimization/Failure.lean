import Minimization.Backend.Basic
import Minimization.Capability

namespace Minimization

/-!
# Why a computation fails

* `Failure` — the causes of failure, grouped by the kind that callers tell apart.
* `Failure.message?` — the wording, for the failures that have one.
* `Failure.Kind` — the kinds, their names, and the more general kinds each belongs to.

The wording lives here and nowhere else.
-/

/-- A setting that is out of range. -/
inductive InvalidParameter where
  | negativeIterationCap
  | undefinedTargetCost
  | stepLength
  | trialCap
  | decreaseConstant
  | shrinkFactor
  | wolfeConstants
  | notDescent
  | damping
  | radius
  | maximalRadius
  | acceptance
  | observerInterval
  | differenceStep
deriving Repr, DecidableEq

/-- The wording for a setting that is out of range. -/
def InvalidParameter.message : InvalidParameter → String
  | .negativeIterationCap => "max_iters must be non-negative"
  | .undefinedTargetCost => "target_cost must not be NaN"
  | .stepLength => "initial step length must be positive"
  | .trialCap => "max_trials must be at least 1"
  | .decreaseConstant => "Armijo constant c must lie in (0, 1)"
  | .shrinkFactor => "rho must lie in (0, 1)"
  | .wolfeConstants => "Require 0 < c1 < c2 < 1 for Wolfe conditions."
  | .notDescent => "Search direction must be a descent direction."
  | .damping => "Newton: gamma must be in (0, 1]."
  | .radius => "radius must be positive"
  | .maximalRadius => "max_radius must be at least the initial radius"
  | .acceptance => "eta must lie in [0, 0.25)"
  | .observerInterval => "observer interval must be at least 1"
  | .differenceStep => "eps must be positive"

/-- A matrix that has no inverse, as each backend reports it. -/
inductive InversionFailure where
  | singular
  /-- The position of a pivot that is zero, and the place of its matrix if there are several. -/
  | zeroPivot (place : Option Nat) (position : Nat)
  | notSquare
  | tooFewAxes (axes : Nat)
deriving Repr, DecidableEq

/-- The wording for a failed inversion. -/
def InversionFailure.message : InversionFailure → String
  | .singular => "Singular matrix"
  | .zeroPivot place position =>
    let which := match place with
      | some i => "(Batch element " ++ toString i ++ "): "
      | none => ""
    "linalg.inv: " ++ which ++ "The diagonal element " ++ toString position ++
      " is zero, the inversion could not be completed because the input matrix is singular."
  | .notSquare => "Last 2 dimensions of the array must be square"
  | .tooFewAxes axes =>
    toString axes ++ "-dimensional array given. Array must be at least two-dimensional"

/-- A numerical routine that gave no usable result. -/
inductive NumericalFailure where
  | inversion (cause : InversionFailure)
  | undefinedCost (solver : String) (iteration : Nat)
deriving Repr, DecidableEq

/-- The wording for a numerical failure. -/
def NumericalFailure.message : NumericalFailure → String
  | .inversion cause => "matrix inversion failed: " ++ cause.message
  | .undefinedCost solver iteration =>
    solver ++ " produced a NaN cost at iteration " ++ toString iteration

/-- A violated invariant: a misuse of the library, or corrupted numbers. -/
inductive ImpossibleState (α : Type) where
  | gradientMissing
  | hessianMissing
  | alreadyTerminated (reason : String)
  | wrappedTwice
  | alreadyConsumed
  | selfConsumption
  | directionMissing (solver : String)
  | radiusMissing
  | pathParameter (tau : α)
  | counterDecreased (capability : Capability)
deriving Repr, DecidableEq

/-- The wording for a violated invariant; `text` writes numbers. -/
def ImpossibleState.message {α : Type} (text : α → String) : ImpossibleState α → String
  | .gradientMissing => "gradient requested before it was computed"
  | .hessianMissing => "Hessian requested before it was computed"
  | .alreadyTerminated reason => "run already terminated with " ++ reason
  | .wrappedTwice => "refusing to wrap an OpWrapper twice"
  | .alreadyConsumed => "operator wrapper has already been consumed"
  | .selfConsumption => "an operator wrapper cannot consume itself"
  | .directionMissing solver => solver ++ ": search direction not set"
  | .radiusMissing => "Dogleg: radius has not been set"
  | .pathParameter tau =>
    "Dogleg: tau = " ++ text tau ++ " lies outside [0, 2]; gradient or Hessian is corrupted"
  | .counterDecreased capability => capability.counter ++ " evaluation counter decreased"

/-- Why a computation fails; numbers of type `α` occur in it. -/
inductive Failure (α : Type) where
  | invalid (cause : InvalidParameter)
  /-- The operator of this name does not provide the capability. -/
  | unsupported (operator : String) (capability : Capability)
  | numerical (cause : NumericalFailure)
  | impossible (cause : ImpossibleState α)
  /-- The operator gave up with a text of its own. -/
  | operator (text : String)
  /-- Shapes do not fit together. -/
  | shapes (backend : Backend)
  /-- A value outside a fixed set, such as an unknown file format. -/
  | unknownValue
  /-- Something that is no number, or numbers of the wrong kind, where a number is needed. -/
  | notANumber
  | indexOutOfRange
  /-- A name that is not in a table. -/
  | unknownName
  /-- The object has no such setting or operation, or is not ready for it. -/
  | noSuchSetting
  /-- A matrix routine was given something that is not a matrix. -/
  | notAMatrix
  | divisionByZero
  | overflow
  /-- A file in a directory that does not exist. -/
  | missingDirectory
  /-- A file with a name that no file can have. -/
  | impossibleFile
  /-- The user asked to stop; no error in itself. -/
  | interrupted
deriving Repr, DecidableEq

namespace Failure

variable {α : Type}

/-- The wording of a failure, for those that have one; `text` writes numbers. -/
def message? (text : α → String) : Failure α → Option String
  | .invalid cause => some cause.message
  | .unsupported name capability =>
    some (name ++ " does not implement " ++ capability.question)
  | .numerical cause => some cause.message
  | .impossible cause => some (cause.message text)
  | .operator words => some words
  | _ => none

/-- Everything but a request of the user to stop is an error. -/
def isError : Failure α → Bool
  | .interrupted => false
  | _ => true

/-- The kinds of failure that callers tell apart. -/
inductive Kind where
  | library
  | invalidParameter
  | unsupportedOperator
  | numericalFailure
  | impossibleState
  | operatorFailure
  | value
  | runtime
  | type
  | index
  | key
  | setting
  | linearAlgebra
  | zeroDivision
  | overflow
  | missingFile
  | system
  | interrupt
deriving Repr, DecidableEq

/-- The name of a kind. -/
def Kind.name : Kind → String
  | .library => "OptloopError"
  | .invalidParameter => "InvalidParameterError"
  | .unsupportedOperator => "NotImplementedOperatorError"
  | .numericalFailure => "NumericalFailureError"
  | .impossibleState => "ImpossibleStateError"
  | .operatorFailure => "OperatorFailure"
  | .value => "ValueError"
  | .runtime => "RuntimeError"
  | .type => "TypeError"
  | .index => "IndexError"
  | .key => "KeyError"
  | .setting => "AttributeError"
  | .linearAlgebra => "LinAlgError"
  | .zeroDivision => "ZeroDivisionError"
  | .overflow => "OverflowError"
  | .missingFile => "FileNotFoundError"
  | .system => "OSError"
  | .interrupt => "KeyboardInterrupt"

/-- The kinds that the library itself raises, the general one first. -/
def Kind.own : List Kind :=
  [.library, .invalidParameter, .unsupportedOperator, .numericalFailure, .impossibleState]

/-- The general kinds between a kind of the library and the root of all errors. -/
def Kind.parents : Kind → List String
  | .invalidParameter => [Kind.library.name, Kind.value.name]
  | .unsupportedOperator => [Kind.library.name, "NotImplementedError", Kind.runtime.name]
  | .numericalFailure => [Kind.library.name, "ArithmeticError"]
  | .impossibleState => [Kind.library.name, Kind.runtime.name]
  | _ => []

/-- A kind of the library followed by all kinds that it is a special case of. -/
def Kind.lineage (k : Kind) : List String :=
  k.name :: k.parents ++ ["Exception", "BaseException", "object"]

/-- The kind of a failure. -/
def kind : Failure α → Kind
  | .invalid _ => .invalidParameter
  | .unsupported _ _ => .unsupportedOperator
  | .numerical _ => .numericalFailure
  | .impossible _ => .impossibleState
  | .operator _ => .operatorFailure
  | .shapes .array => .value
  | .shapes .tensor => .runtime
  | .unknownValue => .value
  | .notANumber => .type
  | .indexOutOfRange => .index
  | .unknownName => .key
  | .noSuchSetting => .setting
  | .notAMatrix => .linearAlgebra
  | .divisionByZero => .zeroDivision
  | .overflow => .overflow
  | .missingDirectory => .missingFile
  | .impossibleFile => .system
  | .interrupted => .interrupt

end Failure

end Minimization
