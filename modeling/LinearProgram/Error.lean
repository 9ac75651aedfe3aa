import LinearProgram.Scalar

namespace LinearProgram

/-!
# Why a request can fail

An `Error` is a cause that belongs to the domain: the data of a problem do not
fit together, an option has no meaning, a method does not accept a problem, or
a pivot element is too small.  A `Failure` adds the one cause that is not a
property of linear programs, an index that points outside of its table.
Wording is kept apart from the causes and has a module of its own.
-/

/-- The part of a problem that a complaint is about. -/
inductive Part where
  | objective
  | rightHandSide
  | senses
  | constraintRow
  | constraintMatrix
  | variableNames
  deriving DecidableEq, Repr

/-- The name of a part in messages. -/
def Part.name : Part → String
  | .objective => "objective"
  | .rightHandSide => "right hand side"
  | .senses => "senses"
  | .constraintRow => "constraint row"
  | .constraintMatrix => "constraint matrix"
  | .variableNames => "variable names"

/-- The options that must be positive numbers. -/
inductive Setting where
  | epsilon
  | bigM
  | dualityTolerance
  deriving DecidableEq, Repr

/-- The name of an option in messages. -/
def Setting.name : Setting → String
  | .epsilon => "epsilon"
  | .bigM => "big_m"
  | .dualityTolerance => "duality_tolerance"

/-- The causes for which the library refuses a request.  Indices count from zero. -/
inductive Error (K : Type) where
  /-- A part has the wrong number of entries. -/
  | dimensionMismatch (part : Part) (expected found : Nat)
  /-- A part holds an infinite or undefined number. -/
  | nonFinite (part : Part) (index : Nat)
  /-- A model mentions a variable that it does not declare. -/
  | unknownVariable (index : Nat)
  /-- A problem has no decision variables. -/
  | noVariables
  /-- The plain simplex method was given a row that is not an upper bound. -/
  | unsupportedSense (row : Nat)
  /-- The plain simplex method was given a negative right hand side. -/
  | negativeRhs (row : Nat)
  /-- An option is not a positive finite number. -/
  | invalidOption (setting : Setting) (value : K)
  /-- A pivot element is smaller than the tolerance. -/
  | degeneratePivot (row column : Nat) (value : K)
  deriving DecidableEq, Repr

/-- The ways in which an operation can end without a result. -/
inductive Failure (K : Type) where
  /-- The request was refused. -/
  | error (cause : Error K)
  /-- An index pointed outside of its table. -/
  | indexOutOfRange
  deriving DecidableEq, Repr

/-- A refusal, seen as one of the ways to fail. -/
def Failure.lift {K α : Type} (result : Except (Error K) α) : Except (Failure K) α :=
  result.mapError .error

/-- A missing entry, seen as one of the ways to fail. -/
def Failure.ofOption {K α : Type} : Option α → Except (Failure K) α
  | some value => .ok value
  | none => .error .indexOutOfRange

end LinearProgram
