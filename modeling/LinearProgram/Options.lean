import LinearProgram.Error

namespace LinearProgram

/-!
# Options of the solvers

Three of the options are numbers that must be positive and finite.  The
default tolerances are the double precision numbers nearest to their decimal
values, given as quotients by a power of two, so they are the same numbers in
every arithmetic.
-/

/-- What a caller can choose about a solution process. -/
structure Options (K : Type) where
  /-- The number of pivots after which a run gives up. -/
  maxIterations : Nat
  /-- The size up to which an entry of a tableau counts as zero. -/
  epsilon : K
  /-- The penalty on artificial variables. -/
  bigM : K
  /-- The gap between two optima that still counts as none. -/
  dualityTolerance : K
  deriving DecidableEq, Repr

namespace Options

variable {K : Type} [Scalar K]

/-- At most 1000 pivots, a tolerance of 10⁻¹⁰, a penalty of 10⁶ and a gap of 10⁻³. -/
def default : Options K where
  maxIterations := 1000
  epsilon := Scalar.ofNat 7737125245533627 / Scalar.ofNat (Nat.pow 2 86)
  bigM := Scalar.ofNat 1000000
  dualityTolerance := Scalar.ofNat 1152921504606847 / Scalar.ofNat (Nat.pow 2 60)

instance : Inhabited (Options K) := ⟨default⟩

/-- Refuses a value that is not positive and finite. -/
def checkPositive (setting : Setting) (value : K) : Except (Error K) Unit :=
  if Scalar.isFinite value ∧ 0 < value then .ok () else .error (.invalidOption setting value)

/-- Refuses options at the first one that is not positive and finite. -/
def validate (options : Options K) : Except (Error K) Unit := do
  checkPositive .epsilon options.epsilon
  checkPositive .bigM options.bigM
  checkPositive .dualityTolerance options.dualityTolerance

end Options

end LinearProgram
