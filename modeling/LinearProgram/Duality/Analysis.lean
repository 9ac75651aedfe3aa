import LinearProgram.Duality.Dual
import LinearProgram.Solver.TwoPhase

namespace LinearProgram

/-!
# Comparing a problem with its dual

Both problems are solved by the method of two phases and their optima are
compared.  The dual quantities are recovered from the optimum of the dual.
-/

/-- The report on a problem and its dual. -/
structure DualityReport {K : Type} {m n : Nat} (p : Problem K m n) where
  /-- The report on the problem. -/
  primal : Solution K
  /-- The report on the dual. -/
  dual : Solution K
  dualProblem : Problem K n p.dualWidth
  /-- The dual quantities, one for each constraint, if the dual has an optimum. -/
  dualValues : List (String × K)
  /-- The distance of the two optima, if there are two. -/
  gap : Option K
  /-- Whether the two optima are closer than the tolerance. -/
  strongDuality : Bool

/-- The distance of the two optima as a number, infinite unless there are two. -/
def DualityReport.distance {m n : Nat} {p : Problem Float m n} (report : DualityReport p) :
    Float :=
  report.gap.getD (1.0 / 0.0)

namespace Duality

variable {K : Type} [Scalar K] {m n : Nat}

/-- The distance of two optima, if there are two. -/
def gap? (primal dual : Solution K) : Option K := do
  return Scalar.abs ((← primal.objective) - (← dual.objective))

/-- The named dual quantities at the optimum of the dual. -/
def dualValues (p : Problem K m n) (dual : Solution K) :
    Except (Failure K) (List (String × K)) :=
  if dual.isOptimal then do
    let values ← Failure.ofOption (recover? p.dualRecoveries (dual.decisionValues p.dualWidth))
    return values.mapIdx fun row value => (Problem.dualName row, value)
  else .ok []

/-- Solves a problem and its dual and compares the optima. -/
def analyze (p : Problem K m n) (options : Options K) :
    Except (Failure K) (DualityReport p) := do
  Failure.lift options.validate
  let dualProblem ← Failure.lift p.dual
  let primal ← TwoPhase.solve p options
  let dual ← TwoPhase.solve dualProblem options
  let gap := gap? primal dual
  return {
    primal
    dual
    dualProblem
    dualValues := ← dualValues p dual
    gap
    strongDuality := gap.any fun distance => distance < options.dualityTolerance }

end Duality

end LinearProgram
