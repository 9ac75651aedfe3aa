import LinearProgram.Proofs.SingleRun
import LinearProgram.Proofs.TwoPhase.Feasibility
import LinearProgram.Proofs.UpperBounds

namespace LinearProgram

/-!
# How far a reported optimum is from the constraints

The solvers treat entries of a tableau within an absolute tolerance as zeros,
and in three places they take for granted that this changes nothing.  A ratio
test passes over such an entry, although its row may have the smallest ratio.
The replacement of artificial columns takes them to be zero, although the first
phase only brings their sum within the tolerance.  And an artificial column that
finds no replacement is taken to stay where it is.  Each of these can lead away
from the feasible points, by an amount that depends on the scale of the problem.

On steady runs, where what is taken for granted is true, a reported optimum
misses no condition of the problem by more than the tolerance.  The runs at the
end are not steady, and one of their optima has a negative variable.
-/

variable {m n : Nat}

/-- All ratio tests of the plain method are fair. -/
def Plain.Steady (p : Problem ℚ m n) (options : Options ℚ) : Prop :=
  ∀ T ∈ (acceptedRun p options).tableaus (startTableau p options), (pass p options).FairTest T

/-- All ratio tests of the method of penalties are fair. -/
def BigM.Steady (p : Problem ℚ m n) (options : Options ℚ) : Prop :=
  ∀ T ∈ (runNormalized p options).tableaus (startTableau p options), (pass p options).FairTest T

instance (p : Problem ℚ m n) (options : Options ℚ) : Decidable (Plain.Steady p options) :=
  inferInstanceAs (Decidable (∀ T ∈ (Plain.acceptedRun p options).tableaus
    (Plain.startTableau p options), (Plain.pass p options).FairTest T))

instance (p : Problem ℚ m n) (options : Options ℚ) : Decidable (BigM.Steady p options) :=
  inferInstanceAs (Decidable (∀ T ∈ (BigM.runNormalized p options).tableaus
    (BigM.startTableau p options), (BigM.pass p options).FairTest T))

/-! ## The last tableau of each method -/

theorem Plain.within_final {p : Problem ℚ m n} {options : Options ℚ}
    (positive : 0 < options.epsilon) (upper : ∀ row : Fin m, p.senses[row] = .le)
    (feasible : ∀ row : Fin m, 0 ≤ p.rhs[row]) (steady : Plain.Steady p options) (bound : ℚ) :
    p.Within bound (acceptedRun p options).final := by
  refine ⟨p.nonnegativeRhs_runFrom .plain positive feasible (pass p options) 0
    options.maxIterations steady _ final_mem, fun row artificial => ?_⟩
  rw [Problem.isArtificialColumn_of_upper upper] at artificial
  exact absurd artificial Bool.false_ne_true

theorem BigM.nonnegativeRhs_final {p : Problem ℚ m n} {options : Options ℚ}
    (positive : 0 < options.epsilon) (feasible : ∀ row : Fin m, 0 ≤ p.rhs[row])
    (steady : BigM.Steady p options) : (runNormalized p options).final.NonnegativeRhs :=
  p.nonnegativeRhs_runFrom (.bigM options.bigM) positive feasible (pass p options) 0
    options.maxIterations steady _ final_mem

/-- On a steady run, whichever of the methods makes it, a reported optimum
misses no condition of the problem by more than the tolerance. -/
theorem optimum_isSatisfiedBy (p : Problem ℚ m n) (options : Options ℚ) (solution : Solution ℚ)
    (tolerance : ℚ) (coarser : options.epsilon ≤ tolerance)
    (solved : Plain.solve p options = .ok solution ∧ Plain.Steady p options ∨
      BigM.solve p options = .ok solution ∧ BigM.Steady p.normalized options ∨
      TwoPhase.solve p options = .ok solution ∧ TwoPhase.Steady p.normalized options)
    (optimum : solution.outcome = .optimal) :
    p.isSatisfiedBy (solution.decisionValues n) tolerance = true := by
  rcases solved with ⟨solved, steady⟩ | ⟨solved, steady⟩ | ⟨solved, steady⟩
  · rcases Plain.optimal_cases solved optimum with
      ⟨positive, upper, feasible, represents, _, _, values, _⟩
    rw [values]
    exact (Plain.within_final positive upper feasible steady options.epsilon).isSatisfiedBy
      represents positive.le coarser
  · rcases BigM.optimal_cases solved optimum with ⟨positive, represents, _, _, small, values, _⟩
    have within : p.normalized.Within options.epsilon
        (BigM.runNormalized p.normalized options).final :=
      ⟨BigM.nonnegativeRhs_final positive p.normalized_rhs_nonneg steady, small⟩
    rw [values, ← p.isSatisfiedBy_normalized]
    exact within.isSatisfiedBy represents positive.le coarser
  · have positive := TwoPhase.epsilon_pos_of_solve solved
    rcases TwoPhase.optimal_cases solved optimum with ⟨small, _, _, values, _⟩
    have within := TwoPhase.within_secondRun positive p.normalized_rhs_nonneg steady _
      TwoPhase.secondRun_final_mem
    rw [values, ← p.isSatisfiedBy_normalized]
    exact (within.mono small).isSatisfiedBy (TwoPhase.secondRun_final positive).1 positive.le coarser

/-- The double precision number nearest to 10⁻⁴. -/
def testTolerance : ℚ := 7378697629483821 / 2 ^ 66

/-- A problem with a coefficient below the default tolerance that does no harm,
since another row stops the variable first. -/
def harmlessProblem : Problem ℚ 4 2 where
  objective := #[1, 1].toVector
  coefficients := #[#[1, 1].toVector, #[1 / 2 ^ 34, 0].toVector, #[1, 0].toVector,
    #[0, -1].toVector].toVector
  rhs := #[1, 1, 4, -2].toVector
  senses := #[.ge, .le, .le, .eq].toVector
  direction := .maximize
  names := #["x", "y"].toVector
  variables_pos := Nat.zero_lt_two

/-- The course on the harmless problem is steady, though it is not sharp. -/
theorem harmlessProblem_isSatisfiedBy :
    (Options.default : Options ℚ).epsilon ≤ testTolerance ∧
      ¬ TwoPhase.SharpCourse harmlessProblem Options.default ∧
      TwoPhase.Steady harmlessProblem.normalized Options.default ∧
      ∃ solution, TwoPhase.solve harmlessProblem Options.default = .ok solution ∧
        solution.outcome = .optimal ∧
        harmlessProblem.isSatisfiedBy (solution.decisionValues 2) testTolerance = true := by
  have coarser : (Options.default : Options ℚ).epsilon ≤ testTolerance := by decide +kernel
  have blurred : ¬ TwoPhase.SharpCourse harmlessProblem Options.default := by decide +kernel
  have steady : TwoPhase.Steady harmlessProblem.normalized Options.default :=
    ⟨by decide +kernel, by decide +kernel, by decide +kernel, by decide +kernel⟩
  have found : (TwoPhase.solve harmlessProblem Options.default).toOption.map Solution.outcome =
    some .optimal := by decide +kernel
  refine ⟨coarser, blurred, steady, ?_⟩
  cases solved : TwoPhase.solve harmlessProblem Options.default with
  | error cause =>
    rw [solved] at found
    exact nomatch found
  | ok solution =>
    rw [solved] at found
    have optimum := Option.some.inj found
    exact ⟨solution, rfl, optimum, optimum_isSatisfiedBy harmlessProblem Options.default solution
      testTolerance coarser (.inr (.inr ⟨solved, steady⟩)) optimum⟩

/-! ## Runs that are not steady -/

/-- The row that holds the variable at zero has a coefficient below the tolerance. -/
def faintBoundProblem : Problem ℚ 2 1 where
  objective := #[1].toVector
  coefficients := #[#[1].toVector, #[1 / 2 ^ 34].toVector].toVector
  rhs := #[2 ^ 27, 0].toVector
  senses := #[.le, .le].toVector
  direction := .maximize
  names := #["x"].toVector
  variables_pos := Nat.zero_lt_one

/-- The right hand side of the equation is within the tolerance, but not zero. -/
def faintEquationProblem : Problem ℚ 1 1 where
  objective := #[0].toVector
  coefficients := #[#[-(1 / 2 ^ 33)].toVector].toVector
  rhs := #[1 / 2 ^ 34].toVector
  senses := #[.eq].toVector
  direction := .maximize
  names := #["x"].toVector
  variables_pos := Nat.zero_lt_one

/-- The equation holds the variable at zero with a coefficient below the tolerance. -/
def faintRowProblem : Problem ℚ 2 1 where
  objective := #[1].toVector
  coefficients := #[#[-(1 / 2 ^ 34)].toVector, #[1].toVector].toVector
  rhs := #[0, 2 ^ 27].toVector
  senses := #[.eq, .le].toVector
  direction := .maximize
  names := #["x"].toVector
  variables_pos := Nat.zero_lt_one

/-- Whether a report states an optimum that misses a condition of the problem
by more than the test tolerance. -/
def reportsMiss (p : Problem ℚ m n) (answer : Except (Failure ℚ) (Solution ℚ)) : Bool :=
  match answer with
  | .ok solution =>
    solution.isOptimal && !p.isSatisfiedBy (solution.decisionValues n) testTolerance
  | .error _ => false

/-- With the default options all three methods report an optimum outside of the
test tolerance where a ratio test is not fair, and the method of two phases
does where it replaces an artificial column above zero, or lets one grow.  Where
it replaces one, its optimum is negative, and the method of penalties reports a
point that satisfies the problem within the test tolerance. -/
theorem optima_outside_tolerance :
    reportsMiss faintBoundProblem (Plain.solve faintBoundProblem Options.default) = true ∧
      reportsMiss faintBoundProblem (BigM.solve faintBoundProblem Options.default) = true ∧
      reportsMiss faintBoundProblem (TwoPhase.solve faintBoundProblem Options.default) = true ∧
      reportsMiss faintEquationProblem
        (TwoPhase.solve faintEquationProblem Options.default) = true ∧
      (TwoPhase.solve faintEquationProblem Options.default).toOption.map
          (fun solution => (solution.outcome, solution.decisionValues 1)) =
        some (.optimal, [-1 / 2]) ∧
      (BigM.solve faintEquationProblem Options.default).toOption.map
          (fun solution => (solution.outcome, solution.decisionValues 1)) =
        some (.optimal, [0]) ∧
      faintEquationProblem.isSatisfiedBy [0] testTolerance = true ∧
      reportsMiss faintRowProblem (TwoPhase.solve faintRowProblem Options.default) = true := by
  decide +kernel

end LinearProgram
