import LinearProgram.Proofs.ArtificialSum
import LinearProgram.Proofs.SingleRun
import LinearProgram.Proofs.TwoPhase.Correctness

namespace LinearProgram

/-!
# Optima of the method of penalties

Whatever the penalty, a sharp run that the method reports as an optimum holds
every artificial column at zero.  The penalty then counts for nothing, neither
at the reported point nor at any feasible one, so the point is optimal for the
problem itself.  A small penalty can make the method miss an optimum, but not
report a wrong one.
-/

variable {m n : Nat}

namespace BigM

open Problem

/-- Every tableau that the method passes through on a problem is sharp. -/
def SharpRun (p : Problem ℚ m n) (options : Options ℚ) : Prop :=
  ∀ T ∈ (runNormalized p.normalized options).tableaus (startTableau p.normalized options), T.Sharp

instance (p : Problem ℚ m n) (options : Options ℚ) : Decidable (SharpRun p options) :=
  inferInstanceAs (Decidable (∀ T ∈ (runNormalized p.normalized options).tableaus
    (startTableau p.normalized options), T.Sharp))

/-- The method may let a column enter just when it is not artificial. -/
theorem pass_allowed_iff {p : Problem ℚ m n} {options : Options ℚ} (column : Fin p.width) :
    (pass p options).allowed column = true ↔ p.tags[column].isArtificial = false :=
  iff_of_eq (Bool.not_eq_true' p.tags[column].isArtificial)

section Sharp

variable {p : Problem ℚ m n} {options : Options ℚ} (sharp : SharpRun p options)
include sharp

theorem sharp_final : (runNormalized p.normalized options).final.Sharp :=
  sharp _ final_mem

theorem nonnegativeRhs_of_sharp (positive : 0 < options.epsilon) :
    (runNormalized p.normalized options).final.NonnegativeRhs :=
  p.normalized.nonnegativeRhs_runFrom (.bigM options.bigM) positive p.normalized_rhs_nonneg
    (pass p.normalized options) 0 options.maxIterations
    (fun T member => (sharp T member).fairTest (pass p.normalized options)) _ final_mem

theorem reducedCost_nonneg_of_sharp
    (stops : (runNormalized p.normalized options).final.entering?
      (pass p.normalized options).allowed = none) (j : Fin p.normalized.width)
    (other : p.normalized.tags[j].isArtificial = false) :
    0 ≤ (runNormalized p.normalized options).final.reducedCost j :=
  (sharp_final sharp).reducedCost_nonneg stops ((pass_allowed_iff j).mpr other)

variable {solution : Solution ℚ} (solved : solve p options = .ok solution)
  (optimum : solution.outcome = .optimal)
include solved optimum

/-- At a sharp optimum every artificial column is zero. -/
theorem within_of_sharp :
    p.normalized.Within 0 (runNormalized p.normalized options).final := by
  rcases optimal_cases solved optimum with ⟨positive, _, epsilon, _, small, _⟩
  have nonnegative := nonnegativeRhs_of_sharp sharp positive
  refine ⟨nonnegative, fun row artificial => ?_⟩
  have bounded := (small row artificial).trans_eq epsilon.symm
  exact (sharp_final sharp).nonpos_of_le bounded

theorem optimal_of_sharp : p.Optimal (solution.decisionValues n) := by
  rcases optimal_cases solved optimum with ⟨_, represents, _, stops, _, values, _⟩
  have within := within_of_sharp sharp solved optimum
  have nothing := (within.noArtificial represents.canonical.unitBasis).artificialSum_eq_zero
  rw [values]
  refine within.optimal represents fun y admits => ?_
  have bound := represents.gain_le_penalized (reducedCost_nonneg_of_sharp sharp stops) admits
  rw [nothing, mul_zero, sub_zero] at bound
  exact bound

theorem artificial_value_of_sharp {j : Fin p.normalized.width}
    (artificial : p.normalized.tags[j].isArtificial = true) :
    solution.values[j.val]? = some (p.normalized.columnNames[j], 0) := by
  rcases optimal_cases solved optimum with ⟨_, represents, _⟩
  rcases concludes_of_solve solved with ⟨_, concludes⟩
  have zero := (within_of_sharp sharp solved optimum).noArtificial
    represents.canonical.unitBasis j artificial
  rw [concludes.values optimum, ← zero]
  simp

end Sharp

/-- With any penalty the optimum of a sharp run is optimal, its artificial
columns are zero, and a sharp course of the method of two phases can only reach
the same objective or its cap. -/
theorem solve_optimal_of_sharp (p : Problem ℚ m n) (options : Options ℚ)
    (valid : options.validate = .ok ()) (sharp : SharpRun p options) :
    ∃ solution, solve p options = .ok solution ∧ (solution.outcome = .optimal →
      p.Optimal (solution.decisionValues n) ∧
      solution.objective = some (p.objectiveValue (solution.decisionValues n)) ∧
      (∀ j : Fin p.normalized.width, p.normalized.tags[j].isArtificial = true →
        solution.values[j.val]? = some (p.normalized.columnNames[j], 0)) ∧
      ∀ other : Options ℚ, other.validate = .ok () → TwoPhase.SharpCourse p other →
        ∃ second, TwoPhase.solve p other = .ok second ∧
          (second.outcome = .optimal → second.objective = solution.objective) ∧
          second.outcome ≠ .infeasible ∧ second.outcome ≠ .unbounded) := by
  rcases exists_concludes p valid with ⟨solution, solved, _⟩
  refine ⟨solution, solved, fun optimum => ?_⟩
  have optimal := optimal_of_sharp sharp solved optimum
  have objective : solution.objective = some (p.objectiveValue (solution.decisionValues n)) := by
    rcases optimal_cases solved optimum with ⟨_, _, _, _, _, values, objective⟩
    rw [values, objective]
  refine ⟨optimal, objective, fun j => artificial_value_of_sharp sharp solved optimum, ?_⟩
  intro other otherValid otherSharp
  rcases TwoPhase.exists_concludes p otherValid with ⟨second, secondSolved, _⟩
  have truth := TwoPhase.trueOf_of_sharp otherSharp secondSolved
  refine ⟨second, secondSolved, fun secondOptimum => ?_, fun none => ?_, fun endless => ?_⟩
  · rcases truth.optimal secondOptimum with ⟨secondOptimal, secondObjective⟩
    rw [secondObjective, objective, secondOptimal.objectiveValue_eq optimal]
  · exact truth.infeasible none _ optimal.feasible
  · exact optimal.not_unbounded (truth.unbounded endless)

def smallPenalty : Options ℚ := { Options.default with bigM := 1 / 8 }

/-- Under a penalty of one eighth the run on the redundant problem is sharp and
ends at an optimum in which an artificial column is still basic, at zero. -/
theorem redundantProblem_optimal_under_smallPenalty :
    smallPenalty.validate = .ok () ∧ SharpRun TwoPhase.redundantProblem smallPenalty ∧
      TwoPhase.SharpCourse TwoPhase.redundantProblem Options.default ∧
      ∃ solution, solve TwoPhase.redundantProblem smallPenalty = .ok solution ∧
        solution.outcome = .optimal ∧ solution.basis = ["y", "e1", "a3", "s4"] ∧
        TwoPhase.redundantProblem.Optimal (solution.decisionValues 2) ∧
        ∃ second, TwoPhase.solve TwoPhase.redundantProblem Options.default = .ok second ∧
          (second.outcome = .optimal → second.objective = solution.objective) := by
  have valid : smallPenalty.validate = .ok () := by decide +kernel
  have sharp : SharpRun TwoPhase.redundantProblem smallPenalty := by decide +kernel
  have otherSharp : TwoPhase.SharpCourse TwoPhase.redundantProblem Options.default := by
    decide +kernel
  have found : (solve TwoPhase.redundantProblem smallPenalty).toOption.map
      (fun solution => (solution.outcome, solution.basis)) =
    some (.optimal, ["y", "e1", "a3", "s4"]) := by decide +kernel
  rcases solve_optimal_of_sharp TwoPhase.redundantProblem smallPenalty valid sharp with
    ⟨solution, solved, reports⟩
  rw [solved] at found
  rcases Prod.mk.inj (Option.some.inj found) with ⟨optimum, basis⟩
  rcases reports optimum with ⟨optimal, _, _, agreement⟩
  rcases agreement Options.default (by decide +kernel) otherSharp with
    ⟨second, secondSolved, same, _⟩
  exact ⟨valid, sharp, otherSharp, solution, solved, optimum, basis, optimal, second, secondSolved,
    same⟩

end BigM
end LinearProgram
