import LinearProgram.Proofs.TwoPhase.Outcome

namespace LinearProgram

/-!
# The method of two phases is correct on sharp courses

With valid options the method always reports.  If its course is sharp, the
report is true of the problem that was given, before any row was flipped: an
optimum is optimal, a problem without feasible points has none, and an
unbounded problem has feasible points as good as one likes.
-/

variable {m n : Nat}

namespace TwoPhase

/-- On a sharp course the report is true of the problem. -/
theorem solve_trueOf_of_sharp (p : Problem ℚ m n) (options : Options ℚ)
    (valid : options.validate = .ok ()) (sharp : SharpCourse p options) :
    ∃ solution, solve p options = .ok solution ∧ solution.TrueOf p := by
  rcases exists_concludes p valid with ⟨solution, solved, _⟩
  exact ⟨solution, solved, trueOf_of_sharp sharp solved⟩

/-- A problem with rows of every sense, one of them with a negative right hand
side, in which one equation follows from another. -/
def redundantProblem : Problem ℚ 4 2 where
  objective := #[2, -1].toVector
  coefficients := #[#[1, 1].toVector, #[2, 2].toVector, #[-1, -1].toVector,
    #[1, 0].toVector].toVector
  rhs := #[2, 6, -3, 2].toVector
  senses := #[.ge, .eq, .eq, .le].toVector
  direction := .minimize
  names := #["x", "y"].toVector
  variables_pos := Nat.zero_lt_two

/-- The course on the redundant problem is sharp, although an artificial column
stays basic all along the second phase. -/
theorem solve_redundantProblem :
    Options.default.validate (K := ℚ) = .ok () ∧
      SharpCourse redundantProblem Options.default ∧
      ∃ solution, solve redundantProblem Options.default = .ok solution ∧
        solution.TrueOf redundantProblem := by
  have valid : Options.default.validate (K := ℚ) = .ok () := by decide +kernel
  have sharp : SharpCourse redundantProblem Options.default := by decide +kernel
  exact ⟨valid, sharp, solve_trueOf_of_sharp redundantProblem Options.default valid sharp⟩

end TwoPhase
end LinearProgram
