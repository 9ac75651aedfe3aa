import LinearProgram.Proofs.ArtificialSum
import LinearProgram.Proofs.OptimumBound

namespace LinearProgram

/-!
# What a report of infeasibility certifies

The method of two phases reports that there is no feasible point when the first
phase stops at an artificial sum above the tolerance.  The last row expresses
the sum exactly, and no reduced cost lies below minus the tolerance, so only the
size of a feasible point can make up for the sum.  The report can be wrong, but
only about points as large as the sum in units of the tolerance.
-/

variable {m n : Nat}

theorem Tableau.getLast?_toLists {N : Nat} (T : Tableau ℚ m N) :
    T.cells.toLists.getLast?.bind List.getLast? = some T.objectiveRhs := by
  simp [Grid.toLists, List.getLast?_eq_getElem?, Tableau.objectiveRhs, Tableau.cell]

/-- The entry in the last row and the last column of the reported tableau. -/
def Solution.corner? (solution : Solution ℚ) : Option ℚ :=
  solution.tableau.getLast?.bind List.getLast?

namespace TwoPhase

/-- The negated corner of the tableau that is reported with infeasibility is the
sum of the basic artificial columns.  It exceeds the tolerance, and a feasible
point has at least its size in units of the tolerance. -/
theorem infeasible_certificate (p : Problem ℚ m n) (options : Options ℚ)
    (solution : Solution ℚ) (solved : solve p options = .ok solution)
    (none : solution.outcome = .infeasible) :
    ∃ w, solution.corner? = some (-w) ∧ options.epsilon < w ∧
      solution.tableau = (firstRun p.normalized options).final.cells.toLists ∧
      w = ∑ row ∈ p.normalized.artificialRows (firstRun p.normalized options).final,
        (firstRun p.normalized options).final.rhs row ∧
      ∀ y, p.Feasible y →
        w / options.epsilon ≤ y.sum + ∑ row : Fin m,
          if p.senses[row] = .eq then 0 else |p.rhs[row] - p.activity row y| := by
  have positive := epsilon_pos_of_solve solved
  rcases infeasible_cases solved none with ⟨stops, large, _, shown⟩
  rcases firstRun_final (p := p.normalized) positive with ⟨represents, epsilon⟩
  refine ⟨-(firstRun p.normalized options).final.objectiveRhs, ?_, large, shown,
    represents.neg_objectiveRhs_phaseOne, fun list feasible => ?_⟩
  · rw [Solution.corner?, shown, Tableau.getLast?_toLists, neg_neg]
  · rcases feasible.exists_ofFn with ⟨y, rfl, admits⟩
    have point := (p.admits_normalized_iff y).mpr admits
    have bound := represents.neg_objectiveRhs_le
      (fun j _ => (Tableau.entering?_eq_none_iff _ _).mp stops j rfl) point
    simp only [point.sum_lift, epsilon, Problem.distance_normalized] at bound
    rw [div_le_iff₀' positive, List.sum_ofFn]
    simpa only [Problem.distance, p.activity_ofFn] using bound

/-- A problem whose only feasible points lie far out against a tolerance of one quarter. -/
def distantProblem : Problem ℚ 2 2 where
  objective := #[1, 0].toVector
  coefficients := #[#[1 / 8, 0].toVector, #[0, -1].toVector].toVector
  rhs := #[1, -3].toVector
  senses := #[.eq, .le].toVector
  direction := .minimize
  names := #["x", "y"].toVector
  variables_pos := Nat.zero_lt_two

/-- The distant problem is reported to be infeasible with an artificial sum of
one, although it has a feasible point, which is as large as the certificate says. -/
theorem distantProblem_certificate :
    distantProblem.isSatisfiedBy [8, 3] 0 = true ∧
      ∃ solution, solve distantProblem coarseOptions = .ok solution ∧
        solution.outcome = .infeasible ∧ solution.corner? = some (-1) ∧
        ∃ w, solution.corner? = some (-w) ∧ coarseOptions.epsilon < w ∧
          solution.tableau = (firstRun distantProblem.normalized coarseOptions).final.cells.toLists ∧
          w = ∑ row ∈ distantProblem.normalized.artificialRows
              (firstRun distantProblem.normalized coarseOptions).final,
            (firstRun distantProblem.normalized coarseOptions).final.rhs row ∧
          ∀ y, distantProblem.Feasible y →
            w / coarseOptions.epsilon ≤ y.sum + ∑ row : Fin 2,
              if distantProblem.senses[row] = .eq then 0
              else |distantProblem.rhs[row] - distantProblem.activity row y| := by
  have feasible : distantProblem.isSatisfiedBy [8, 3] 0 = true := by decide +kernel
  have found : (solve distantProblem coarseOptions).toOption.map
      (fun solution => (solution.outcome, solution.corner?)) =
    some (.infeasible, some (-1)) := by decide +kernel
  rcases Solution.exists_ok_of_map_toOption found with ⟨solution, solved, reads⟩
  rcases Prod.mk.inj reads with ⟨none, corner⟩
  exact ⟨feasible, solution, solved, none, corner,
    infeasible_certificate distantProblem coarseOptions solution solved none⟩

end TwoPhase
end LinearProgram
