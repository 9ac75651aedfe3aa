import LinearProgram.Proofs.SingleRun
import LinearProgram.Proofs.TwoPhase.Course

namespace LinearProgram

/-!
# How much better than a reported optimum a point can be

A run stops when no reduced cost is far below zero, where far means by more
than the tolerance.  The last row expresses the objective exactly, however many
pivots led there, so a feasible point is better by no more than the tolerance
for each unit of its entries and of its distances from the bounds.  Nothing is
assumed about the size of the entries that the run has met, and the reported
point itself need not be feasible.
-/

variable {m n : Nat}

theorem Problem.Represents.gain_le_of_entering?_eq_none {q : Problem ℚ m n}
    {T : Tableau ℚ m q.width} (represents : q.Represents .plain T) {allowed : Fin q.width → Bool}
    (ordinary : ∀ j, q.tags[j].isArtificial = false → allowed j = true)
    (stops : T.entering? allowed = none) {y : Fin n → ℚ} (admits : q.Admits y) :
    q.gain y ≤ q.gain (q.decisionPart T.columnValue) +
      T.epsilon * (∑ k, y k + ∑ row, q.distance row y) := by
  rw [represents.gain_columnValue, ← admits.sum_lift]
  exact represents.gain_le_add
    (fun j other => (T.entering?_eq_none_iff allowed).mp stops j (ordinary j other)) admits

/-- An optimum of either method, seen as the basic solution of a tableau that
represents the normalized problem.  The plain method accepts only problems
that are normalized already. -/
theorem exists_represents_of_optimal {p : Problem ℚ m n} {options : Options ℚ}
    {solution : Solution ℚ}
    (solved : TwoPhase.solve p options = .ok solution ∨ Plain.solve p options = .ok solution)
    (optimum : solution.outcome = .optimal) :
    ∃ x : Fin n → ℚ, solution.decisionValues n = List.ofFn x ∧
      solution.objective = some (p.objectiveValue (List.ofFn x)) ∧
      ∀ y, p.Admits y →
        p.gain y ≤ p.gain x + options.epsilon * (∑ k, y k + ∑ row, p.distance row y) := by
  rcases solved with solved | solved
  · have positive := TwoPhase.epsilon_pos_of_solve solved
    rcases TwoPhase.optimal_cases solved optimum with ⟨_, _, stops, values, objective⟩
    rcases TwoPhase.secondRun_final (p := p.normalized) positive with ⟨represents, epsilon⟩
    refine ⟨_, values, objective, fun y admits => ?_⟩
    have bound := represents.gain_le_of_entering?_eq_none
      (fun j => (TwoPhase.secondPass_allowed_iff j).mpr) stops
      ((p.admits_normalized_iff y).mpr admits)
    simpa only [epsilon, Problem.gain_normalized, Problem.distance_normalized] using bound
  · rcases Plain.optimal_cases solved optimum with
      ⟨_, _, _, represents, epsilon, stops, values, objective⟩
    refine ⟨_, values, objective, fun y admits => ?_⟩
    have bound := represents.gain_le_of_entering?_eq_none (fun _ _ => rfl) stops admits
    rwa [epsilon] at bound

/-- No feasible point improves on a reported optimum by more than the tolerance
times the sum of its entries and of its distances from the bounds. -/
theorem optimum_improved_by_at_most (p : Problem ℚ m n) (options : Options ℚ)
    (solution : Solution ℚ)
    (solved : TwoPhase.solve p options = .ok solution ∨ Plain.solve p options = .ok solution)
    (optimum : solution.outcome = .optimal) :
    ∃ objective, solution.objective = some objective ∧
      ∀ y, p.Feasible y →
        p.merit y - p.direction.orient objective ≤
          options.epsilon * (y.sum + ∑ row : Fin m,
            if p.senses[row] = .eq then 0 else |p.rhs[row] - p.activity row y|) := by
  rcases exists_represents_of_optimal solved optimum with ⟨x, _, objective, bound⟩
  refine ⟨_, objective, fun list feasible => ?_⟩
  rcases feasible.exists_ofFn with ⟨y, rfl, admits⟩
  have better := bound y admits
  change p.merit (List.ofFn y) - p.merit (List.ofFn x) ≤ _
  rw [p.merit_ofFn, p.merit_ofFn, List.sum_ofFn, sub_le_iff_le_add']
  simpa only [Problem.distance, p.activity_ofFn] using better

/-- A problem whose coefficients are small against a tolerance of one quarter. -/
def blurredProblem : Problem ℚ 2 2 where
  objective := #[1 / 8, 0].toVector
  coefficients := #[#[1, 0].toVector, #[0, 1 / 8].toVector].toVector
  rhs := #[3, 1 / 5].toVector
  senses := #[.le, .eq].toVector
  direction := .maximize
  names := #["x", "y"].toVector
  variables_pos := Nat.zero_lt_two

def coarseOptions : Options ℚ := { Options.default with epsilon := 1 / 4 }

/-- The optimum that is reported for the blurred problem is the origin.  It
misses the equation, whose artificial column stays basic, and is not the best
point, yet the bound holds. -/
theorem blurredProblem_improved_by_at_most :
    ∃ solution, TwoPhase.solve blurredProblem coarseOptions = .ok solution ∧
      solution.outcome = .optimal ∧ solution.basis = ["s1", "a2"] ∧
      ∃ objective, solution.objective = some objective ∧
        ∀ y, blurredProblem.Feasible y →
          blurredProblem.merit y - blurredProblem.direction.orient objective ≤
            coarseOptions.epsilon * (y.sum + ∑ row : Fin 2,
              if blurredProblem.senses[row] = .eq then 0
              else |blurredProblem.rhs[row] - blurredProblem.activity row y|) := by
  have found : (TwoPhase.solve blurredProblem coarseOptions).toOption.map
      (fun solution => (solution.outcome, solution.basis)) = some (.optimal, ["s1", "a2"]) := by
    decide +kernel
  cases solved : TwoPhase.solve blurredProblem coarseOptions with
  | error cause =>
    rw [solved] at found
    exact nomatch found
  | ok solution =>
    rw [solved] at found
    rcases Prod.mk.inj (Option.some.inj found) with ⟨optimum, basis⟩
    exact ⟨solution, rfl, optimum, basis,
      optimum_improved_by_at_most blurredProblem coarseOptions solution (.inl solved) optimum⟩

end LinearProgram
