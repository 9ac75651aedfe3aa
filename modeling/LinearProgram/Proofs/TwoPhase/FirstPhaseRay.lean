import LinearProgram.Proofs.ArtificialSum
import LinearProgram.Proofs.TwoPhase.Course

namespace LinearProgram

/-!
# When the first phase stops at a ray

The artificial sum is never negative, so in theory no column of the first phase
can grow without bound.  The tolerance leaves one way out.  A column enters when
its reduced cost, a sum over the rows with a basic artificial column, lies below
minus the tolerance, while the ratio test looks at each of these rows alone.
Several entries within the tolerance can add up to an improvement that no row
stops, and then a bounded problem is reported to be unbounded.
-/

variable {m n : Nat}

namespace TwoPhase

/-- At a ray of the first phase at least two artificial columns are basic, and
the reduced cost lies between one tolerance for all of them and one for each. -/
theorem firstRun_ray {q : Problem ℚ m n} {options : Options ℚ} (positive : 0 < options.epsilon)
    {column : Fin q.width}
    (stops : (firstPass q options).StopsAt (firstRun q options).final (.unbounded column)) :
    2 ≤ (q.artificialRows (firstRun q options).final).card ∧
      -((q.artificialRows (firstRun q options).final).card * options.epsilon) ≤
        (firstRun q options).final.reducedCost column ∧
      (firstRun q options).final.reducedCost column < -options.epsilon := by
  rcases firstRun_final (p := q) positive with ⟨represents, epsilon⟩
  have above := represents.neg_card_mul_le_reducedCost
    ((Tableau.leaving?_eq_none_iff _ column.castSucc).mp stops.2)
  have below := (Tableau.entering?_spec stops.1).2
  rw [epsilon] at above below
  refine ⟨?_, above, below⟩
  -- The entry of a single row would have to be both within the tolerance and above it.
  by_contra few
  have small : ((q.artificialRows (firstRun q options).final).card : ℚ) ≤ 1 := by
    exact_mod_cast Nat.le_of_lt_succ (not_le.mp few)
  have single := mul_le_mul_of_nonneg_right small positive.le
  linarith

/-- A first phase that stops short of an optimum decides the outcome. -/
theorem outcome_of_firstRun {p : Problem ℚ m n} {options : Options ℚ} {solution : Solution ℚ}
    (solved : solve p options = .ok solution) {termination : Termination p.normalized.width}
    (other : termination ≠ .optimal)
    (ending : (firstRun p.normalized options).ending = .ok termination) :
    solution.outcome = termination.outcome := by
  have short : (firstRun p.normalized options).ending ≠ .ok .optimal := by
    rw [ending]
    exact fun same => other (Except.ok.inj same)
  have course : courseNormalized p.normalized options = .stopped (firstRun p.normalized options) :=
    courseNormalized_of_ne_optimal rfl short
  have canonical := (firstRun_final (p := p.normalized) (epsilon_pos_of_solve solved)).1.canonical
  obtain ⟨reported, found, reports⟩ := exists_reports p canonical termination.outcome
    (firstRun p.normalized options).steps (some ⟨(firstRun p.normalized options).iterations, 0⟩)
  rw [solve_eq_report p (validate_of_solve solved), course, report, ending] at solved
  cases found.symm.trans solved
  exact reports.1

/-- The method reports an unbounded problem either after a first phase that
ended at an optimum with an artificial sum within the tolerance, or at a ray of
the first phase, where at least two artificial columns are basic and the
entering column improves their sum by at most one tolerance for each. -/
theorem firstRun_of_unbounded (p : Problem ℚ m n) (options : Options ℚ) (solution : Solution ℚ)
    (solved : solve p options = .ok solution) (endless : solution.outcome = .unbounded) :
    (firstRun p.normalized options).ending = .ok .optimal ∧
        ∑ row ∈ p.normalized.artificialRows (firstRun p.normalized options).final,
          (firstRun p.normalized options).final.rhs row ≤ options.epsilon ∨
      ∃ column, (firstRun p.normalized options).ending = .ok (.unbounded column) ∧
        2 ≤ (p.normalized.artificialRows (firstRun p.normalized options).final).card ∧
        -((p.normalized.artificialRows (firstRun p.normalized options).final).card *
            options.epsilon) ≤ (firstRun p.normalized options).final.reducedCost column ∧
        (firstRun p.normalized options).final.reducedCost column < -options.epsilon := by
  have positive := epsilon_pos_of_solve solved
  rcases firstRun_ending (p := p.normalized) positive with ⟨termination, ending, stops⟩
  cases termination with
  | unbounded column => exact Or.inr ⟨column, ending, firstRun_ray positive stops⟩
  | iterationLimit =>
    have short : (Termination.iterationLimit : Termination p.normalized.width) ≠ .optimal := nofun
    have decided := outcome_of_firstRun solved short ending
    exact nomatch decided.symm.trans endless
  | optimal =>
    refine Or.inl ⟨ending, ?_⟩
    rw [← (firstRun_final (p := p.normalized) positive).1.neg_objectiveRhs_phaseOne]
    cases concludes_of_solve solved with
    | stopped termination short early course reports =>
      rcases Termination.exists_eq_unbounded (reports.1.symm.trans endless) with ⟨column, rfl⟩
      exact nomatch stops.symm.trans early.1
    | infeasible optimum large course reports => exact nomatch reports.1.symm.trans endless
    | completed termination small finished course reports => exact small

/-! ## A bounded problem that is reported to be unbounded -/

/-- The last two equations are the first one, turned by less than the tolerance
around the only point that satisfies it. -/
def nearlyParallelProblem : Problem ℚ 3 2 where
  objective := #[1, 1].toVector
  coefficients := #[#[2, -1].toVector, #[2, -1 + 1 / 2 ^ 34].toVector,
    #[2, -1 + 1 / 2 ^ 34].toVector].toVector
  rhs := #[2, 2 + 1 / 2 ^ 34, 2 + 1 / 2 ^ 34].toVector
  senses := #[.eq, .eq, .eq].toVector
  direction := .maximize
  names := #["x1", "x2"].toVector
  variables_pos := Nat.zero_lt_two

theorem eq_of_admits_nearlyParallelProblem {y : Fin 2 → ℚ}
    (admits : nearlyParallelProblem.Admits y) : y = ![3 / 2, 1] := by
  have first : ∑ k : Fin 2, nearlyParallelProblem.coefficients[(0 : Fin 3)][k] * y k = 2 :=
    admits.holds 0
  have second : ∑ k : Fin 2, nearlyParallelProblem.coefficients[(1 : Fin 3)][k] * y k =
      2 + 1 / 2 ^ 34 := admits.holds 1
  rw [Fin.sum_univ_two] at first second
  change (2 : ℚ) * y 0 + -1 * y 1 = 2 at first
  change (2 : ℚ) * y 0 + (-1 + 1 / 2 ^ 34) * y 1 = 2 + 1 / 2 ^ 34 at second
  have top : y 1 = 1 := by linarith
  have bottom : y 0 = 3 / 2 := by linarith
  ext k
  fin_cases k
  · exact bottom
  · exact top

theorem nearlyParallelProblem_optimal : nearlyParallelProblem.Optimal [3 / 2, 1] := by
  have only : ∀ y, nearlyParallelProblem.Feasible y → y = [3 / 2, 1] := by
    intro list feasible
    rcases feasible.exists_ofFn with ⟨y, rfl, admits⟩
    rw [eq_of_admits_nearlyParallelProblem admits]
    rfl
  refine ⟨⟨rfl, by decide +kernel, fun row => ?_⟩, fun y feasible => ?_⟩
  · rw [Sense.holds_iff_excess]
    decide +kernel +revert
  · rw [only y feasible]

/-- The first phase on the nearly parallel problem stops at a ray after one
pivot, with an artificial sum above the tolerance.  The method reports an
unbounded problem, although the problem has an optimum. -/
theorem nearlyParallelProblem_reported_unbounded :
    (Options.default : Options ℚ).validate = .ok () ∧ nearlyParallelProblem.Optimal [3 / 2, 1] ∧
      (∃ column, (firstRun nearlyParallelProblem.normalized Options.default).ending =
        .ok (.unbounded column)) ∧
      (Options.default : Options ℚ).epsilon <
        -(firstRun nearlyParallelProblem.normalized Options.default).final.objectiveRhs ∧
      ∃ solution, solve nearlyParallelProblem Options.default = .ok solution ∧
        solution.outcome = .unbounded ∧ solution.phases = some ⟨1, 0⟩ := by
  have valid : (Options.default : Options ℚ).validate = .ok () := by decide +kernel
  have large : (Options.default : Options ℚ).epsilon <
      -(firstRun nearlyParallelProblem.normalized Options.default).final.objectiveRhs := by
    decide +kernel
  have ended : (firstRun nearlyParallelProblem.normalized Options.default).ending.toOption.map
      Termination.outcome = some .unbounded := by decide +kernel
  have found : (solve nearlyParallelProblem Options.default).toOption.map
      (fun solution => (solution.outcome, solution.phases)) =
    some (.unbounded, some ⟨1, 0⟩) := by decide +kernel
  rcases Solution.exists_ok_of_map_toOption ended with ⟨termination, ending, decided⟩
  rcases Termination.exists_eq_unbounded decided with ⟨column, rfl⟩
  rcases Solution.exists_ok_of_map_toOption found with ⟨solution, solved, reads⟩
  rcases Prod.mk.inj reads with ⟨endless, phases⟩
  exact ⟨valid, nearlyParallelProblem_optimal, ⟨column, ending⟩, large, solution, solved, endless,
    phases⟩

/-- On the nearly parallel problem it is the first phase that stops at a ray. -/
theorem nearlyParallelProblem_firstRun_ray :
    ∃ solution, solve nearlyParallelProblem Options.default = .ok solution ∧
      solution.outcome = .unbounded ∧
      ∃ column, (firstRun nearlyParallelProblem.normalized Options.default).ending =
          .ok (.unbounded column) ∧
        2 ≤ (nearlyParallelProblem.normalized.artificialRows
          (firstRun nearlyParallelProblem.normalized Options.default).final).card := by
  have ended : (firstRun nearlyParallelProblem.normalized Options.default).ending.toOption.map
      Termination.outcome = some .unbounded := by decide +kernel
  have found : (solve nearlyParallelProblem Options.default).toOption.map Solution.outcome =
    some .unbounded := by decide +kernel
  rcases Solution.exists_ok_of_map_toOption found with ⟨solution, solved, endless⟩
  refine ⟨solution, solved, endless, ?_⟩
  rcases firstRun_of_unbounded nearlyParallelProblem Options.default solution solved endless with
    ⟨optimum, _⟩ | ⟨column, ending, several, _⟩
  · rw [optimum] at ended
    exact nomatch ended
  · exact ⟨column, ending, several⟩

end TwoPhase
end LinearProgram
