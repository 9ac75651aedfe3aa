import LinearProgram.Proofs.TwoPhase.Infeasibility
import LinearProgram.Proofs.UpperBounds

namespace LinearProgram

/-!
# Reported values close the books

The values of an optimum are read off the basis, its objective is computed from
the coefficients of the problem, and neither looks at the last row.  Every
tableau of a run keeps the equations and the objective exactly, so the three
agree with each other: the columns of each constraint make up for the distance
between its sides, and the objective is the corner of the reported tableau, to
which the method of penalties has to add what it charged.  The tolerance has no
part in this, and the reported point need not be feasible.
-/

variable {m n : Nat}

/-- The reported values by what their columns stand for, and the accounts that
they settle: each constraint with its own columns, and the objective. -/
structure Solution.Balances (solution : Solution ℚ) (p : Problem ℚ m n)
    (amount : ColumnTag m n → ℚ) : Prop where
  values : solution.values = p.tagList.map fun tag => (tag.name p.names, amount tag)
  decision : solution.decisionValues n = List.ofFn fun k => amount (.decision k)
  row : ∀ row : Fin m,
    p.activity row (solution.decisionValues n) + p.auxiliary row amount = p.rhs[row]
  objective : solution.objective = some (p.objectiveValue (solution.decisionValues n))

/-! ## The report on one tableau -/

namespace Problem

variable (p : Problem ℚ m n)

theorem ofFn_tagValues (amount : ColumnTag m n → ℚ) :
    List.ofFn (fun j : Fin p.width => amount p.tags[j]) = p.tagList.map amount := by
  rw [← p.toList_tags, toList_eq_ofFn, List.map_ofFn]
  rfl

variable {p} {T : Tableau ℚ m p.width}

/-- The objective of the basic solution is the corner, with the penalty on the
artificial columns taken back. -/
theorem Represents.gain_columnValue_bigM {penalty : ℚ} (represents : p.Represents (.bigM penalty) T) :
    p.gain (p.decisionPart T.columnValue) =
      T.objectiveRhs + penalty * p.artificialSum T.columnValue := by
  rw [represents.objectiveRhs_eq, sum_columnCost_bigM, sub_add_cancel]

end Problem

namespace Solution

variable {p : Problem ℚ m n} {T : Tableau ℚ m p.width} {steps : List (Step ℚ m p.width)}
  {phases : Option PhaseCounts} {solution : Solution ℚ}

/-- The report of an optimum balances with the values of the basic solution. -/
theorem exists_balances {mode : ObjectiveMode ℚ} (represents : p.Represents mode T)
    (reported : ofTableau p T .optimal steps phases = .ok solution) :
    ∃ amount : ColumnTag m n → ℚ, solution.Balances p amount ∧
      T.columnValue = fun j => amount p.tags[j] := by
  rcases p.exists_tagValues T.columnValue with ⟨amount, basic⟩
  have point : p.decisionPart T.columnValue = fun k => amount (.decision k) := by
    rw [basic]
    exact funext (p.decisionPart_tagValues amount)
  have equations := represents.equations_columnValue
  rw [basic, p.equations_tagValues_iff] at equations
  rcases exists_ofTableau represents.canonical.isColumn .optimal steps phases with
    ⟨shown, found, _, _, _, _, optimum, _, listed⟩
  cases found.symm.trans reported
  rcases optimum rfl with ⟨decision, objective⟩
  rw [point] at decision objective
  refine ⟨amount, ⟨?_, decision, fun row => ?_, decision ▸ objective⟩, basic⟩
  · rw [listed rfl, basic, p.ofFn_tagValues, p.toList_columnNames, List.zip_map']
  · rw [decision, p.activity_ofFn]
    exact equations row

theorem corner?_of_ofTableau {outcome : Outcome}
    (reported : ofTableau p T outcome steps phases = .ok solution) :
    solution.corner? = some T.objectiveRhs := by
  rw [corner?, (shows_of_ofTableau reported).tableau, Tableau.getLast?_toLists]

/-- The recomputed objective of the basic solution, from what the tableau gains by it. -/
theorem Balances.objectiveValue_eq {amount : ColumnTag m n → ℚ}
    (balances : solution.Balances p amount) (basic : T.columnValue = fun j => amount p.tags[j]) :
    p.objectiveValue (solution.decisionValues n) =
      p.direction.sign * p.gain (p.decisionPart T.columnValue) := by
  rw [balances.decision, p.objectiveValue_ofFn_eq_sign_mul, basic]
  exact congrArg (fun point => p.direction.sign * p.gain point)
    (funext (p.decisionPart_tagValues amount)).symm

/-- Without a penalty the recomputed objective is the corner. -/
theorem exists_balances_plain (represents : p.Represents .plain T)
    (reported : ofTableau p T .optimal steps phases = .ok solution) :
    ∃ amount corner, solution.Balances p amount ∧ solution.corner? = some corner ∧
      p.objectiveValue (solution.decisionValues n) = p.direction.sign * corner := by
  rcases exists_balances represents reported with ⟨amount, balances, basic⟩
  refine ⟨amount, T.objectiveRhs, balances, corner?_of_ofTableau reported, ?_⟩
  rw [balances.objectiveValue_eq basic, represents.gain_columnValue]

/-- Under a penalty the corner is lower by what the artificial columns are charged. -/
theorem exists_balances_bigM {penalty : ℚ} (represents : p.Represents (.bigM penalty) T)
    (reported : ofTableau p T .optimal steps phases = .ok solution) :
    ∃ amount corner, solution.Balances p amount ∧ solution.corner? = some corner ∧
      p.objectiveValue (solution.decisionValues n) =
        p.direction.sign * (corner + penalty * p.artificialSum fun j => amount p.tags[j]) := by
  rcases exists_balances represents reported with ⟨amount, balances, basic⟩
  refine ⟨amount, T.objectiveRhs, balances, corner?_of_ofTableau reported, ?_⟩
  rw [balances.objectiveValue_eq basic, represents.gain_columnValue_bigM, basic]

end Solution

/-! ## The three methods -/

section Methods

variable {p : Problem ℚ m n} {options : Options ℚ} {solution : Solution ℚ}
  (optimum : solution.outcome = .optimal)
include optimum

theorem Plain.exists_balances (solved : solve p options = .ok solution) :
    ∃ amount corner, solution.Balances p amount ∧ solution.corner? = some corner ∧
      p.objectiveValue (solution.decisionValues n) = p.direction.sign * corner := by
  rcases optimal_cases solved optimum with ⟨_, _, _, represents, _⟩
  have reported := ofTableau_of_solve solved
  rw [optimum] at reported
  exact Solution.exists_balances_plain represents reported

theorem TwoPhase.exists_balances (solved : solve p options = .ok solution) :
    ∃ amount corner, solution.Balances p.normalized amount ∧ solution.corner? = some corner ∧
      p.objectiveValue (solution.decisionValues n) = p.direction.sign * corner := by
  rcases optimal_cases solved optimum with ⟨_, course, _⟩
  rcases secondRun_final (p := p.normalized) (epsilon_pos_of_solve solved) with ⟨represents, _⟩
  rw [solve_eq, course, report_completed] at solved
  have reported := Solution.ofTableau_of_ofRun (Failure.guarded_eq_ok_iff.mp solved).2
  rw [optimum] at reported
  exact Solution.exists_balances_plain represents reported

theorem BigM.exists_balances (solved : solve p options = .ok solution) :
    ∃ amount corner, solution.Balances p.normalized amount ∧ solution.corner? = some corner ∧
      p.objectiveValue (solution.decisionValues n) = p.direction.sign *
        (corner + options.bigM * p.normalized.artificialSum fun j => amount p.normalized.tags[j]) := by
  rcases optimal_cases solved optimum with ⟨_, represents, _⟩
  have reported := ofTableau_of_solve solved
  rw [optimum] at reported
  exact Solution.exists_balances_bigM represents reported

end Methods

/-- **Reported values close the books.**  The reported values of an optimum
satisfy every row of the normalized problem with the slack, surplus and
artificial columns of the row, exactly.  The objective of the reported point is
the corner of the reported tableau in the direction of the problem.  The method
of penalties has charged its corner for the artificial values. -/
theorem optimum_closes_books (p : Problem ℚ m n) (options : Options ℚ) (solution : Solution ℚ)
    (optimum : solution.outcome = .optimal) :
    (Plain.solve p options = .ok solution ∨ TwoPhase.solve p options = .ok solution →
        ∃ amount corner, solution.Balances p.normalized amount ∧
          solution.corner? = some corner ∧
          p.objectiveValue (solution.decisionValues n) = p.direction.sign * corner) ∧
      (BigM.solve p options = .ok solution →
        ∃ amount corner, solution.Balances p.normalized amount ∧
          solution.corner? = some corner ∧
          p.objectiveValue (solution.decisionValues n) = p.direction.sign *
            (corner + options.bigM *
              p.normalized.artificialSum fun j => amount p.normalized.tags[j])) := by
  refine ⟨fun solved => ?_, fun solved => BigM.exists_balances optimum solved⟩
  rcases solved with solved | solved
  · -- The plain method accepts only problems that normalization leaves as they are.
    rcases Plain.optimal_cases solved optimum with ⟨_, _, feasible, _⟩
    rw [Problem.normalized_of_nonneg feasible]
    exact Plain.exists_balances optimum solved
  · exact TwoPhase.exists_balances optimum solved

/-- A lower bound that is written as a negative upper bound, a small equation
and an upper bound. -/
def chargedProblem : Problem ℚ 3 2 where
  objective := #[1, 0].toVector
  coefficients := #[#[-1, 0].toVector, #[0, 1 / 16].toVector, #[1, 1].toVector].toVector
  rhs := #[-1, 1 / 5, 3].toVector
  senses := #[.le, .eq, .le].toVector
  direction := .minimize
  names := #["x", "y"].toVector
  variables_pos := Nat.zero_lt_two

def chargingOptions : Options ℚ := { Options.default with epsilon := 1 / 4, bigM := 2 }

/-- Both methods leave the artificial column of the equation in the basis at a
fifth, and the method of penalties charges two fifths for it. -/
theorem chargedProblem_closes_books :
    ∃ phased penalized : Solution ℚ,
      TwoPhase.solve chargedProblem chargingOptions = .ok phased ∧
      BigM.solve chargedProblem chargingOptions = .ok penalized ∧
      phased.outcome = .optimal ∧ penalized.outcome = .optimal ∧
      penalized.values =
        [("x", 1), ("y", 0), ("e1", 0), ("a1", 0), ("a2", 1 / 5), ("s3", 2)] ∧
      phased.corner? = some (-1) ∧ penalized.corner? = some (-7 / 5) ∧
      (∃ amount corner, phased.Balances chargedProblem.normalized amount ∧
        phased.corner? = some corner ∧
        chargedProblem.objectiveValue (phased.decisionValues 2) =
          chargedProblem.direction.sign * corner) ∧
      ∃ amount corner, penalized.Balances chargedProblem.normalized amount ∧
        penalized.corner? = some corner ∧
        chargedProblem.objectiveValue (penalized.decisionValues 2) =
          chargedProblem.direction.sign * (corner + chargingOptions.bigM *
            chargedProblem.normalized.artificialSum fun j =>
              amount chargedProblem.normalized.tags[j]) := by
  obtain ⟨phased, staged, stated⟩ : ∃ phased, TwoPhase.solve chargedProblem chargingOptions =
      .ok phased ∧ (phased.outcome, phased.corner?) = (.optimal, some (-1)) :=
    Solution.exists_ok_of_map_toOption (by decide +kernel)
  obtain ⟨penalized, weighed, shown⟩ : ∃ penalized, BigM.solve chargedProblem chargingOptions =
      .ok penalized ∧ (penalized.outcome, penalized.corner?, penalized.values) =
        (.optimal, some (-7 / 5),
          [("x", 1), ("y", 0), ("e1", 0), ("a1", 0), ("a2", 1 / 5), ("s3", 2)]) :=
    Solution.exists_ok_of_map_toOption (by decide +kernel)
  rcases Prod.mk.inj stated with ⟨first, corner⟩
  rcases Prod.mk.inj shown with ⟨second, rest⟩
  rcases Prod.mk.inj rest with ⟨charged, values⟩
  exact ⟨phased, penalized, staged, weighed, first, second, values, corner, charged,
    (optimum_closes_books chargedProblem chargingOptions phased first).1 (.inr staged),
    (optimum_closes_books chargedProblem chargingOptions penalized second).2 weighed⟩

end LinearProgram
