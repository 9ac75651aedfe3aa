import LinearProgram.Proofs.ArtificialSum
import LinearProgram.Proofs.Tableau.Reloading

namespace LinearProgram

/-!
# A penalty is the first phase with a weight

The costs under a penalty are the costs of the problem plus the penalty times
those of the first phase.  Objectives take no part in the constraint rows, so
the same pivots are refused under all three of them, and the others lead to the
same rows and the same basis.  Priced out against one basis the three rows of
reduced costs stand in the relation of their costs, whatever pivots led there.
-/

variable {m n N : Nat}

namespace Tableau

/-- Three tableaus with the same constraint rows and the same basis.  The last
row of the third one is that of the first plus a multiple of that of the second. -/
structure Combines (weight : ℚ) (first second total : Tableau ℚ m N) : Prop where
  basis : total.basis = first.basis ∧ total.basis = second.basis
  entry : ∀ (row : Fin m) (j : Fin (N + 1)),
    total.entry row j = first.entry row j ∧ total.entry row j = second.entry row j
  objective : ∀ j : Fin (N + 1), total.cell (Fin.last m) j =
    first.cell (Fin.last m) j + weight * second.cell (Fin.last m) j

/-- A large weight blurs nothing.  Where the second tableau has a reduced cost,
the weight makes it large, and elsewhere that of the first one is left. -/
theorem exists_weight_sharp {first : Tableau ℚ m N} (sharp : first.Sharp)
    (second : Tableau ℚ m N) :
    ∃ least, ∀ weight, least < weight → ∀ total, Combines weight first second total →
      total.epsilon = first.epsilon → total.Sharp := by
  let bound := fun j =>
    (first.epsilon + |first.cell (Fin.last m) j|) / |second.cell (Fin.last m) j|
  rcases (Set.finite_range bound).bddAbove with ⟨least, above⟩
  refine ⟨least, fun weight larger total combines same i j => ?_⟩
  rw [same]
  refine Fin.lastCases ?_ (fun row => ?_) i
  · rw [combines.objective]
    by_cases missing : second.cell (Fin.last m) j = 0
    · rw [missing, mul_zero, add_zero]
      exact sharp (Fin.last m) j
    · have heavy := (div_lt_iff₀ (abs_pos.mpr missing)).mp ((above ⟨j, rfl⟩).trans_lt larger)
      have apart := abs_sub_abs_le_abs_sub (weight * second.cell (Fin.last m) j)
        (-first.cell (Fin.last m) j)
      rw [abs_neg, sub_neg_eq_add, add_comm _ (first.cell (Fin.last m) j), abs_mul] at apart
      have weighed := mul_le_mul_of_nonneg_right (le_abs_self weight)
        (abs_nonneg (second.cell (Fin.last m) j))
      right
      rw [Scalar.abs_rat]
      linarith
  · have kept : total.cell row.castSucc j = first.cell row.castSucc j := (combines.entry row j).1
    rw [kept]
    exact sharp row.castSucc j

/-- Objectives whose costs are combined have combined rows of reduced costs. -/
theorem UnitBasis.combines_loadObjective {T : Tableau ℚ m N} (unit : T.UnitBasis) {weight : ℚ}
    {first second total : Vector ℚ N}
    (costs : ∀ j, costOf total j = costOf first j + weight * costOf second j) :
    Combines weight (T.loadObjective first) (T.loadObjective second) (T.loadObjective total) where
  basis := ⟨rfl, rfl⟩
  entry row j := by
    constructor
    · rw [entry_loadObjective, entry_loadObjective]
    · rw [entry_loadObjective, entry_loadObjective]
  objective j := by
    have paid : ∀ row : Fin m, costOf total T.basis[row] * T.entry row j =
        costOf first T.basis[row] * T.entry row j +
          weight * (costOf second T.basis[row] * T.entry row j) := by
      intro row
      rw [costs]
      ring
    simp only [unit.cell_loadObjective, paid, Finset.sum_add_distrib, ← Finset.mul_sum, costs j]
    ring

end Tableau

namespace Problem

variable (p : Problem ℚ m n)

theorem costOf_bigM (penalty : ℚ) (j : Fin (p.width + 1)) :
    Tableau.costOf (p.costs (.bigM penalty)) j =
      Tableau.costOf (p.costs .plain) j + penalty * Tableau.costOf (p.costs .phaseOne) j := by
  refine Fin.lastCases ?_ (fun column => ?_) j
  · simp only [Tableau.costOf_last, mul_zero, add_zero]
  · simp only [Tableau.costOf_castSucc, costs_getElem, columnCost_bigM]

variable {epsilon : ℚ} (positive : 0 < epsilon) (places : List (Fin m × Fin p.width))
include positive

/-- The objective of a problem may be loaded after all attempts at pivots. -/
theorem attempts_tableau (mode : ObjectiveMode ℚ) :
    (p.tableau mode epsilon).attempts places =
      ((p.bareTableau epsilon).attempts places).loadObjective (p.costs mode) :=
  (p.unitBasis_bareTableau epsilon).attempts_loadObjective positive (p.costs mode) places

theorem unitBasis_attempts_bareTableau : ((p.bareTableau epsilon).attempts places).UnitBasis :=
  (p.unitBasis_bareTableau epsilon).attempts positive places

/-- After any attempts the penalized tableau combines the plain one with that of
the first phase. -/
theorem combines_attempts (penalty : ℚ) :
    Tableau.Combines penalty ((p.tableau .plain epsilon).attempts places)
      ((p.tableau .phaseOne epsilon).attempts places)
      ((p.tableau (.bigM penalty) epsilon).attempts places) := by
  simp only [p.attempts_tableau positive]
  apply (p.unitBasis_attempts_bareTableau positive places).combines_loadObjective
  exact p.costOf_bigM penalty

/-- Above some penalty the penalized tableau is as sharp as the plain one. -/
theorem exists_penalty_sharp (sharp : ((p.tableau .plain epsilon).attempts places).Sharp) :
    ∃ least, ∀ penalty, least < penalty →
      ((p.tableau (.bigM penalty) epsilon).attempts places).Sharp := by
  rcases Tableau.exists_weight_sharp sharp ((p.tableau .phaseOne epsilon).attempts places) with
    ⟨least, above⟩
  refine ⟨least, fun penalty larger => ?_⟩
  apply above penalty larger _ (p.combines_attempts positive places penalty)
  rw [Tableau.epsilon_attempts, Tableau.epsilon_attempts]
  rfl

/-- Whether a pivot is accepted and on which element does not depend on the objective. -/
theorem map_fst_pivot_attempts (mode : ObjectiveMode ℚ) (row : Fin m) (column : Fin p.width) :
    (((p.tableau mode epsilon).attempts places).pivot row column.castSucc).map Prod.fst =
      (((p.bareTableau epsilon).attempts places).pivot row column.castSucc).map Prod.fst := by
  have unit := p.unitBasis_attempts_bareTableau positive places
  have tolerance : 0 < ((p.bareTableau epsilon).attempts places).epsilon := by
    rw [Tableau.epsilon_attempts]
    exact positive
  rw [p.attempts_tableau positive, unit.pivot_loadObjective _ tolerance]
  cases ((p.bareTableau epsilon).attempts places).pivot row column.castSucc with
  | error cause => rfl
  | ok answer => rfl

/-- **The penalized objective is the plain one plus the penalty times that of the
first phase.**  After any attempts at pivots on the three first tableaus their
constraint rows and bases are the same, and every cell of the penalized last row
is the plain cell plus the penalty times the cell of the first phase.  The next
pivot is accepted on the same element under each objective, or refused for the
same reason. -/
theorem bigM_combines_phases (penalty : ℚ) :
    let after := fun mode => (p.tableau mode epsilon).attempts places
    Tableau.Combines penalty (after .plain) (after .phaseOne) (after (.bigM penalty)) ∧
      ∀ (mode other : ObjectiveMode ℚ) (row : Fin m) (column : Fin p.width),
        ((after mode).pivot row column.castSucc).map Prod.fst =
          ((after other).pivot row column.castSucc).map Prod.fst := by
  intro after
  constructor
  · exact p.combines_attempts positive places penalty
  · intro mode other row column
    apply (p.map_fst_pivot_attempts positive places mode row column).trans
    exact (p.map_fst_pivot_attempts positive places other row column).symm

omit positive in
/-- At the end of the detour, which begins with a pivot that is refused, the
penalized corner is 183 under a penalty of 100.  The pivot that was refused at
the beginning would still be. -/
theorem detour_combines_phases :
    let after := fun mode => (threeSensesProblem.tableau mode (1 / 1000)).attempts detour
    let column : Fin threeSensesProblem.width := ⟨1, by decide⟩
    (0 : ℚ) < 1 / 1000 ∧
      Tableau.Combines 100 (after .plain) (after .phaseOne) (after (.bigM 100)) ∧
      (after .plain).objectiveRhs = -17 ∧ (after .phaseOne).objectiveRhs = 2 ∧
      (after (.bigM 100)).objectiveRhs = -17 + 100 * 2 ∧
      ((after .plain).pivot 1 column.castSucc).map Prod.fst =
        .error (.degeneratePivot 1 column.castSucc 0) ∧
      ((after .phaseOne).pivot 1 column.castSucc).map Prod.fst =
        .error (.degeneratePivot 1 column.castSucc 0) := by
  intro after column
  have positive : (0 : ℚ) < 1 / 1000 := by decide +kernel
  rcases threeSensesProblem.bigM_combines_phases positive detour 100 with ⟨combines, alike⟩
  have plain : (after .plain).objectiveRhs = -17 := by decide +kernel
  have phaseOne : (after .phaseOne).objectiveRhs = 2 := by decide +kernel
  have corner := combines.objective (Fin.last threeSensesProblem.width)
  have refused : ((after .plain).pivot 1 column.castSucc).map Prod.fst =
      .error (.degeneratePivot 1 column.castSucc 0) := by decide +kernel
  refine ⟨positive, combines, plain, phaseOne, ?_, refused, ?_⟩
  · change (after (.bigM 100)).objectiveRhs =
      (after .plain).objectiveRhs + 100 * (after .phaseOne).objectiveRhs at corner
    rw [corner, plain, phaseOne]
  · exact (alike .phaseOne .plain 1 column).trans refused

end Problem
end LinearProgram
