import LinearProgram.Proofs.TwoPhase.Artificials

namespace LinearProgram
namespace Problem

/-!
# The artificial part of column values

The first phase minimizes the sum of the artificial columns, and the method of
penalties charges for it.  Both objectives are the objective of the problem and
this sum, taken with other weights.  In a basic solution and along a ray the
sum runs over the rows in which an artificial column is basic.
-/

variable {m n : Nat} (p : Problem ℚ m n)

/-- The sum of the values of the artificial columns. -/
def artificialSum (v : Fin p.width → ℚ) : ℚ :=
  ∑ j : Fin p.width, if p.tags[j].isArtificial then v j else 0

/-- The rows in which an artificial column is basic. -/
def artificialRows (T : Tableau ℚ m p.width) : Finset (Fin m) :=
  Finset.univ.filter fun row => p.isArtificialColumn T.basis[row] = true

variable {p}

theorem mem_artificialRows {T : Tableau ℚ m p.width} {row : Fin m} :
    row ∈ p.artificialRows T ↔ p.isArtificialColumn T.basis[row] = true := by
  simp [artificialRows]

/-! ## Objectives -/

theorem sum_columnCost_phaseOne (v : Fin p.width → ℚ) :
    ∑ j, p.columnCost .phaseOne j * v j = -p.artificialSum v := by
  rw [artificialSum, ← Finset.sum_neg_distrib]
  refine Finset.sum_congr rfl fun j _ => ?_
  rw [columnCost_phaseOne]
  split
  · exact neg_one_mul (v j)
  · rw [zero_mul, neg_zero]

theorem columnCost_bigM (penalty : ℚ) (j : Fin p.width) :
    p.columnCost (.bigM penalty) j =
      p.columnCost .plain j + penalty * p.columnCost .phaseOne j := by
  unfold columnCost
  cases p.tags[j] <;> simp [cost]

/-- The penalized objective is the objective less the penalty on the artificial sum. -/
theorem sum_columnCost_bigM (penalty : ℚ) (v : Fin p.width → ℚ) :
    ∑ j, p.columnCost (.bigM penalty) j * v j =
      p.gain (p.decisionPart v) - penalty * p.artificialSum v := by
  simp only [columnCost_bigM, add_mul, mul_assoc, Finset.sum_add_distrib, ← Finset.mul_sum,
    sum_columnCost_plain, sum_columnCost_phaseOne]
  ring

/-! ## Signs -/

theorem NoArtificial.artificialSum_eq_zero {v : Fin p.width → ℚ} (none : p.NoArtificial v) :
    p.artificialSum v = 0 := by
  refine Finset.sum_eq_zero fun j _ => ?_
  split
  · next artificial => exact none j artificial
  · rfl

section Nonnegative

variable {v : Fin p.width → ℚ} (nonnegative : ∀ j, 0 ≤ v j)
include nonnegative

theorem artificialSum_term_nonneg (j : Fin p.width) :
    0 ≤ if p.tags[j].isArtificial then v j else 0 := by
  split
  · exact nonnegative j
  · exact le_refl 0

theorem artificialSum_nonneg : 0 ≤ p.artificialSum v :=
  Finset.sum_nonneg fun j _ => artificialSum_term_nonneg nonnegative j

theorem le_artificialSum {j : Fin p.width} (artificial : p.tags[j].isArtificial = true) :
    v j ≤ p.artificialSum v := by
  have own := Finset.single_le_sum (fun k _ => artificialSum_term_nonneg nonnegative k)
    (Finset.mem_univ j)
  rwa [if_pos artificial] at own

theorem noArtificial_of_artificialSum_eq_zero (zero : p.artificialSum v = 0) : p.NoArtificial v :=
  fun j artificial => le_antisymm (zero ▸ le_artificialSum nonnegative artificial) (nonnegative j)

end Nonnegative

/-! ## Basic solutions and rays -/

section Tableaus

variable {T : Tableau ℚ m p.width} (unit : T.UnitBasis)
include unit

theorem artificialSum_spread (w : Fin m → ℚ) :
    p.artificialSum (T.spread w) = ∑ row ∈ p.artificialRows T, w row := by
  have weighted := unit.sum_mul_spread (fun j => if p.isArtificialColumn j then 1 else 0) w
  simp only [isArtificialColumn_castSucc, ite_mul, one_mul, zero_mul] at weighted
  rw [artificialSum, weighted, artificialRows, Finset.sum_filter]

theorem artificialSum_columnValue :
    p.artificialSum T.columnValue = ∑ row ∈ p.artificialRows T, T.rhs row := by
  rw [unit.columnValue_eq, artificialSum_spread unit]

/-- Along a ray the sum changes by the own unit of the column and by what the
artificial columns in the basis make up for. -/
theorem artificialSum_ray (column : Fin p.width) :
    p.artificialSum (T.ray column) =
      (if p.tags[column].isArtificial then 1 else 0) -
        ∑ row ∈ p.artificialRows T, T.entry row column.castSucc := by
  have own : ∑ j : Fin p.width,
        (if p.tags[j].isArtificial then (if j = column then (1 : ℚ) else 0) else 0) =
      if p.tags[column].isArtificial then 1 else 0 := by
    rw [Finset.sum_eq_single column fun j _ other => by rw [if_neg other, ite_self]]
    · rw [if_pos rfl]
    · exact fun absent => absurd (Finset.mem_univ column) absent
  have basic := artificialSum_spread unit fun row => -T.entry row column.castSucc
  rw [artificialSum] at basic
  simp only [artificialSum, Tableau.ray, ite_add_zero, Finset.sum_add_distrib, own, basic,
    Finset.sum_neg_distrib, sub_eq_add_neg]

end Tableaus

namespace Represents

variable {mode : ObjectiveMode ℚ} {T : Tableau ℚ m p.width}

/-- The corner of a tableau is its objective at the basic solution. -/
theorem objectiveRhs_eq (represents : p.Represents mode T) :
    T.objectiveRhs = ∑ j, p.columnCost mode j * T.columnValue j := by
  rw [← represents.canonical.objectiveAt_columnValue]
  exact represents.objectiveAt_eq represents.equations_columnValue

/-- The negated reduced cost of a column is the gain of its ray. -/
theorem sum_columnCost_ray (represents : p.Represents mode T) (column : Fin p.width) :
    ∑ j, p.columnCost mode j * T.ray column j = -T.reducedCost column := by
  have unit := represents.canonical.unitBasis
  have moved := represents.objectiveAt_eq
    ((represents.solves_iff _).mp (unit.solves_rayPoint column 1))
  rw [represents.canonical.objectiveAt_rayPoint, represents.objectiveRhs_eq] at moved
  rw [Tableau.sum_mul_rayPoint, one_mul, one_mul] at moved
  linarith

/-- The corner of the first phase is the negated sum of the basic artificial columns. -/
theorem neg_objectiveRhs_phaseOne (represents : p.Represents .phaseOne T) :
    -T.objectiveRhs = ∑ row ∈ p.artificialRows T, T.rhs row := by
  rw [represents.objectiveRhs_eq, sum_columnCost_phaseOne, neg_neg]
  exact artificialSum_columnValue represents.canonical.unitBasis

/-- The reduced cost of a column in the first phase, row by row. -/
theorem reducedCost_phaseOne (represents : p.Represents .phaseOne T) (column : Fin p.width) :
    T.reducedCost column =
      (if p.tags[column].isArtificial then 1 else 0) -
        ∑ row ∈ p.artificialRows T, T.entry row column.castSucc := by
  have slope := represents.sum_columnCost_ray column
  rw [sum_columnCost_phaseOne, neg_inj] at slope
  rw [← slope, artificialSum_ray represents.canonical.unitBasis]

/-- Where no entry of a column is above a bound, the first phase gains by it at
most the bound for each basic artificial column. -/
theorem neg_card_mul_le_reducedCost (represents : p.Represents .phaseOne T) {column : Fin p.width}
    {bound : ℚ} (below : ∀ row, T.entry row column.castSucc ≤ bound) :
    -((p.artificialRows T).card * bound) ≤ T.reducedCost column := by
  have total := Finset.sum_le_card_nsmul (p.artificialRows T) _ _ fun row _ => below row
  rw [nsmul_eq_mul] at total
  have own : (0 : ℚ) ≤ if p.tags[column].isArtificial then 1 else 0 := by
    split
    · exact zero_le_one
    · exact le_refl 0
  rw [represents.reducedCost_phaseOne]
  linarith

theorem objectiveAt_bigM {penalty : ℚ} (represents : p.Represents (.bigM penalty) T)
    {v : Fin p.width → ℚ} (equations : p.Equations v) :
    T.objectiveAt v = p.gain (p.decisionPart v) - penalty * p.artificialSum v := by
  rw [represents.objectiveAt_eq equations, sum_columnCost_bigM]

/-- Without a negative reduced cost outside of the artificial columns, no
feasible point is better than the basic solution under its penalty. -/
theorem gain_le_penalized {penalty : ℚ} (represents : p.Represents (.bigM penalty) T)
    (reduced : ∀ j, p.tags[j].isArtificial = false → 0 ≤ T.reducedCost j) {y : Fin n → ℚ}
    (admits : p.Admits y) :
    p.gain y ≤ p.gain (p.decisionPart T.columnValue) - penalty * p.artificialSum T.columnValue := by
  have value := represents.objectiveAt_bigM admits.equations_lift
  rw [decisionPart_lift, (p.noArtificial_lift y).artificialSum_eq_zero, mul_zero, sub_zero] at value
  have bound := admits.objectiveAt_lift_le fun j other => neg_zero.le.trans (reduced j other)
  rw [zero_mul, add_zero, ← represents.canonical.objectiveAt_columnValue] at bound
  rw [← value, ← represents.objectiveAt_bigM represents.equations_columnValue]
  exact bound

end Represents

end Problem
end LinearProgram
