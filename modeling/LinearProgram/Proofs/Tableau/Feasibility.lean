import LinearProgram.Proofs.Tableau.Choice
import LinearProgram.Proofs.Tableau.System

namespace LinearProgram
namespace Tableau

/-!
# Feasible tableaus

The basic solution of a tableau is nonnegative when its right hand sides are.
The ratio test keeps it so, provided that no row which the tolerance passes
over has a smaller ratio.  A column without positive entries leads out of the
basic solution along a ray of nonnegative solutions.
-/

variable {m N : Nat} {T : Tableau ℚ m N}

/-- No right hand side is negative. -/
def NonnegativeRhs (T : Tableau ℚ m N) : Prop :=
  ∀ row : Fin m, 0 ≤ T.rhs row

/-- No row with a positive entry in a column has a smaller ratio than the given
one, however small the entry is. -/
def LeastRatio (T : Tableau ℚ m N) (row : Fin m) (column : Fin (N + 1)) : Prop :=
  ∀ other : Fin m, 0 < T.entry other column →
    T.rhs row / T.entry row column ≤ T.rhs other / T.entry other column

instance (T : Tableau ℚ m N) (row : Fin m) (column : Fin (N + 1)) :
    Decidable (T.LeastRatio row column) :=
  inferInstanceAs (Decidable (∀ other : Fin m, 0 < T.entry other column →
    T.rhs row / T.entry row column ≤ T.rhs other / T.entry other column))

theorem NonnegativeRhs.columnValue_nonneg (nonnegative : T.NonnegativeRhs) (unit : T.UnitBasis)
    (j : Fin N) : 0 ≤ T.columnValue j := by
  rw [unit.columnValue_eq]
  exact spread_nonneg T.rhs nonnegative j

/-! ## The ratio test -/

/-- A pivot in the row of the least ratio keeps the right hand sides nonnegative. -/
theorem NonnegativeRhs.pivoted (nonnegative : T.NonnegativeRhs) {row : Fin m}
    {column : Fin (N + 1)} (positive : 0 < T.entry row column)
    (least : T.LeastRatio row column) : (T.pivoted row column).NonnegativeRhs := by
  have step : 0 ≤ T.rhs row / T.entry row column := div_nonneg (nonnegative row) positive.le
  intro other
  by_cases same : other = row
  · rw [same, rhs_pivoted_self positive.ne']
    exact step
  · rw [rhs_pivoted_of_ne positive.ne' same]
    rcases le_or_gt (T.entry other column) 0 with below | above
    · have kept := mul_nonpos_of_nonpos_of_nonneg below step
      have old := nonnegative other
      linarith
    · have reached := (le_div_iff₀ above).mp (least other above)
      rw [mul_comm] at reached
      exact sub_nonneg.mpr reached

/-- Every positive entry outside of the right hand side lies above the tolerance. -/
def ClearPositives (T : Tableau ℚ m N) : Prop :=
  ∀ (row : Fin m) (column : Fin N),
    T.entry row column.castSucc ≤ 0 ∨ T.epsilon < T.entry row column.castSucc

instance (T : Tableau ℚ m N) : Decidable T.ClearPositives :=
  inferInstanceAs (Decidable (∀ (row : Fin m) (column : Fin N),
    T.entry row column.castSucc ≤ 0 ∨ T.epsilon < T.entry row column.castSucc))

/-- The ratio test looks at every positive entry that is clear. -/
theorem ClearPositives.leastRatio (clear : T.ClearPositives) {row : Fin m} {column : Fin N}
    (leaving : T.leaving? column.castSucc = some row) : T.LeastRatio row column.castSucc := by
  intro other positive
  rcases clear other column with nonpositive | blocking
  · exact absurd positive (not_lt.mpr nonpositive)
  · exact ratio_le_of_leaving? leaving blocking

/-! ## Rays -/

/-- The direction in which a column grows by one and the basic columns make up for it. -/
def ray (T : Tableau ℚ m N) (column : Fin N) (j : Fin N) : ℚ :=
  (if j = column then 1 else 0) + T.spread (fun row => -T.entry row column.castSucc) j

theorem UnitBasis.sum_mul_ray (unit : T.UnitBasis) (f : Fin (N + 1) → ℚ) (column : Fin N) :
    ∑ j : Fin N, f j.castSucc * T.ray column j =
      f column.castSucc - ∑ row : Fin m, f T.basis[row] * T.entry row column.castSucc := by
  simp only [ray, mul_add, Finset.sum_add_distrib, unit.sum_mul_spread f, mul_ite, mul_one, mul_zero,
    Finset.sum_ite_eq', Finset.mem_univ, if_true, mul_neg, Finset.sum_neg_distrib]
  ring

theorem ray_nonneg {column : Fin N} (below : ∀ row, T.entry row column.castSucc ≤ 0) (j : Fin N) :
    0 ≤ T.ray column j := by
  have basic : 0 ≤ T.spread (fun row => -T.entry row column.castSucc) j :=
    spread_nonneg _ (fun row => neg_nonneg.mpr (below row)) j
  unfold ray
  split
  · exact add_nonneg zero_le_one basic
  · exact add_nonneg (le_refl 0) basic

/-- The point at a given distance from the basic solution along the ray of a column. -/
def rayPoint (T : Tableau ℚ m N) (column : Fin N) (distance : ℚ) (j : Fin N) : ℚ :=
  T.columnValue j + distance * T.ray column j

theorem sum_mul_rayPoint (f : Fin N → ℚ) (column : Fin N) (distance : ℚ) :
    ∑ j, f j * T.rayPoint column distance j =
      ∑ j, f j * T.columnValue j + distance * ∑ j, f j * T.ray column j := by
  simp only [rayPoint, mul_add, Finset.sum_add_distrib, Finset.mul_sum, mul_left_comm]

theorem UnitBasis.solves_rayPoint (unit : T.UnitBasis) (column : Fin N) (distance : ℚ) :
    T.Solves (T.rayPoint column distance) := by
  intro row
  have still : ∑ j : Fin N, T.entry row j.castSucc * T.ray column j = 0 := by
    rw [unit.sum_mul_ray (fun j => T.entry row j)]
    simp only [unit.isUnit, ite_mul, one_mul, zero_mul, Finset.sum_ite_eq, Finset.mem_univ, if_true,
      sub_self]
  rw [sum_mul_rayPoint, unit.solves_columnValue row, still, mul_zero, add_zero]

/-- A sum that is the same at all solutions does not change along a ray. -/
theorem UnitBasis.sum_mul_ray_eq_zero (unit : T.UnitBasis) {f : Fin N → ℚ} {value : ℚ}
    (constant : ∀ v, T.Solves v → ∑ j, f j * v j = value) (column : Fin N) :
    ∑ j, f j * T.ray column j = 0 := by
  have moved := constant _ (unit.solves_rayPoint column 1)
  rw [sum_mul_rayPoint, constant _ unit.solves_columnValue, one_mul] at moved
  exact left_eq_add.mp moved.symm

/-- Along the ray of a column the objective falls by the reduced cost per unit. -/
theorem Canonical.objectiveAt_rayPoint (canonical : T.Canonical) (column : Fin N) (distance : ℚ) :
    T.objectiveAt (T.rayPoint column distance) =
      T.objectiveRhs - distance * T.reducedCost column := by
  have corner := canonical.objectiveAt_columnValue
  have slope : ∑ j : Fin N, T.reducedCost j * T.ray column j = T.reducedCost column := by
    apply (canonical.unitBasis.sum_mul_ray (T.cell (Fin.last m)) column).trans
    rw [Finset.sum_eq_zero fun row _ => by rw [canonical.pricedOut row, zero_mul], sub_zero]
    rfl
  unfold objectiveAt at corner ⊢
  rw [sum_mul_rayPoint, slope]
  linarith

/-! ## Sharp tableaus -/

instance (T : Tableau ℚ m N) : Decidable T.Sharp :=
  inferInstanceAs (Decidable (∀ i j, T.cell i j = 0 ∨ T.epsilon < Scalar.abs (T.cell i j)))

theorem Sharp.nonpos_of_le {i : Fin (m + 1)} {j : Fin (N + 1)} (sharp : T.Sharp)
    (small : T.cell i j ≤ T.epsilon) : T.cell i j ≤ 0 := by
  rcases sharp i j with zero | large
  · exact zero.le
  · rw [Scalar.abs_rat] at large
    rcases lt_abs.mp large with above | below
    · exact absurd above (not_lt.mpr small)
    · by_contra positive
      linarith [not_le.mp positive]

theorem Sharp.nonneg_of_ge {i : Fin (m + 1)} {j : Fin (N + 1)} (sharp : T.Sharp)
    (small : -T.epsilon ≤ T.cell i j) : 0 ≤ T.cell i j := by
  rcases sharp i j with zero | large
  · exact zero.ge
  · rw [Scalar.abs_rat] at large
    rcases lt_abs.mp large with above | below
    · by_contra negative
      linarith [not_le.mp negative]
    · linarith

theorem Sharp.eq_zero_of_abs_le {i : Fin (m + 1)} {j : Fin (N + 1)} (sharp : T.Sharp)
    (small : |T.cell i j| ≤ T.epsilon) : T.cell i j = 0 := by
  rcases sharp i j with zero | large
  · exact zero
  · rw [Scalar.abs_rat] at large
    exact absurd large (not_lt.mpr small)

/-- A column of a sharp tableau that no row stops has no positive entry. -/
theorem Sharp.entry_nonpos (sharp : T.Sharp) {column : Fin (N + 1)}
    (nothing : T.leaving? column = none) (row : Fin m) : T.entry row column ≤ 0 :=
  sharp.nonpos_of_le ((T.leaving?_eq_none_iff column).mp nothing row)

theorem Sharp.clearPositives (sharp : T.Sharp) : T.ClearPositives := by
  intro row column
  rcases le_or_gt (T.entry row column.castSucc) T.epsilon with small | large
  · exact Or.inl (sharp.nonpos_of_le small)
  · exact Or.inr large

theorem Sharp.reducedCost_nonneg (sharp : T.Sharp) {allowed : Fin N → Bool}
    (optimal : T.entering? allowed = none) {j : Fin N} (permitted : allowed j = true) :
    0 ≤ T.reducedCost j :=
  sharp.nonneg_of_ge ((T.entering?_eq_none_iff allowed).mp optimal j permitted)

end Tableau
end LinearProgram
