import LinearProgram.Proofs.Tableau.Elimination

namespace LinearProgram
namespace Tableau

/-!
# The system that a tableau stands for

The constraint rows of a tableau are equations between the values of its
columns, and its last row expresses an objective at every solution of these
equations.  A pivot changes neither the solutions nor the value of the
objective at any of them.  The basic solution is the solution that is zero
outside of the basis.
-/

variable {m N : Nat}

/-- Column values that satisfy every constraint row. -/
def Solves (T : Tableau ℚ m N) (v : Fin N → ℚ) : Prop :=
  ∀ row : Fin m, ∑ j : Fin N, T.entry row j.castSucc * v j = T.rhs row

/-- The objective that the last row gives to column values. -/
def objectiveAt (T : Tableau ℚ m N) (v : Fin N → ℚ) : ℚ :=
  T.objectiveRhs - ∑ j : Fin N, T.reducedCost j * v j

/-- The last row expresses the objective with the given costs at every solution. -/
def Prices (T : Tableau ℚ m N) (costs : Fin N → ℚ) : Prop :=
  ∀ v, T.Solves v → T.objectiveAt v = ∑ j, costs j * v j

/-- A constraint row that has lost a multiple of another one. -/
private theorem sum_sub_multiple (left right v : Fin N → ℚ) (factor : ℚ) :
    ∑ j, (left j - factor * right j) * v j =
      ∑ j, left j * v j - factor * ∑ j, right j * v j := by
  simp only [sub_mul, Finset.sum_sub_distrib, Finset.mul_sum, mul_assoc]

/-! ## Pivots -/

section Pivot

variable {T : Tableau ℚ m N} {row : Fin m} {column : Fin (N + 1)}
  (nonzero : T.entry row column ≠ 0)
include nonzero

private theorem sum_entry_pivoted_self (v : Fin N → ℚ) :
    ∑ j : Fin N, (T.pivoted row column).entry row j.castSucc * v j =
      (∑ j : Fin N, T.entry row j.castSucc * v j) / T.entry row column := by
  simp only [entry_pivoted_self nonzero, Finset.sum_div, div_mul_eq_mul_div]

private theorem sum_entry_pivoted_of_ne (v : Fin N → ℚ) {other : Fin m} (different : other ≠ row) :
    ∑ j : Fin N, (T.pivoted row column).entry other j.castSucc * v j =
      ∑ j : Fin N, T.entry other j.castSucc * v j -
        T.entry other column *
          ((∑ j : Fin N, T.entry row j.castSucc * v j) / T.entry row column) := by
  simp only [entry_pivoted_of_ne nonzero _ different, sum_sub_multiple, Finset.sum_div,
    div_mul_eq_mul_div]

theorem solves_pivoted_iff (v : Fin N → ℚ) : (T.pivoted row column).Solves v ↔ T.Solves v := by
  have own : ∑ j : Fin N, (T.pivoted row column).entry row j.castSucc * v j =
        (T.pivoted row column).rhs row ↔
      ∑ j : Fin N, T.entry row j.castSucc * v j = T.rhs row := by
    rw [sum_entry_pivoted_self nonzero, rhs_pivoted_self nonzero, div_left_inj' nonzero]
  constructor
  · intro solves other
    have pivotRow := own.mp (solves row)
    by_cases same : other = row
    · rw [same, pivotRow]
    · have equation := solves other
      rw [sum_entry_pivoted_of_ne nonzero v same, rhs_pivoted_of_ne nonzero same, pivotRow]
        at equation
      exact sub_left_injective equation
  · intro solves other
    by_cases same : other = row
    · rw [same, own, solves row]
    · rw [sum_entry_pivoted_of_ne nonzero v same, rhs_pivoted_of_ne nonzero same, solves row,
        solves other]

theorem objectiveAt_pivoted {v : Fin N → ℚ} (solves : T.Solves v) :
    (T.pivoted row column).objectiveAt v = T.objectiveAt v := by
  have scaled : ∑ j : Fin N, T.entry row j.castSucc / T.entry row column * v j =
      T.rhs row / T.entry row column := by
    simp only [div_mul_eq_mul_div, ← Finset.sum_div, solves row]
  simp only [objectiveAt, reducedCost_pivoted nonzero, objectiveRhs_pivoted nonzero,
    sum_sub_multiple, scaled]
  ring

theorem Prices.pivoted {costs : Fin N → ℚ} (prices : T.Prices costs) :
    (T.pivoted row column).Prices costs := by
  intro v solves
  have before := (solves_pivoted_iff nonzero v).mp solves
  rw [objectiveAt_pivoted nonzero before, prices v before]

end Pivot

/-! ## The basic solution -/

/-- Column values that are given on the basis and zero elsewhere. -/
def spread (T : Tableau ℚ m N) (w : Fin m → ℚ) (j : Fin N) : ℚ :=
  ∑ row : Fin m, if T.basis[row] = j.castSucc then w row else 0

variable {T : Tableau ℚ m N}

/-- A sum over all columns of values given on the basis is a sum over the rows. -/
theorem UnitBasis.sum_mul_spread (unit : T.UnitBasis) (f : Fin (N + 1) → ℚ) (w : Fin m → ℚ) :
    ∑ j : Fin N, f j.castSucc * T.spread w j = ∑ row : Fin m, f T.basis[row] * w row := by
  simp only [spread, Finset.mul_sum]
  rw [Finset.sum_comm]
  refine Finset.sum_congr rfl fun row _ => ?_
  have basic : ∀ j : Fin N,
      T.basis[row] = j.castSucc ↔ (⟨T.basis[row], unit.isColumn row⟩ : Fin N) = j := by
    intro j
    simp only [Fin.ext_iff, Fin.val_castSucc]
  simp only [basic, mul_ite, mul_zero, Finset.sum_ite_eq, Finset.mem_univ, if_true]
  rfl

theorem UnitBasis.sum_entry_spread (unit : T.UnitBasis) (w : Fin m → ℚ) (row : Fin m) :
    ∑ j : Fin N, T.entry row j.castSucc * T.spread w j = w row := by
  rw [unit.sum_mul_spread fun j => T.entry row j]
  simp only [unit.isUnit, ite_mul, one_mul, zero_mul, Finset.sum_ite_eq, Finset.mem_univ, if_true]

theorem UnitBasis.spread_basis (unit : T.UnitBasis) (w : Fin m → ℚ) (row : Fin m) (j : Fin N)
    (basic : T.basis[row] = j.castSucc) : T.spread w j = w row := by
  have only : ∀ other : Fin m, T.basis[other] = j.castSucc ↔ row = other := by
    intro other
    constructor
    · intro same
      exact unit.distinct row other (basic.trans same.symm)
    · intro same
      rw [← same, basic]
  simp only [spread, only, Finset.sum_ite_eq, Finset.mem_univ, if_true]

theorem spread_of_not_basic (w : Fin m → ℚ) (j : Fin N)
    (outside : ∀ row : Fin m, T.basis[row] ≠ j.castSucc) : T.spread w j = 0 :=
  Finset.sum_eq_zero fun row _ => if_neg (outside row)

theorem spread_nonneg (w : Fin m → ℚ) (nonnegative : ∀ row, 0 ≤ w row) (j : Fin N) :
    0 ≤ T.spread w j := by
  refine Finset.sum_nonneg fun row _ => ?_
  split
  · exact nonnegative row
  · exact le_refl 0

/-- The value of a column in the basic solution is found by looking its row up. -/
theorem UnitBasis.columnValue_eq (unit : T.UnitBasis) : T.columnValue = T.spread T.rhs := by
  funext j
  unfold columnValue basicRow?
  cases found : (List.finRange m).reverse.find? fun row => T.basis[row] = j.castSucc with
  | some row =>
    have basic := List.find?_some found
    exact (unit.spread_basis T.rhs row j (of_decide_eq_true basic)).symm
  | none =>
    have outside := List.find?_eq_none.mp found
    refine (spread_of_not_basic T.rhs j fun row basic => ?_).symm
    exact outside row (by simp) (decide_eq_true basic)

theorem UnitBasis.solves_columnValue (unit : T.UnitBasis) : T.Solves T.columnValue := by
  intro row
  rw [unit.columnValue_eq, unit.sum_entry_spread]

theorem Canonical.objectiveAt_columnValue (canonical : T.Canonical) :
    T.objectiveAt T.columnValue = T.objectiveRhs := by
  have zero : ∑ j : Fin N, T.reducedCost j * T.columnValue j = 0 := by
    rw [canonical.unitBasis.columnValue_eq]
    apply (canonical.unitBasis.sum_mul_spread (T.cell (Fin.last m)) T.rhs).trans
    exact Finset.sum_eq_zero fun row _ => by rw [canonical.pricedOut row, zero_mul]
  rw [objectiveAt, zero, sub_zero]

end Tableau
end LinearProgram
