import LinearProgram.Proofs.Rational
import LinearProgram.Tableau.Pivot
import LinearProgram.Tableau.Sharp

namespace LinearProgram
namespace Tableau

/-!
# Elimination in exact arithmetic

A pivot forces a one and zeros into its column and skips the rows that have a
zero there already.  In exact arithmetic these are no special cases: the pivot
row is divided by the pivot element, and every other row loses the multiple of
it that clears the pivot column.
-/

variable {m N : Nat} (T : Tableau ℚ m N)

theorem eq_of_cell_eq {T U : Tableau ℚ m N} (basis : T.basis = U.basis)
    (epsilon : T.epsilon = U.epsilon) (cells : ∀ i j, T.cell i j = U.cell i j) : T = U := by
  have same : T.cells = U.cells := by
    ext i rowBound j columnBound
    exact cells ⟨i, rowBound⟩ ⟨j, columnBound⟩
  cases T
  cases U
  simp_all

/-! ## Elements that are refused and accepted -/

section Elements

variable {T} {row : Fin m} {column : Fin (N + 1)}

theorem pivot_eq_error (small : |T.entry row column| < T.epsilon) :
    T.pivot row column = .error (.degeneratePivot row column (T.entry row column)) :=
  if_pos (by rwa [Scalar.abs_rat])

theorem pivot_eq_ok (large : T.epsilon ≤ |T.entry row column|) :
    T.pivot row column = .ok (T.entry row column, T.pivoted row column) :=
  if_neg (by rw [Scalar.abs_rat]; exact not_lt.mpr large)

theorem le_abs_of_pivot {element : ℚ} {next : Tableau ℚ m N}
    (made : T.pivot row column = .ok (element, next)) : T.epsilon ≤ |T.entry row column| := by
  by_contra small
  rw [pivot_eq_error (not_le.mp small)] at made
  exact nomatch made

theorem entry_ne_zero_of_le_abs (positive : 0 < T.epsilon)
    (large : T.epsilon ≤ |T.entry row column|) : T.entry row column ≠ 0 :=
  abs_pos.mp (positive.trans_le large)

end Elements

/-! ## Entries after a pivot -/

section Entries

variable {T} {row : Fin m} {column : Fin (N + 1)} (nonzero : T.entry row column ≠ 0)
include nonzero

theorem entry_pivoted_self (j : Fin (N + 1)) :
    (T.pivoted row column).entry row j = T.entry row j / T.entry row column := by
  rw [entry, cell_pivoted_row]
  split
  · next same => rw [same, div_self nonzero]
  · rfl

theorem cell_pivoted_of_ne_row (j : Fin (N + 1)) {i : Fin (m + 1)} (different : i ≠ row.castSucc) :
    (T.pivoted row column).cell i j =
      T.cell i j - T.cell i column * (T.entry row j / T.entry row column) := by
  rw [cell_pivoted_of_ne T column j different, Scalar.isZero_rat]
  split
  · next zero => rw [of_decide_eq_true zero, zero_mul, sub_zero]
  · split
    · next same => rw [same, div_self nonzero, mul_one, sub_self]
    · rfl

theorem entry_pivoted_of_ne (j : Fin (N + 1)) {other : Fin m} (different : other ≠ row) :
    (T.pivoted row column).entry other j =
      T.entry other j - T.entry other column * (T.entry row j / T.entry row column) :=
  cell_pivoted_of_ne_row nonzero j fun same => different (Fin.castSucc_injective m same)

theorem rhs_pivoted_self : (T.pivoted row column).rhs row = T.rhs row / T.entry row column :=
  entry_pivoted_self nonzero (Fin.last N)

theorem rhs_pivoted_of_ne {other : Fin m} (different : other ≠ row) :
    (T.pivoted row column).rhs other =
      T.rhs other - T.entry other column * (T.rhs row / T.entry row column) :=
  entry_pivoted_of_ne nonzero (Fin.last N) different

theorem reducedCost_pivoted (j : Fin N) :
    (T.pivoted row column).reducedCost j =
      T.reducedCost j -
        T.cell (Fin.last m) column * (T.entry row j.castSucc / T.entry row column) :=
  cell_pivoted_of_ne_row nonzero j.castSucc (Fin.castSucc_ne_last row).symm

theorem objectiveRhs_pivoted :
    (T.pivoted row column).objectiveRhs =
      T.objectiveRhs - T.cell (Fin.last m) column * (T.rhs row / T.entry row column) :=
  cell_pivoted_of_ne_row nonzero (Fin.last N) (Fin.castSucc_ne_last row).symm

end Entries

/-! ## The basis -/

/-- The basic columns are unit vectors on the constraint rows, and the right
hand side is none of them.  The row of reduced costs is left out. -/
structure UnitBasis (T : Tableau ℚ m N) : Prop where
  isColumn : ∀ row : Fin m, T.basis[row].val < N
  isUnit : ∀ row other : Fin m, T.entry other T.basis[row] = if other = row then 1 else 0

/-- The basic columns are unit vectors on the constraint rows, be the right
hand side one of them or not. -/
def UnitColumns (T : Tableau ℚ m N) : Prop :=
  ∀ row other : Fin m, T.entry other T.basis[row] = if other = row then 1 else 0

def PricedOut (T : Tableau ℚ m N) : Prop :=
  ∀ row : Fin m, T.cell (Fin.last m) T.basis[row] = 0

variable {T}

theorem UnitBasis.distinct (unit : T.UnitBasis) (row other : Fin m)
    (same : T.basis[row] = T.basis[other]) : row = other := by
  by_contra different
  have one := unit.isUnit row row
  rw [if_pos rfl, same, unit.isUnit other row, if_neg different] at one
  exact zero_ne_one one

theorem canonical_iff : T.Canonical ↔ T.UnitBasis ∧ T.PricedOut := by
  constructor
  · intro canonical
    refine ⟨⟨canonical.isColumn, fun row other => ?_⟩, fun row => ?_⟩
    · rw [entry, canonical.isUnit row other.castSucc]
      simp only [Fin.castSucc_inj]
    · rw [canonical.isUnit row (Fin.last m), if_neg (Fin.castSucc_ne_last row).symm]
  · rintro ⟨unit, priced⟩
    refine ⟨unit.isColumn, fun row i => ?_, unit.distinct⟩
    refine Fin.lastCases ?_ (fun other => ?_) i
    · rw [priced row, if_neg (Fin.castSucc_ne_last row).symm]
    · simp only [Fin.castSucc_inj]
      exact unit.isUnit row other

theorem Canonical.unitBasis (canonical : T.Canonical) : T.UnitBasis :=
  (canonical_iff.mp canonical).1

theorem Canonical.pricedOut (canonical : T.Canonical) : T.PricedOut :=
  (canonical_iff.mp canonical).2

/-- A pivot on a nonzero element keeps the unit vectors, whatever the rules of
the simplex method would say about it. -/
theorem UnitColumns.pivoted (unit : T.UnitColumns) {row : Fin m} {column : Fin (N + 1)}
    (nonzero : T.entry row column ≠ 0) : (T.pivoted row column).UnitColumns := by
  intro own other
  rw [basis_pivoted]
  by_cases here : own = row
  · rw [if_pos here, here]
    by_cases same : other = row
    · rw [same, entry_pivoted_self nonzero, div_self nonzero, if_pos rfl]
    · rw [entry_pivoted_of_ne nonzero _ same, div_self nonzero, mul_one, sub_self, if_neg same]
  · have outside : T.entry row T.basis[own] = 0 := by rw [unit own row, if_neg (Ne.symm here)]
    rw [if_neg here]
    by_cases same : other = row
    · rw [same, entry_pivoted_self nonzero, outside, zero_div, if_neg (Ne.symm here)]
    · rw [entry_pivoted_of_ne nonzero _ same, outside, zero_div, mul_zero, sub_zero,
        unit own other]

theorem PricedOut.pivoted (priced : T.PricedOut) (unit : T.UnitColumns) {row : Fin m}
    {column : Fin (N + 1)} (nonzero : T.entry row column ≠ 0) :
    (T.pivoted row column).PricedOut := by
  intro own
  rw [basis_pivoted, cell_pivoted_of_ne_row nonzero _ (Fin.castSucc_ne_last row).symm]
  split
  · rw [div_self nonzero, mul_one, sub_self]
  · next elsewhere =>
    have outside : T.entry row T.basis[own] = 0 := by
      rw [unit own row, if_neg (Ne.symm elsewhere)]
    rw [priced own, outside, zero_div, mul_zero, sub_zero]

theorem UnitBasis.pivoted (unit : T.UnitBasis) {row : Fin m} {column : Fin N}
    (nonzero : T.entry row column.castSucc ≠ 0) : (T.pivoted row column.castSucc).UnitBasis where
  isColumn other := by
    rw [basis_pivoted]
    split
    · exact column.isLt
    · exact unit.isColumn other
  isUnit := UnitColumns.pivoted unit.isUnit nonzero

theorem Canonical.pivoted (canonical : T.Canonical) {row : Fin m} {column : Fin N}
    (nonzero : T.entry row column.castSucc ≠ 0) : (T.pivoted row column.castSucc).Canonical :=
  canonical_iff.mpr ⟨canonical.unitBasis.pivoted nonzero,
    canonical.pricedOut.pivoted canonical.unitBasis.isUnit nonzero⟩

end Tableau
end LinearProgram
