import Mathlib.LinearAlgebra.Matrix.Rank
import LinearProgram.Proofs.Tableau.Feasibility

namespace LinearProgram
namespace Tableau

/-!
# The rank of some of the columns

The constraint rows of two tableaus with the same solutions are combinations of
each other, so the columns of any kind have the same rank in both of them.
This rank can be read off from a tableau whose rows are zero in these columns,
except for the rows in which one of them is basic.  It is the number of the
exceptions, for there the basic columns are unit vectors.
-/

variable {m N : Nat} {T U : Tableau ℚ m N} (kind : Fin N → Prop)

/-- The entries of the constraint rows in the columns of a kind. -/
def columnsOf (T : Tableau ℚ m N) : Matrix (Fin m) {j : Fin N // kind j} ℚ :=
  Matrix.of fun row j => T.entry row j.val.castSucc

/-! ## Two tableaus of one system -/

/-- A row that holds at all solutions of a tableau is the combination of the
rows of the tableau that its entries in the basic columns give. -/
theorem UnitBasis.entry_eq_sum (unit : T.UnitBasis) (system : ∀ v, T.Solves v → U.Solves v)
    (row : Fin m) (column : Fin N) :
    U.entry row column.castSucc =
      ∑ own : Fin m, U.entry row T.basis[own] * T.entry own column.castSucc := by
  have along := unit.sum_mul_ray (fun j => U.entry row j) column
  rw [unit.sum_mul_ray_eq_zero fun v solves => system v solves row] at along
  exact (sub_eq_zero.mp along.symm)

section Rank

variable [DecidablePred kind]

theorem UnitBasis.rank_columnsOf_le (unit : T.UnitBasis)
    (system : ∀ v, T.Solves v → U.Solves v) :
    (U.columnsOf kind).rank ≤ (T.columnsOf kind).rank := by
  have combined : U.columnsOf kind =
      (Matrix.of fun row own : Fin m => U.entry row T.basis[own]) * T.columnsOf kind := by
    ext row j
    rw [Matrix.mul_apply]
    exact unit.entry_eq_sum system row j.val
  rw [combined]
  exact Matrix.rank_mul_le_right _ _

/-! ## Rows with a basic column of the kind -/

/-- The rows in which a column of the kind is basic. -/
def rowsOf (T : Tableau ℚ m N) : Finset (Fin m) :=
  Finset.univ.filter fun row => ∃ j : Fin N, kind j ∧ T.basis[row] = j.castSucc

variable {kind}

theorem mem_rowsOf {row : Fin m} :
    row ∈ T.rowsOf kind ↔ ∃ j : Fin N, kind j ∧ T.basis[row] = j.castSucc := by
  simp [rowsOf]

/-- The diagonal matrix that keeps the rows with a basic column of the kind. -/
private def keptRows (T : Tableau ℚ m N) (kind : Fin N → Prop) [DecidablePred kind] :
    Matrix (Fin m) (Fin m) ℚ :=
  Matrix.diagonal fun row => if row ∈ T.rowsOf kind then 1 else 0

private theorem rank_keptRows : (T.keptRows kind).rank = (T.rowsOf kind).card := by
  rw [keptRows, Matrix.rank_diagonal, Fintype.card_subtype]
  congr 1
  ext row
  simp

private theorem keptRows_mul (separate : ∀ row ∉ T.rowsOf kind, ∀ j, kind j →
      T.entry row j.castSucc = 0) : T.keptRows kind * T.columnsOf kind = T.columnsOf kind := by
  ext row j
  rw [keptRows, Matrix.diagonal_mul]
  split
  · exact one_mul _
  · next outside =>
    rw [zero_mul]
    exact (separate row outside j.val j.property).symm

/-- The basic columns of the kind, put in the places of their rows. -/
private theorem UnitBasis.columnsOf_mul (unit : T.UnitBasis) :
    T.columnsOf kind * (Matrix.of fun (j : {j : Fin N // kind j}) (own : Fin m) =>
      if T.basis[own] = j.val.castSucc then (1 : ℚ) else 0) = T.keptRows kind := by
  ext row own
  rw [Matrix.mul_apply, keptRows, Matrix.diagonal_apply]
  simp only [Matrix.of_apply, mul_ite, mul_one, mul_zero, columnsOf]
  by_cases here : own ∈ T.rowsOf kind
  · rcases mem_rowsOf.mp here with ⟨j, isKind, basic⟩
    rw [Finset.sum_eq_single ⟨j, isKind⟩]
    · rw [if_pos basic, ← basic, unit.isUnit own row]
      split
      · next same => rw [if_pos (same ▸ here)]
      · rfl
    · intro other _ different
      refine if_neg fun elsewhere => different (Subtype.ext ?_)
      exact Fin.castSucc_injective N (elsewhere.symm.trans basic)
    · exact fun absent => absurd (Finset.mem_univ _) absent
  · have absent : ∀ j : {j : Fin N // kind j}, T.basis[own] ≠ j.val.castSucc := fun j basic =>
      here (mem_rowsOf.mpr ⟨j.val, j.property, basic⟩)
    rw [Finset.sum_eq_zero fun j _ => if_neg (absent j)]
    split
    · next same => rw [if_neg (same ▸ here)]
    · rfl

/-- The rank counts the rows with a basic column of the kind, where the other
rows are zero in all columns of the kind. -/
theorem UnitBasis.rank_columnsOf (unit : T.UnitBasis) (separate : ∀ row ∉ T.rowsOf kind, ∀ j,
      kind j → T.entry row j.castSucc = 0) :
    (T.columnsOf kind).rank = (T.rowsOf kind).card := by
  rw [← rank_keptRows]
  -- The kept rows are a left factor of the columns and a right multiple of them.
  apply le_antisymm
  · rw [← keptRows_mul separate]
    exact Matrix.rank_mul_le_left _ _
  · rw [← unit.columnsOf_mul]
    exact Matrix.rank_mul_le_left _ _

end Rank

end Tableau
end LinearProgram
