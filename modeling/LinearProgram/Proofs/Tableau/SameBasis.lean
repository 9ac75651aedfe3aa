import LinearProgram.Proofs.Tableau.Feasibility

namespace LinearProgram
namespace Tableau

/-!
# Tableaus with the same basic columns

The rows of a tableau are the equations of a system, solved for a basis.  A
solution of the system is therefore known once its values outside of the basis
are.  Two tableaus of one system with the same basic columns have the same
basic solution and the same rays, and hence the same entries wherever the same
column is basic.  There are finitely many sets of columns, so a number that the
basic columns determine is bounded over all tableaus of a system, whatever
pivots lead to them.
-/

variable {m N : Nat}

/-- The basic columns, whatever rows they are basic in. -/
def basisSet {K : Type} (T : Tableau K m N) : Finset (Fin (N + 1)) :=
  Finset.univ.image fun row : Fin m => T.basis[row]

@[simp]
theorem mem_basisSet {K : Type} {T : Tableau K m N} {j : Fin (N + 1)} :
    j ∈ T.basisSet ↔ ∃ row : Fin m, T.basis[row] = j := by
  simp [basisSet]

/-! ## Values outside of the basis -/

section Outside

variable {T : Tableau ℚ m N} {j : Fin N} (outside : j.castSucc ∉ T.basisSet)
include outside

theorem spread_of_not_mem_basisSet (w : Fin m → ℚ) : T.spread w j = 0 :=
  spread_of_not_basic w j fun row basic => outside (mem_basisSet.mpr ⟨row, basic⟩)

theorem columnValue_of_not_mem_basisSet (unit : T.UnitBasis) : T.columnValue j = 0 := by
  rw [unit.columnValue_eq, spread_of_not_mem_basisSet outside]

theorem ray_of_not_mem_basisSet (column : Fin N) :
    T.ray column j = if j = column then 1 else 0 := by
  rw [ray, spread_of_not_mem_basisSet outside, add_zero]

end Outside

/-- Two solutions with the same values outside of the basis are the same. -/
theorem UnitBasis.eq_of_solves {T : Tableau ℚ m N} (unit : T.UnitBasis) {v w : Fin N → ℚ}
    (first : T.Solves v) (second : T.Solves w)
    (outside : ∀ j : Fin N, j.castSucc ∉ T.basisSet → v j = w j) : v = w := by
  funext j
  by_cases basic : j.castSucc ∈ T.basisSet
  · rcases mem_basisSet.mp basic with ⟨row, here⟩
    have total : ∑ k : Fin N, T.entry row k.castSucc * (v k - w k) = 0 := by
      simp only [mul_sub, Finset.sum_sub_distrib, first row, second row, sub_self]
    have own : ∑ k : Fin N, T.entry row k.castSucc * (v k - w k) = v j - w j := by
      rw [Finset.sum_eq_single j]
      · rw [← here, unit.isUnit row row, if_pos rfl, one_mul]
      · intro k _ different
        by_cases elsewhere : k.castSucc ∈ T.basisSet
        · rcases mem_basisSet.mp elsewhere with ⟨other, there⟩
          have apart : row ≠ other := fun same =>
            different (Fin.castSucc_injective N (there.symm.trans (same ▸ here)))
          rw [← there, unit.isUnit other row, if_neg apart, zero_mul]
        · rw [outside k elsewhere, sub_self, mul_zero]
      · exact fun absent => absurd (Finset.mem_univ j) absent
    exact sub_eq_zero.mp (own.symm.trans total)
  · exact outside j basic

/-! ## Values in the basis -/

namespace UnitBasis

variable {T : Tableau ℚ m N} (unit : T.UnitBasis) {row : Fin m} {j : Fin N}
  (basic : T.basis[row] = j.castSucc)
include unit basic

theorem rhs_eq_columnValue : T.rhs row = T.columnValue j := by
  rw [unit.columnValue_eq, unit.spread_basis T.rhs row j basic]

theorem entry_eq_sub_ray (column : Fin N) :
    T.entry row column.castSucc = (if j = column then 1 else 0) - T.ray column j := by
  rw [ray, unit.spread_basis _ row j basic]
  ring

end UnitBasis

/-! ## Two tableaus -/

section System

variable {T U : Tableau ℚ m N} (unit : T.UnitBasis) (other : U.UnitBasis)
  (system : ∀ v, T.Solves v → U.Solves v) (same : T.basisSet = U.basisSet)
include unit other system same

theorem columnValue_eq_of_basisSet_eq : T.columnValue = U.columnValue := by
  refine other.eq_of_solves (system _ unit.solves_columnValue) other.solves_columnValue ?_
  intro j outside
  rw [columnValue_of_not_mem_basisSet outside other,
    columnValue_of_not_mem_basisSet (same ▸ outside) unit]

theorem ray_eq_of_basisSet_eq (column : Fin N) : T.ray column = U.ray column := by
  have corner := columnValue_eq_of_basisSet_eq unit other system same
  have moved : T.rayPoint column 1 = U.rayPoint column 1 := by
    refine other.eq_of_solves (system _ (unit.solves_rayPoint column 1))
      (other.solves_rayPoint column 1) ?_
    intro j outside
    rw [rayPoint, rayPoint, corner, ray_of_not_mem_basisSet outside,
      ray_of_not_mem_basisSet (same ▸ outside)]
  funext j
  have shifted := congrFun moved j
  rwa [rayPoint, rayPoint, corner, one_mul, one_mul, add_right_inj] at shifted

/-- Rows in which the same column is basic have the same entries. -/
theorem entry_eq_of_basisSet_eq {row place : Fin m} (here : T.basis[row] = U.basis[place])
    (j : Fin (N + 1)) : T.entry row j = U.entry place j := by
  have first : T.basis[row] = (⟨T.basis[row], unit.isColumn row⟩ : Fin N).castSucc := rfl
  have second := here.symm.trans first
  refine Fin.lastCases ?_ (fun column => ?_) j
  · change T.rhs row = U.rhs place
    rw [unit.rhs_eq_columnValue first, other.rhs_eq_columnValue second,
      columnValue_eq_of_basisSet_eq unit other system same]
  · rw [unit.entry_eq_sub_ray first, other.entry_eq_sub_ray second,
      ray_eq_of_basisSet_eq unit other system same]

end System

/-- A number that the basic columns determine is bounded. -/
theorem exists_bound_of_basisSet (Inv : Tableau ℚ m N → Prop) (f : Tableau ℚ m N → ℚ)
    (determined : ∀ T U, Inv T → Inv U → T.basisSet = U.basisSet → f T = f U) :
    ∃ bound, ∀ T, Inv T → f T ≤ bound := by
  have each : ∀ columns : Finset (Fin (N + 1)), ∃ bound, ∀ T : Tableau ℚ m N, Inv T →
      T.basisSet = columns → f T ≤ bound := by
    intro columns
    -- A set that no such tableau has puts no condition on the bound.
    by_cases present : ∃ U : Tableau ℚ m N, Inv U ∧ U.basisSet = columns
    · rcases present with ⟨U, inv, rfl⟩
      exact ⟨f U, fun T held here => (determined T U held inv here).le⟩
    · exact ⟨0, fun T held here => absurd ⟨T, held, here⟩ present⟩
  choose bound below using each
  rcases (Set.finite_range bound).bddAbove with ⟨largest, above⟩
  exact ⟨largest, fun T held => (below _ T held rfl).trans (above ⟨_, rfl⟩)⟩

end Tableau
end LinearProgram
