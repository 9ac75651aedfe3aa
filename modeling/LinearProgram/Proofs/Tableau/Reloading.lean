import LinearProgram.Proofs.Tableau.Attempts

namespace LinearProgram
namespace Tableau

/-!
# Objectives that are loaded before and after pivots

There are two ways to the row of reduced costs of an objective.  It can be
loaded after the last pivot and priced out against the basis that is there, or
it can be loaded before the first pivot and take part in every elimination.
Where the basic columns are unit vectors the two ways meet in every cell, and
the same pivots are refused on both, since no objective reaches into the
constraint rows.
-/

variable {m N : Nat}

/-! ## One pivot -/

section Pivot

variable {T : Tableau ℚ m N} {row : Fin m}

/-- What a pivot does to the sum that pricing adds up. -/
theorem sum_costOf_pivoted {column : Fin (N + 1)} (nonzero : T.entry row column ≠ 0)
    (costs : Vector ℚ N) (j : Fin (N + 1)) :
    ∑ own : Fin m, costOf costs (T.pivoted row column).basis[own] *
        (T.pivoted row column).entry own j =
      ∑ own : Fin m, costOf costs T.basis[own] * T.entry own j +
        (costOf costs column - ∑ own : Fin m, costOf costs T.basis[own] * T.entry own column) *
          (T.entry row j / T.entry row column) := by
  have each : ∀ own : Fin m,
      costOf costs (T.pivoted row column).basis[own] * (T.pivoted row column).entry own j =
        costOf costs T.basis[own] * T.entry own j -
            costOf costs T.basis[own] * T.entry own column *
              (T.entry row j / T.entry row column) +
          if own = row then costOf costs column * (T.entry row j / T.entry row column) else 0 := by
    intro own
    rw [basis_pivoted]
    by_cases same : own = row
    · -- The column that leaves has its cost taken away in full.
      rw [if_pos same, if_pos same, same, entry_pivoted_self nonzero, mul_assoc,
        mul_div_cancel₀ _ nonzero, sub_self, zero_add]
    · rw [if_neg same, if_neg same, entry_pivoted_of_ne nonzero j same]
      ring
  simp only [each, Finset.sum_add_distrib, Finset.sum_sub_distrib, ← Finset.sum_mul,
    Finset.sum_ite_eq', Finset.mem_univ, if_true]
  ring

variable {column : Fin N} (unit : T.UnitBasis) (costs : Vector ℚ N)
include unit

theorem UnitBasis.pivoted_loadObjective (nonzero : T.entry row column.castSucc ≠ 0) :
    (T.loadObjective costs).pivoted row column.castSucc =
      (T.pivoted row column.castSucc).loadObjective costs := by
  have loaded : (T.loadObjective costs).entry row column.castSucc ≠ 0 := by
    rwa [entry_loadObjective]
  refine eq_of_cell_eq rfl rfl fun i j => ?_
  refine Fin.lastCases ?_ (fun own => ?_) i
  · rw [cell_pivoted_of_ne_row loaded j (Fin.castSucc_ne_last row).symm,
      (unit.pivoted nonzero).cell_loadObjective, sum_costOf_pivoted nonzero,
      unit.cell_loadObjective, unit.cell_loadObjective, entry_loadObjective, entry_loadObjective]
    ring
  · change ((T.loadObjective costs).pivoted row column.castSucc).entry own j =
      ((T.pivoted row column.castSucc).loadObjective costs).entry own j
    rw [entry_loadObjective]
    by_cases same : own = row
    · rw [same, entry_pivoted_self loaded, entry_pivoted_self nonzero, entry_loadObjective,
        entry_loadObjective]
    · rw [entry_pivoted_of_ne loaded j same, entry_pivoted_of_ne nonzero j same]
      simp only [entry_loadObjective]

/-- A pivot is refused with and without the objective, or it is accepted on the
same element and commutes with the loading. -/
theorem UnitBasis.pivot_loadObjective (positive : 0 < T.epsilon) (row : Fin m)
    (column : Fin N) :
    (T.loadObjective costs).pivot row column.castSucc =
      (T.pivot row column.castSucc).map fun answer =>
        (answer.1, answer.2.loadObjective costs) := by
  have kept : (T.loadObjective costs).entry row column.castSucc = T.entry row column.castSucc :=
    T.entry_loadObjective costs row column.castSucc
  rcases lt_or_ge |T.entry row column.castSucc| T.epsilon with small | large
  · have refused : |(T.loadObjective costs).entry row column.castSucc| <
        (T.loadObjective costs).epsilon := by rwa [kept]
    rw [pivot_eq_error small]
    apply (pivot_eq_error refused).trans
    rw [kept]
    rfl
  · have accepted : (T.loadObjective costs).epsilon ≤
        |(T.loadObjective costs).entry row column.castSucc| := by rwa [kept]
    rw [pivot_eq_ok large]
    apply (pivot_eq_ok accepted).trans
    rw [kept, unit.pivoted_loadObjective costs (entry_ne_zero_of_le_abs positive large)]
    rfl

end Pivot

/-! ## Sequences of pivots -/

section Sequences

variable {T : Tableau ℚ m N} (unit : T.UnitBasis) (positive : 0 < T.epsilon) (costs : Vector ℚ N)
include unit positive

theorem UnitBasis.attempts (places : List (Fin m × Fin N)) : (T.attempts places).UnitBasis :=
  attempts_invariant_of_ne_zero positive UnitBasis
    (fun _ _ _ unit nonzero => unit.pivoted nonzero) unit places

theorem UnitBasis.attempt_loadObjective (place : Fin m × Fin N) :
    (T.loadObjective costs).attempt place = (T.attempt place).loadObjective costs := by
  unfold attempt
  rw [unit.pivot_loadObjective costs positive]
  cases T.pivot place.1 place.2.castSucc with
  | error cause => rfl
  | ok answer => rfl

theorem UnitBasis.attempts_loadObjective (places : List (Fin m × Fin N)) :
    (T.loadObjective costs).attempts places = (T.attempts places).loadObjective costs := by
  induction places generalizing T with
  | nil => rfl
  | cons place later ih =>
    have next : (T.attempt place).UnitBasis := unit.attempts positive [place]
    have same : (T.attempt place).epsilon = T.epsilon := epsilon_attempts T [place]
    rw [attempts_cons, attempts_cons, unit.attempt_loadObjective positive, ih next (same ▸ positive)]

theorem UnitBasis.pivots_loadObjective (places : List (Fin m × Fin N)) :
    (T.loadObjective costs).pivots places =
      (T.pivots places).map fun U => U.loadObjective costs := by
  induction places generalizing T with
  | nil => rfl
  | cons place later ih =>
    rw [pivots_cons, pivots_cons, unit.pivot_loadObjective costs positive]
    cases made : T.pivot place.1 place.2.castSucc with
    | error cause => rfl
    | ok answer =>
      have large := le_abs_of_pivot made
      have next := unit.pivoted (entry_ne_zero_of_le_abs positive large)
      cases (pivot_eq_ok large).symm.trans made
      exact ih next positive

end Sequences

end Tableau
end LinearProgram
