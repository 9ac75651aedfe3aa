import LinearProgram.Proofs.Tableau.System

namespace LinearProgram
namespace Tableau

/-!
# Pricing an objective out

Loading an objective adds one multiple of each constraint row to the negated
costs, the multiple being the cost of the basic column of the row.  The zeros
that are forced into the basic columns are the values that these additions
give anyway, provided the basic columns are unit vectors.
-/

variable {m N : Nat}

/-! ## Two objectives one after the other -/

section AnyArithmetic

variable {K : Type} [Scalar K]

theorem priceOut_loadObjective (T : Tableau K m N) (loaded : Vector K N) :
    (T.loadObjective loaded).priceOut = T.priceOut := by
  funext costs z row
  simp only [priceOut, basis_loadObjective, entry_loadObjective]

/-- Nothing is left of an objective that is replaced. -/
theorem loadObjective_loadObjective (T : Tableau K m N) (first second : Vector K N) :
    (T.loadObjective first).loadObjective second = T.loadObjective second := by
  have row : (T.loadObjective first).objectiveRow second = T.objectiveRow second := by
    rw [objectiveRow, priceOut_loadObjective, objectiveRow]
  rw [loadObjective, row]
  simp [loadObjective]

end AnyArithmetic

/-! ## The row of reduced costs -/

@[simp]
theorem costOf_castSucc (costs : Vector ℚ N) (j : Fin N) : costOf costs j.castSucc = costs[j] := by
  simp [costOf]

@[simp]
theorem costOf_last (costs : Vector ℚ N) : costOf costs (Fin.last N) = 0 := by
  simp [costOf]

theorem rawObjective_getElem (costs : Vector ℚ N) (j : Fin (N + 1)) :
    (rawObjective costs)[j] = -costOf costs j := by
  refine Fin.lastCases ?_ (fun column => ?_) j
  · simp [rawObjective]
  · simp [rawObjective]

/-- A row is added to the objective row with the cost of its basic column,
if that column still has its cost to be paid. -/
theorem UnitBasis.priceOut_getElem {T : Tableau ℚ m N} (unit : T.UnitBasis) (costs : Vector ℚ N)
    (z : Vector ℚ (N + 1)) (row : Fin m) (unpaid : z[T.basis[row]] = -costOf costs T.basis[row])
    (j : Fin (N + 1)) :
    (T.priceOut costs z row)[j] = z[j] + costOf costs T.basis[row] * T.entry row j := by
  by_cases free : costOf costs T.basis[row] = 0
  · have kept : T.priceOut costs z row = z := if_pos (decide_eq_true free)
    rw [kept, free, zero_mul, add_zero]
  · have added : T.priceOut costs z row = Vector.ofFn fun j =>
        if j = T.basis[row] then 0 else z[j] + costOf costs T.basis[row] * T.entry row j :=
      if_neg (by simpa using free)
    rw [added]
    apply (Vector.getElem_ofFn j.isLt).trans
    split
    · next same =>
      have one := unit.isUnit row row
      rw [if_pos rfl] at one
      have paid : j = T.basis[row] := same
      rw [paid, one, mul_one]
      exact (add_eq_zero_iff_eq_neg.mpr unpaid).symm
    · rfl

/-- The induction is on the rows that still have to be added.  Their basic
columns keep their unpaid costs, since the other rows are zero there. -/
theorem UnitBasis.foldl_priceOut_getElem {T : Tableau ℚ m N} (unit : T.UnitBasis)
    (costs : Vector ℚ N) (rows : List (Fin m)) (nodup : rows.Nodup) (z : Vector ℚ (N + 1))
    (unpaid : ∀ row ∈ rows, z[T.basis[row]] = -costOf costs T.basis[row]) (j : Fin (N + 1)) :
    (rows.foldl (T.priceOut costs) z)[j] =
      z[j] + (rows.map fun row => costOf costs T.basis[row] * T.entry row j).sum := by
  induction rows generalizing z with
  | nil => simp
  | cons row rest ih =>
    have parts := List.nodup_cons.mp nodup
    have added := unit.priceOut_getElem costs z row (unpaid row List.mem_cons_self)
    have later : ∀ other ∈ rest,
        (T.priceOut costs z row)[T.basis[other]] = -costOf costs T.basis[other] := by
      intro other member
      have different : row ≠ other := fun same => parts.1 (same ▸ member)
      rw [added, unit.isUnit other row, if_neg different, mul_zero, add_zero]
      exact unpaid other (List.mem_cons_of_mem row member)
    rw [List.foldl_cons, ih parts.2 _ later, added, List.map_cons, List.sum_cons, add_assoc]

theorem UnitBasis.cell_loadObjective {T : Tableau ℚ m N} (unit : T.UnitBasis)
    (costs : Vector ℚ N) (j : Fin (N + 1)) :
    (T.loadObjective costs).cell (Fin.last m) j =
      ∑ row : Fin m, costOf costs T.basis[row] * T.entry row j - costOf costs j := by
  have stored : (T.loadObjective costs).cell (Fin.last m) j = (T.objectiveRow costs)[j] := by
    simp [loadObjective, cell]
  have unpaid : ∀ row ∈ List.finRange m,
      (rawObjective costs)[T.basis[row]] = -costOf costs T.basis[row] :=
    fun row _ => rawObjective_getElem costs T.basis[row]
  rw [stored, objectiveRow, unit.foldl_priceOut_getElem costs _ (List.nodup_finRange m) _ unpaid,
    rawObjective_getElem, ← List.ofFn_eq_map, List.sum_ofFn]
  ring

theorem UnitBasis.loadObjective {T : Tableau ℚ m N} (unit : T.UnitBasis) (costs : Vector ℚ N) :
    (T.loadObjective costs).UnitBasis where
  isColumn := unit.isColumn
  isUnit row other := by
    rw [entry_loadObjective, basis_loadObjective, unit.isUnit row other]

/-- Loading an objective makes a tableau canonical whose basic columns are unit vectors. -/
theorem UnitBasis.canonical_loadObjective {T : Tableau ℚ m N} (unit : T.UnitBasis)
    (costs : Vector ℚ N) : (T.loadObjective costs).Canonical := by
  refine canonical_iff.mpr ⟨unit.loadObjective costs, fun row => ?_⟩
  have own : ∑ other : Fin m, costOf costs T.basis[other] * T.entry other T.basis[row] =
      costOf costs T.basis[row] := by
    simp only [unit.isUnit, mul_ite, mul_one, mul_zero, Finset.sum_ite_eq', Finset.mem_univ,
      if_true]
  rw [basis_loadObjective, unit.cell_loadObjective, own, sub_self]

@[simp]
theorem rhs_loadObjective (T : Tableau ℚ m N) (costs : Vector ℚ N) (row : Fin m) :
    (T.loadObjective costs).rhs row = T.rhs row :=
  entry_loadObjective T costs row (Fin.last N)

@[simp]
theorem solves_loadObjective_iff (T : Tableau ℚ m N) (costs : Vector ℚ N) (v : Fin N → ℚ) :
    (T.loadObjective costs).Solves v ↔ T.Solves v := by
  simp only [Solves, entry_loadObjective, rhs_loadObjective]

/-- A newly loaded objective is the one that the last row expresses. -/
theorem UnitBasis.prices_loadObjective {T : Tableau ℚ m N} (unit : T.UnitBasis)
    (costs : Vector ℚ N) : (T.loadObjective costs).Prices fun j => costs[j] := by
  intro v solves
  have equations := (T.solves_loadObjective_iff costs v).mp solves
  have corner : (T.loadObjective costs).objectiveRhs =
      ∑ row : Fin m, costOf costs T.basis[row] * T.rhs row := by
    apply (unit.cell_loadObjective costs (Fin.last N)).trans
    rw [costOf_last, sub_zero]
    rfl
  have reduced : ∀ j : Fin N, (T.loadObjective costs).reducedCost j =
      ∑ row : Fin m, costOf costs T.basis[row] * T.entry row j.castSucc - costs[j] := by
    intro j
    apply (unit.cell_loadObjective costs j.castSucc).trans
    rw [costOf_castSucc]
  have exchanged : ∑ j : Fin N,
        (∑ row : Fin m, costOf costs T.basis[row] * T.entry row j.castSucc) * v j =
      ∑ row : Fin m, costOf costs T.basis[row] * T.rhs row := by
    simp only [Finset.sum_mul, mul_assoc]
    rw [Finset.sum_comm]
    simp only [← Finset.mul_sum, equations _]
  simp only [objectiveAt, corner, reduced, sub_mul, Finset.sum_sub_distrib, exchanged]
  ring

end Tableau
end LinearProgram
