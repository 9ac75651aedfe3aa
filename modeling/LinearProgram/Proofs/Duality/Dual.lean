import LinearProgram.Proofs.Duality.Multipliers
import LinearProgram.Proofs.Split
import LinearProgram.Duality.Dual

namespace LinearProgram

/-!
# What the dual of a problem says

The feasible points of the dual are the multipliers of the problem, with the
signs of the direction and spread over nonnegative columns, and the objective
of the dual is the bound they give.  Multipliers of the dual are in turn a
feasible point of the problem.
-/

/-- The quantity of a constraint and its multiplier have the same signs in the
direction of the problem. -/
theorem Direction.allows_dualSplit_iff (direction : Direction) (sense : Sense) (value : ℚ) :
    (direction.dualSplit sense).Allows value ↔
      sense.AllowsMultiplier (direction.sign * value) := by
  cases direction <;> cases sense <;>
    simp [Direction.dualSplit, Direction.naturalSense, Sense.flipped, Direction.sign,
      Split.Allows, Sense.AllowsMultiplier]

/-- Changing the sign of a constraint of the dual does not change what it says. -/
theorem Direction.holds_signed_iff (direction : Direction) (cost side : ℚ) :
    (if cost < 0 then direction.naturalSense else direction.naturalSense.flipped).Holds
        (signed (cost < 0) side) (signed (cost < 0) cost) ↔
      direction.sign * cost ≤ direction.sign * side := by
  by_cases negative : cost < 0
  · cases direction <;>
      simp [negative, signed, Direction.naturalSense, Direction.sign, Sense.Holds]
  · cases direction <;>
      simp [negative, signed, Direction.naturalSense, Direction.sign, Sense.Holds, Sense.flipped]

theorem Direction.neg_sign_mul_signed_nonneg (direction : Direction) (cost : ℚ) {multiplier : ℚ}
    (allowed : (if cost < 0 then direction.naturalSense
      else direction.naturalSense.flipped).AllowsMultiplier multiplier) :
    0 ≤ -(direction.sign * signed (cost < 0) multiplier) := by
  by_cases negative : cost < 0
  · cases direction <;>
      simpa [negative, signed, Direction.naturalSense, Direction.sign, Sense.AllowsMultiplier]
        using allowed
  · cases direction <;>
      simpa [negative, signed, Direction.naturalSense, Direction.sign, Sense.flipped,
        Sense.AllowsMultiplier] using allowed

theorem Sense.allowsMultiplier_zero (sense : Sense) : sense.AllowsMultiplier 0 := by
  cases sense
  · exact le_refl 0
  · exact le_refl 0
  · exact trivial

/-- A relation that every allowed multiplier turns into a bound holds. -/
theorem Sense.holds_of_forall_mul_le {sense : Sense} {left right : ℚ}
    (bounded : ∀ value, sense.AllowsMultiplier value → value * left ≤ value * right) :
    sense.Holds left right := by
  cases sense with
  | le =>
    have below : 1 * left ≤ 1 * right := bounded 1 zero_le_one
    rwa [one_mul, one_mul] at below
  | ge =>
    have above : -1 * left ≤ -1 * right := bounded (-1) (neg_nonpos.mpr zero_le_one)
    rwa [neg_one_mul, neg_one_mul, neg_le_neg_iff] at above
  | eq =>
    have below : 1 * left ≤ 1 * right := bounded 1 trivial
    have above : -1 * left ≤ -1 * right := bounded (-1) trivial
    rw [one_mul, one_mul] at below
    rw [neg_one_mul, neg_one_mul, neg_le_neg_iff] at above
    exact le_antisymm below above

namespace Problem

variable {m n : Nat} {p : Problem ℚ m n}

theorem gain_eq_sum (p : Problem ℚ m n) (x : Fin n → ℚ) :
    p.gain x = ∑ k : Fin n, p.direction.sign * p.objective[k] * x k := by
  simp only [gain, Finset.mul_sum, mul_assoc]

/-- A combination of the rows at a point, column by column. -/
theorem sum_mul_leftSide (p : Problem ℚ m n) (multiplier : Fin m → ℚ) (x : Fin n → ℚ) :
    ∑ row, multiplier row * p.leftSide row x =
      ∑ k : Fin n, (∑ row : Fin m, multiplier row * p.coefficients[row][k]) * x k := by
  simp only [leftSide, Finset.mul_sum, Finset.sum_mul, mul_assoc]
  exact Finset.sum_comm

/-- Multipliers cover the objective when they cover every column. -/
theorem covers_iff (p : Problem ℚ m n) (multiplier : Fin m → ℚ) :
    (∀ x : Fin n → ℚ, (∀ k, 0 ≤ x k) → p.gain x ≤ ∑ row, multiplier row * p.leftSide row x) ↔
      ∀ k : Fin n, p.direction.sign * p.objective[k] ≤
        ∑ row : Fin m, multiplier row * p.coefficients[row][k] := by
  constructor
  · intro covers k
    have unit := covers (Pi.single k 1) fun other => by
      by_cases same : other = k
      · rw [same, Pi.single_eq_same]
        exact zero_le_one
      · rw [Pi.single_eq_of_ne same]
    simpa [sum_mul_leftSide, gain_eq_sum, Pi.single_apply] using unit
  · intro columns x nonnegative
    rw [sum_mul_leftSide, gain_eq_sum]
    exact Finset.sum_le_sum fun k _ => mul_le_mul_of_nonneg_right (columns k) (nonnegative k)

/-! ## The parts of the dual -/

/-- The dual quantities that column values of the dual hold. -/
def dualQuantities (p : Problem ℚ m n) (u : Fin p.dualWidth → ℚ) (row : Fin m) : ℚ :=
  Split.quantities p.dualSplits u row

theorem recover?_dualRecoveries (p : Problem ℚ m n) (u : Fin p.dualWidth → ℚ) :
    recover? p.dualRecoveries (List.ofFn u) = some (List.ofFn (p.dualQuantities u)) :=
  Split.recover?_ofFn p.dualSplits u

theorem dualSplits_getElem (p : Problem ℚ m n) (row : Fin m) :
    p.dualSplits[row] = p.direction.dualSplit p.senses[row] := by
  simp [dualSplits]

/-- Column values of the dual that hold given multipliers. -/
def dualPoint (p : Problem ℚ m n) (multiplier : Fin m → ℚ) : Fin p.dualWidth → ℚ :=
  Split.columnValues p.dualSplits fun row => p.direction.sign * multiplier row

theorem dualPoint_nonneg (p : Problem ℚ m n) (multiplier : Fin m → ℚ) (column : Fin p.dualWidth) :
    0 ≤ p.dualPoint multiplier column :=
  Split.columnValues_nonneg p.dualSplits _ column

theorem sign_mul_dualQuantities_dualPoint {multiplier : Fin m → ℚ}
    (allowed : ∀ row : Fin m, p.senses[row].AllowsMultiplier (multiplier row)) (row : Fin m) :
    p.direction.sign * p.dualQuantities (p.dualPoint multiplier) row = multiplier row := by
  have held := Split.quantities_columnValues p.dualSplits
    (y := fun own => p.direction.sign * multiplier own) fun own => by
      rw [dualSplits_getElem, Direction.allows_dualSplit_iff, Direction.sign_mul_sign_mul]
      exact allowed own
  rw [← p.direction.sign_mul_sign_mul (multiplier row)]
  exact congrArg (p.direction.sign * ·) (congrFun held row)

/-- Multipliers of the dual, with the signs of its costs, as a point of the problem. -/
def ofDual (p : Problem ℚ m n) (multiplier : Fin n → ℚ) (j : Fin n) : ℚ :=
  -(p.direction.sign * signed (p.objective[j] < 0) (multiplier j))

theorem dualWidth_pos (p : Problem ℚ m n) (constrained : 0 < m) : 0 < p.dualWidth :=
  Split.length_layout_pos p.dualSplits constrained

theorem exists_dual (p : Problem ℚ m n) (constrained : 0 < m) : ∃ d, p.dual = .ok d :=
  ⟨_, dif_pos (p.dualWidth_pos constrained)⟩

section Dual

variable {d : Problem ℚ n p.dualWidth} (dual : p.dual = .ok d)
include dual

theorem direction_dual : d.direction = p.direction.opposite := by
  -- The dual has a variable, as every problem does, so it comes from the first branch.
  have positive := d.variables_pos
  cases (dif_pos positive).symm.trans dual
  rfl

theorem senses_dual (j : Fin n) : d.senses[j] = p.dualSense p.objective[j] := by
  have positive := d.variables_pos
  cases (dif_pos positive).symm.trans dual
  simp

theorem rhs_dual (j : Fin n) : d.rhs[j] = signed (p.objective[j] < 0) p.objective[j] := by
  have positive := d.variables_pos
  cases (dif_pos positive).symm.trans dual
  simp

theorem objective_dual (column : Fin p.dualWidth) :
    d.objective[column] = signed (Split.column p.dualSplits column).negated
      p.rhs[(Split.column p.dualSplits column).source] := by
  have positive := d.variables_pos
  cases (dif_pos positive).symm.trans dual
  simp only [getElem_fin, Vector.getElem_map]
  rfl

theorem coefficients_dual (j : Fin n) (column : Fin p.dualWidth) :
    d.coefficients[j][column] = signed (p.objective[j] < 0)
      (signed (Split.column p.dualSplits column).negated
        p.coefficients[(Split.column p.dualSplits column).source][j]) := by
  have positive := d.variables_pos
  cases (dif_pos positive).symm.trans dual
  simp only [getElem_fin, Vector.getElem_ofFn, Vector.getElem_map]
  rfl

theorem sum_objective_dual (u : Fin p.dualWidth → ℚ) :
    ∑ column, d.objective[column] * u column =
      ∑ row : Fin m, p.rhs[row] * p.dualQuantities u row := by
  refine Eq.trans (Finset.sum_congr rfl fun column _ => ?_)
    (Split.sum_mul_signed p.dualSplits (fun row : Fin m => p.rhs[row]) u)
  rw [objective_dual dual, signed_mul]

/-- The objective of the dual is the bound that its quantities give. -/
theorem gain_dual (u : Fin p.dualWidth → ℚ) :
    d.gain u = -p.multipliedRhs fun row => p.direction.sign * p.dualQuantities u row := by
  rw [gain, direction_dual dual, Direction.sign_opposite, sum_objective_dual dual, neg_mul,
    multipliedRhs, Direction.sum_sign_mul]

theorem leftSide_dual (j : Fin n) (u : Fin p.dualWidth → ℚ) :
    d.leftSide j u = signed (p.objective[j] < 0)
      (∑ row : Fin m, p.coefficients[row][j] * p.dualQuantities u row) := by
  have held := Split.sum_mul_signed p.dualSplits (fun row : Fin m => p.coefficients[row][j]) u
  refine Eq.trans (Finset.sum_congr rfl fun column _ => ?_)
    ((sum_signed (p.objective[j] < 0) _).trans (congrArg _ held))
  rw [coefficients_dual dual, signed_mul, mul_signed, signed_mul]

/-! ## Feasible points of the dual -/

theorem holds_dual_iff (j : Fin n) (u : Fin p.dualWidth → ℚ) :
    d.senses[j].Holds (d.leftSide j u) d.rhs[j] ↔
      p.direction.sign * p.objective[j] ≤
        ∑ row : Fin m, p.direction.sign * p.dualQuantities u row * p.coefficients[row][j] := by
  rw [senses_dual dual, leftSide_dual dual, rhs_dual dual, Direction.sum_sign_mul]
  exact p.direction.holds_signed_iff p.objective[j] _

/-- A feasible point of the dual consists of multipliers. -/
theorem Admits.multipliers_of_dual {u : Fin p.dualWidth → ℚ} (admits : d.Admits u) :
    p.Multipliers fun row => p.direction.sign * p.dualQuantities u row := by
  refine ⟨fun row => ?_, (p.covers_iff _).mpr fun j => ?_⟩
  · have allowed := Split.allows_quantities p.dualSplits admits.nonnegative row
    rw [dualSplits_getElem, Direction.allows_dualSplit_iff] at allowed
    exact allowed
  · exact (holds_dual_iff dual j u).mp (admits.holds j)

/-- Weak duality. -/
theorem gain_le_neg_gain_dual {x : Fin n → ℚ} (admits : p.Admits x) {u : Fin p.dualWidth → ℚ}
    (dualAdmits : d.Admits u) : p.gain x ≤ -d.gain u := by
  rw [gain_dual dual, neg_neg]
  exact (dualAdmits.multipliers_of_dual dual).gain_le admits

/-- All multipliers come from a feasible point of the dual. -/
theorem Multipliers.exists_admits_dual {multiplier : Fin m → ℚ}
    (multipliers : p.Multipliers multiplier) :
    ∃ u, d.Admits u ∧ d.gain u = -p.multipliedRhs multiplier := by
  have held := sign_mul_dualQuantities_dualPoint multipliers.allowed
  refine ⟨p.dualPoint multiplier, ⟨p.dualPoint_nonneg multiplier, fun j => ?_⟩, ?_⟩
  · rw [holds_dual_iff dual]
    simp only [held]
    exact (p.covers_iff multiplier).mp multipliers.covers j
  · rw [gain_dual dual]
    simp only [held]

theorem sum_mul_leftSide_dual (multiplier : Fin n → ℚ) (u : Fin p.dualWidth → ℚ) :
    ∑ j, multiplier j * d.leftSide j u =
      -∑ row, p.direction.sign * p.dualQuantities u row * p.leftSide row (p.ofDual multiplier) := by
  have each : ∀ j, multiplier j * d.leftSide j u = ∑ row : Fin m,
      -(p.direction.sign * p.dualQuantities u row *
        (p.coefficients[row][j] * p.ofDual multiplier j)) := by
    intro j
    rw [leftSide_dual dual, ← signed_mul, Finset.mul_sum]
    refine Finset.sum_congr rfl fun row _ => ?_
    rw [ofDual]
    linear_combination -(signed (p.objective[j] < 0) (multiplier j) * p.coefficients[row][j] *
      p.dualQuantities u row) * p.direction.sign_mul_self
  rw [Finset.sum_congr rfl fun j _ => each j, Finset.sum_comm, ← Finset.sum_neg_distrib]
  refine Finset.sum_congr rfl fun row _ => ?_
  rw [leftSide, Finset.mul_sum, ← Finset.sum_neg_distrib]

/-- Multipliers of the dual are a feasible point of the problem. -/
theorem Multipliers.admits_ofDual {multiplier : Fin n → ℚ}
    (multipliers : d.Multipliers multiplier) : p.Admits (p.ofDual multiplier) := by
  refine ⟨fun j => ?_, fun row => Sense.holds_of_forall_mul_le fun value permitted => ?_⟩
  · have allowed := multipliers.allowed j
    rw [senses_dual dual] at allowed
    exact p.direction.neg_sign_mul_signed_nonneg p.objective[j] allowed
  · have allowed : ∀ own : Fin m,
        p.senses[own].AllowsMultiplier (Pi.single (M := fun _ => ℚ) row value own) := by
      intro own
      by_cases same : own = row
      · rw [same, Pi.single_eq_same]
        exact permitted
      · rw [Pi.single_eq_of_ne same]
        exact p.senses[own].allowsMultiplier_zero
    have held := sign_mul_dualQuantities_dualPoint allowed
    have bound := multipliers.covers _ (p.dualPoint_nonneg (Pi.single row value))
    rw [sum_mul_leftSide_dual dual, gain_dual dual] at bound
    simp only [held, multipliedRhs, Pi.single_apply, ite_mul, zero_mul, Finset.sum_ite_eq',
      Finset.mem_univ, if_true] at bound
    exact neg_le_neg_iff.mp bound

end Dual

end Problem
end LinearProgram
