import LinearProgram.Proofs.Representation

namespace LinearProgram

/-!
# Multipliers of the constraints

Multipliers with the signs that the senses ask for turn the constraints into
one bound on the objective.  A tableau without a negative reduced cost holds
such multipliers, and their bound is the objective of its basic solution.  The
signs are those of maximization, also where a problem minimizes.
-/

/-- The signs that a multiplier of a constraint can have. -/
def Sense.AllowsMultiplier : Sense → ℚ → Prop
  | .le, multiplier => 0 ≤ multiplier
  | .ge, multiplier => multiplier ≤ 0
  | .eq, _ => True

theorem Sense.allowsMultiplier_flipped_neg (sense : Sense) (multiplier : ℚ) :
    sense.flipped.AllowsMultiplier (-multiplier) ↔ sense.AllowsMultiplier multiplier := by
  cases sense
  · exact neg_nonpos
  · exact neg_nonneg
  · exact Iff.rfl

/-- A multiplier of an allowed sign turns a relation into an upper bound. -/
theorem Sense.Holds.mul_le_mul {sense : Sense} {left right : ℚ} (holds : sense.Holds left right)
    {multiplier : ℚ} (allowed : sense.AllowsMultiplier multiplier) :
    multiplier * left ≤ multiplier * right := by
  cases sense with
  | le => exact mul_le_mul_of_nonneg_left holds allowed
  | ge => exact mul_le_mul_of_nonpos_left holds allowed
  | eq => exact (congrArg (multiplier * ·) holds).le

namespace Problem

variable {m n : Nat}

/-- Multipliers under which the constraints bound the objective. -/
structure Multipliers (p : Problem ℚ m n) (multiplier : Fin m → ℚ) : Prop where
  allowed : ∀ row : Fin m, p.senses[row].AllowsMultiplier (multiplier row)
  covers : ∀ x : Fin n → ℚ, (∀ k, 0 ≤ x k) →
    p.gain x ≤ ∑ row, multiplier row * p.leftSide row x

/-- The bound that multipliers put on the objective. -/
def multipliedRhs (p : Problem ℚ m n) (multiplier : Fin m → ℚ) : ℚ :=
  ∑ row : Fin m, multiplier row * p.rhs[row]

theorem Multipliers.gain_le {p : Problem ℚ m n} {multiplier : Fin m → ℚ}
    (multipliers : p.Multipliers multiplier) {x : Fin n → ℚ} (admits : p.Admits x) :
    p.gain x ≤ p.multipliedRhs multiplier :=
  (multipliers.covers x admits.nonnegative).trans
    (Finset.sum_le_sum fun row _ => (admits.holds row).mul_le_mul (multipliers.allowed row))

/-- Multipliers of the normalized problem are multipliers of the problem, up to
the signs of the rows that were flipped. -/
theorem Multipliers.exists_of_normalized {p : Problem ℚ m n} {multiplier : Fin m → ℚ}
    (multipliers : p.normalized.Multipliers multiplier) :
    ∃ original, p.Multipliers original ∧
      p.multipliedRhs original = p.normalized.multipliedRhs multiplier := by
  have each : ∀ row : Fin m, ∃ value : ℚ, p.senses[row].AllowsMultiplier value ∧
      (∀ y, value * p.leftSide row y = multiplier row * p.normalized.leftSide row y) ∧
      value * p.rhs[row] = multiplier row * p.normalized.rhs[row] := by
    intro row
    have allowed := multipliers.allowed row
    rcases p.normalized_row row with ⟨side, rhs, sense⟩ | ⟨side, rhs, sense⟩
    · rw [sense] at allowed
      exact ⟨multiplier row, allowed, fun y => by rw [side], by rw [rhs]⟩
    · rw [sense, ← neg_neg (multiplier row), Sense.allowsMultiplier_flipped_neg] at allowed
      exact ⟨-multiplier row, allowed, fun y => by rw [side, neg_mul_comm],
        by rw [rhs, neg_mul_comm]⟩
  choose original allowed sides bounds using each
  refine ⟨original, ⟨allowed, fun x nonnegative => ?_⟩, Finset.sum_congr rfl fun row _ => bounds row⟩
  rw [Finset.sum_congr rfl fun row _ => sides row x]
  exact multipliers.covers x nonnegative

/-! ## The multipliers in a tableau -/

/-- The column values with the given decision part and surpluses that satisfy
every equation. -/
def completion (p : Problem ℚ m n) (x : Fin n → ℚ) (surplus : Fin m → ℚ) : ColumnTag m n → ℚ
  | .decision k => x k
  | .slack row => p.rhs[row] - p.leftSide row x
  | .surplus row => surplus row
  | .artificial row =>
    p.rhs[row] - p.leftSide row x + if p.senses[row] = .ge then surplus row else 0

theorem equations_completion (p : Problem ℚ m n) (x : Fin n → ℚ) (surplus : Fin m → ℚ) :
    p.Equations fun j => p.completion x surplus p.tags[j] := by
  refine (p.equations_tagValues_iff _).mpr fun row => ?_
  change p.leftSide row x + _ = _
  unfold auxiliary
  cases sense : p.senses[row] <;> simp [completion, sense]

theorem sum_rowTags_completion (p : Problem ℚ m n) (weight : ColumnTag m n → ℚ) (x : Fin n → ℚ)
    (surplus : Fin m → ℚ) (row : Fin m) :
    ((p.rowTags row).map fun tag => weight tag * p.completion x surplus tag).sum =
      weight (p.homeTag row) * (p.rhs[row] - p.leftSide row x) +
        if p.senses[row] = .ge then
          (weight (.surplus row) + weight (.artificial row)) * surplus row
        else 0 := by
  unfold rowTags homeTag
  cases sense : p.senses[row] <;>
    simp only [completion, sense, List.map_cons, List.map_nil, List.sum_cons, List.sum_nil,
      reduceCtorEq, if_true, if_false] <;> ring

@[simp]
theorem gain_zero (p : Problem ℚ m n) : p.gain 0 = 0 := by
  simp [gain]

@[simp]
theorem leftSide_zero (p : Problem ℚ m n) (row : Fin m) : p.leftSide row 0 = 0 := by
  simp [leftSide]

namespace Represents

variable {p : Problem ℚ m n} {T : Tableau ℚ m p.width} (represents : p.Represents .plain T)
  {weight : ColumnTag m n → ℚ} (weights : ∀ j : Fin p.width, T.reducedCost j = weight p.tags[j])
include represents weights

/-- The last row as an identity between the objective and free surpluses. -/
theorem gain_eq_completion (x : Fin n → ℚ) (surplus : Fin m → ℚ) :
    p.gain x = T.objectiveRhs - (∑ k, weight (.decision k) * x k + ∑ row : Fin m,
      (weight (p.homeTag row) * (p.rhs[row] - p.leftSide row x) +
        if p.senses[row] = .ge then
          (weight (.surplus row) + weight (.artificial row)) * surplus row
        else 0)) := by
  have value := represents.gain_eq_objectiveAt (p.equations_completion x surplus)
  have decisions : p.decisionPart (fun j => p.completion x surplus p.tags[j]) = x :=
    funext (p.decisionPart_tagValues (p.completion x surplus))
  rw [decisions, Tableau.objectiveAt] at value
  simp only [weights] at value
  rw [p.sum_tags fun tag => weight tag * p.completion x surplus tag] at value
  simp only [sum_rowTags_completion] at value
  exact value

theorem multipliedRhs_home : p.multipliedRhs (fun row => weight (p.homeTag row)) =
    T.objectiveRhs := by
  have corner := represents.gain_eq_completion weights 0 0
  simp only [gain_zero, leftSide_zero, Pi.zero_apply, mul_zero, Finset.sum_const_zero, zero_add,
    sub_zero, ite_self, add_zero] at corner
  exact (sub_eq_zero.mp corner.symm).symm

/-- The multiplier of a lower bound is the negated reduced cost of its surplus column. -/
theorem weight_surplus {row : Fin m} (lower : p.senses[row] = .ge) :
    weight (.surplus row) + weight (.artificial row) = 0 := by
  have moved := represents.gain_eq_completion weights 0 (Pi.single row 1)
  have corner := represents.gain_eq_completion weights 0 0
  rw [corner] at moved
  simp only [leftSide_zero, Pi.zero_apply, mul_zero, Finset.sum_const_zero, zero_add, sub_zero,
    ite_self, add_zero, Finset.sum_add_distrib, sub_right_inj, left_eq_add] at moved
  rw [Fintype.sum_eq_single row fun other different => by
    rw [Pi.single_eq_of_ne different, mul_zero, ite_self]] at moved
  rwa [if_pos lower, Pi.single_eq_same, mul_one] at moved

theorem gain_eq_home (x : Fin n → ℚ) :
    p.gain x = ∑ row : Fin m, weight (p.homeTag row) * p.leftSide row x -
      ∑ k, weight (.decision k) * x k := by
  have value := represents.gain_eq_completion weights x 0
  rw [← represents.multipliedRhs_home weights] at value
  simp only [Pi.zero_apply, mul_zero, ite_self, add_zero, mul_sub, Finset.sum_sub_distrib] at value
  rw [value, multipliedRhs]
  ring

end Represents

/-- Without a negative reduced cost outside of the artificial columns, the
reduced costs of the first basis are multipliers, and their bound is the
objective of the tableau. -/
theorem Represents.exists_multipliers {p : Problem ℚ m n} {T : Tableau ℚ m p.width}
    (represents : p.Represents .plain T)
    (reduced : ∀ j, p.tags[j].isArtificial = false → 0 ≤ T.reducedCost j) :
    ∃ multiplier, p.Multipliers multiplier ∧ p.multipliedRhs multiplier = T.objectiveRhs := by
  rcases p.exists_tagValues T.reducedCost with ⟨weight, expressed⟩
  have weights : ∀ j : Fin p.width, T.reducedCost j = weight p.tags[j] := congrFun expressed
  have present : ∀ (row : Fin m), ∀ tag ∈ p.rowTags row, tag.isArtificial = false →
      0 ≤ weight tag := by
    intro row tag member other
    rcases p.exists_column_of_mem_rowTags member with ⟨j, rfl⟩
    rw [← weights]
    exact reduced j other
  refine ⟨fun row => weight (p.homeTag row), ⟨fun row => ?_, fun x nonnegative => ?_⟩,
    represents.multipliedRhs_home weights⟩
  · have own := present row
    unfold rowTags at own
    unfold homeTag
    cases sense : p.senses[row] with
    | le =>
      simp only [sense] at own ⊢
      exact own (.slack row) List.mem_cons_self rfl
    | ge =>
      simp only [sense] at own ⊢
      have surplus := own (.surplus row) List.mem_cons_self rfl
      have opposite := represents.weight_surplus weights sense
      change weight (.artificial row) ≤ 0
      linarith
    | eq => exact trivial
  · rw [represents.gain_eq_home weights, sub_le_self_iff]
    refine Finset.sum_nonneg fun k _ => mul_nonneg ?_ (nonnegative k)
    have cost := reduced (p.decisionColumn k) (by rw [tags_decisionColumn]; rfl)
    rwa [weights, tags_decisionColumn] at cost

end Problem
end LinearProgram
