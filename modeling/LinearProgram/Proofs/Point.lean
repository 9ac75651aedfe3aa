import LinearProgram.Proofs.Rational
import LinearProgram.Problem.Feasible

namespace LinearProgram

/-!
# Points as functions

A feasible point is a list with one entry for each variable.  The algebra of
points is easier for functions on the variables.  This module restates the
conditions of a problem for them and shows that giving every row a nonnegative
right hand side changes neither the feasible points nor their objectives.
-/

theorem Sense.excess_flipped_neg (sense : Sense) (left right : ℚ) :
    sense.flipped.excess (-left) (-right) = sense.excess left right := by
  cases sense
  · exact neg_sub_neg right left
  · exact neg_sub_neg left right
  · change Scalar.abs (-left - -right) = Scalar.abs (left - right)
    rw [Scalar.abs_rat, Scalar.abs_rat, neg_sub_neg, abs_sub_comm]

theorem Sense.holds_iff_excess (sense : Sense) (left right : ℚ) :
    sense.Holds left right ↔ sense.excess left right ≤ 0 := by
  cases sense
  · exact sub_nonpos.symm
  · exact sub_nonpos.symm
  · change left = right ↔ Scalar.abs (left - right) ≤ 0
    rw [Scalar.abs_rat, abs_nonpos_iff, sub_eq_zero]

/-- The sign that turns a direction into maximization. -/
def Direction.sign : Direction → ℚ
  | .maximize => 1
  | .minimize => -1

namespace Direction

theorem orient_eq_sign_mul (direction : Direction) (value : ℚ) :
    direction.orient value = direction.sign * value := by
  cases direction
  · exact (one_mul value).symm
  · exact (neg_one_mul value).symm

@[simp]
theorem sign_mul_self (direction : Direction) : direction.sign * direction.sign = 1 := by
  cases direction
  · exact one_mul 1
  · exact neg_one_mul (-1) |>.trans (neg_neg 1)

@[simp]
theorem sign_mul_sign_mul (direction : Direction) (value : ℚ) :
    direction.sign * (direction.sign * value) = value := by
  rw [← mul_assoc, sign_mul_self, one_mul]

theorem sign_mul_inj (direction : Direction) {left right : ℚ} :
    direction.sign * left = direction.sign * right ↔ left = right := by
  refine ⟨fun equal => ?_, congrArg (direction.sign * ·)⟩
  rw [← direction.sign_mul_sign_mul left, equal, sign_mul_sign_mul]

theorem sum_sign_mul {m : Nat} (direction : Direction) (y weights : Fin m → ℚ) :
    ∑ row, direction.sign * y row * weights row =
      direction.sign * ∑ row, weights row * y row := by
  rw [Finset.mul_sum]
  exact Finset.sum_congr rfl fun row _ => by rw [mul_assoc, mul_comm (y row)]

@[simp]
theorem sign_opposite (direction : Direction) : direction.opposite.sign = -direction.sign := by
  cases direction
  · rfl
  · exact (neg_neg 1).symm

end Direction

namespace Problem

variable {m n : Nat} (p : Problem ℚ m n)

/-- The left side of a constraint at a point. -/
def leftSide (row : Fin m) (y : Fin n → ℚ) : ℚ :=
  ∑ k : Fin n, p.coefficients[row][k] * y k

/-- The objective at a point, in the direction in which larger is better. -/
def gain (y : Fin n → ℚ) : ℚ :=
  p.direction.sign * ∑ k : Fin n, p.objective[k] * y k

/-- A point that satisfies every condition of a problem, as a function. -/
structure Admits (y : Fin n → ℚ) : Prop where
  nonnegative : ∀ k, 0 ≤ y k
  holds : ∀ row : Fin m, p.senses[row].Holds (p.leftSide row y) p.rhs[row]

theorem activity_ofFn (row : Fin m) (y : Fin n → ℚ) :
    p.activity row (List.ofFn y) = p.leftSide row y :=
  Scalar.dot_ofFn p.coefficients[row] y

theorem objectiveValue_ofFn (y : Fin n → ℚ) :
    p.objectiveValue (List.ofFn y) = ∑ k : Fin n, p.objective[k] * y k :=
  Scalar.dot_ofFn p.objective y

theorem objectiveValue_ofFn_eq_sign_mul (y : Fin n → ℚ) :
    p.objectiveValue (List.ofFn y) = p.direction.sign * p.gain y := by
  rw [objectiveValue_ofFn, gain, Direction.sign_mul_sign_mul]

theorem merit_ofFn (y : Fin n → ℚ) : p.merit (List.ofFn y) = p.gain y := by
  rw [merit, objectiveValue_ofFn, Direction.orient_eq_sign_mul, gain]

theorem feasible_ofFn_iff (y : Fin n → ℚ) : p.Feasible (List.ofFn y) ↔ p.Admits y := by
  constructor
  · intro feasible
    refine ⟨fun k => feasible.nonnegative _ (List.mem_ofFn.mpr ⟨k, rfl⟩), fun row => ?_⟩
    rw [← activity_ofFn]
    exact feasible.holds row
  · intro admits
    refine ⟨List.length_ofFn, ?_, fun row => ?_⟩
    · intro value member
      rcases List.mem_ofFn.mp member with ⟨k, rfl⟩
      exact admits.nonnegative k
    · rw [activity_ofFn]
      exact admits.holds row

theorem Feasible.exists_ofFn {p : Problem ℚ m n} {x : List ℚ} (feasible : p.Feasible x) :
    ∃ y : Fin n → ℚ, x = List.ofFn y ∧ p.Admits y := by
  rcases exists_eq_ofFn feasible.length_eq with ⟨y, rfl⟩
  exact ⟨y, rfl, (p.feasible_ofFn_iff y).mp feasible⟩

/-! ## Rows with a nonnegative right hand side -/

theorem normalized_rhs_nonneg (row : Fin m) : 0 ≤ p.normalized.rhs[row] := by
  simp only [normalized, getElem_fin, Vector.getElem_ofFn]
  split
  · assumption
  · next negative => exact neg_nonneg.mpr (not_le.mp negative).le

/-- The data of a row are kept, or all of them change their sign and the sense is flipped. -/
theorem normalized_data (row : Fin m) :
    p.normalized.coefficients[row] = p.coefficients[row] ∧
        p.normalized.rhs[row] = p.rhs[row] ∧ p.normalized.senses[row] = p.senses[row] ∨
      p.normalized.coefficients[row] = p.coefficients[row].map (- ·) ∧
        p.normalized.rhs[row] = -p.rhs[row] ∧
        p.normalized.senses[row] = p.senses[row].flipped := by
  by_cases nonnegative : 0 ≤ p.rhs[row]
  · left
    simp_all [normalized]
  · right
    have outside : ¬ 0 ≤ p.rhs[row.val] := nonnegative
    simp [normalized, if_neg outside]

/-- A row keeps both of its sides, or both change their sign and the sense is flipped. -/
theorem normalized_row (row : Fin m) :
    (∀ y, p.normalized.leftSide row y = p.leftSide row y) ∧
        p.normalized.rhs[row] = p.rhs[row] ∧ p.normalized.senses[row] = p.senses[row] ∨
      (∀ y, p.normalized.leftSide row y = -p.leftSide row y) ∧
        p.normalized.rhs[row] = -p.rhs[row] ∧
        p.normalized.senses[row] = p.senses[row].flipped := by
  rcases p.normalized_data row with ⟨coefficients, rest⟩ | ⟨coefficients, rest⟩
  · left
    refine ⟨fun y => ?_, rest⟩
    rw [leftSide, leftSide, coefficients]
  · right
    refine ⟨fun y => ?_, rest⟩
    rw [leftSide, leftSide, coefficients]
    simp

/-- No list of numbers misses a row more or less than before. -/
theorem rowViolation_normalized (row : Fin m) (x : List ℚ) :
    p.normalized.rowViolation row x = p.rowViolation row x := by
  unfold rowViolation activity
  rcases p.normalized_data row with ⟨coefficients, rhs, sense⟩ | ⟨coefficients, rhs, sense⟩
  · rw [coefficients, rhs, sense]
  · rw [coefficients, rhs, sense, Vector.toList_map, Scalar.dot_map_neg, Sense.excess_flipped_neg]

theorem excess_normalized (row : Fin m) (y : Fin n → ℚ) :
    p.normalized.senses[row].excess (p.normalized.leftSide row y) p.normalized.rhs[row] =
      p.senses[row].excess (p.leftSide row y) p.rhs[row] := by
  rw [← activity_ofFn, ← activity_ofFn]
  exact p.rowViolation_normalized row (List.ofFn y)

theorem admits_normalized_iff (y : Fin n → ℚ) : p.normalized.Admits y ↔ p.Admits y := by
  have rows : ∀ row : Fin m,
      p.normalized.senses[row].Holds (p.normalized.leftSide row y) p.normalized.rhs[row] ↔
        p.senses[row].Holds (p.leftSide row y) p.rhs[row] := by
    intro row
    rw [Sense.holds_iff_excess, excess_normalized, ← Sense.holds_iff_excess]
  exact ⟨fun admits => ⟨admits.nonnegative, fun row => (rows row).mp (admits.holds row)⟩,
    fun admits => ⟨admits.nonnegative, fun row => (rows row).mpr (admits.holds row)⟩⟩

@[simp]
theorem gain_normalized (y : Fin n → ℚ) : p.normalized.gain y = p.gain y := rfl

theorem feasible_normalized_iff (x : List ℚ) : p.normalized.Feasible x ↔ p.Feasible x := by
  constructor
  · intro feasible
    rcases feasible.exists_ofFn with ⟨y, rfl, admits⟩
    exact (p.feasible_ofFn_iff y).mpr ((p.admits_normalized_iff y).mp admits)
  · intro feasible
    rcases feasible.exists_ofFn with ⟨y, rfl, admits⟩
    exact (p.normalized.feasible_ofFn_iff y).mpr ((p.admits_normalized_iff y).mpr admits)

theorem unbounded_normalized_iff : p.normalized.Unbounded ↔ p.Unbounded := by
  unfold Unbounded
  simp only [feasible_normalized_iff]
  rfl

/-! ## Optimal points -/

/-- Two optimal points have the same objective. -/
theorem Optimal.objectiveValue_eq {p : Problem ℚ m n} {x y : List ℚ} (first : p.Optimal x)
    (second : p.Optimal y) : p.objectiveValue x = p.objectiveValue y := by
  have same := le_antisymm (second.best x first.feasible) (first.best y second.feasible)
  unfold merit at same
  cases direction : p.direction with
  | maximize =>
    rw [direction] at same
    exact same
  | minimize =>
    rw [direction] at same
    exact neg_inj.mp same

theorem Optimal.not_unbounded {p : Problem ℚ m n} {x : List ℚ} (optimal : p.Optimal x) :
    ¬ p.Unbounded := by
  intro unbounded
  rcases unbounded.2 (p.merit x) with ⟨y, feasible, better⟩
  exact absurd better (not_lt.mpr (optimal.best y feasible))

/-! ## Violations -/

theorem foldl_larger_le_iff (amounts : List ℚ) (start bound : ℚ) :
    amounts.foldl Scalar.larger start ≤ bound ↔
      start ≤ bound ∧ ∀ amount ∈ amounts, amount ≤ bound := by
  induction amounts generalizing start with
  | nil => simp
  | cons first rest ih =>
    rw [List.foldl_cons, ih, Scalar.larger_rat, max_le_iff, List.forall_mem_cons, and_assoc]

/-- What bounds the largest violation bounds every violation. -/
theorem worstViolation_ofFn_le_iff (y : Fin n → ℚ) (bound : ℚ) :
    p.worstViolation (List.ofFn y) ≤ bound ↔
      0 ≤ bound ∧ (∀ k, -bound ≤ y k) ∧
        ∀ row : Fin m, p.senses[row].excess (p.leftSide row y) p.rhs[row] ≤ bound := by
  rw [worstViolation, foldl_larger_le_iff, violations, List.forall_mem_append]
  simp only [List.forall_mem_map, List.mem_ofFn, List.mem_finRange, forall_const,
    forall_exists_index, forall_apply_eq_imp_iff, rowViolation, activity_ofFn, neg_le]

/-- A point is within a tolerance when it misses no condition by more. -/
theorem isSatisfiedBy_ofFn_iff (y : Fin n → ℚ) {tolerance : ℚ} (allowed : 0 ≤ tolerance) :
    p.isSatisfiedBy (List.ofFn y) tolerance = true ↔
      (∀ k, -tolerance ≤ y k) ∧
        ∀ row : Fin m, p.senses[row].excess (p.leftSide row y) p.rhs[row] ≤ tolerance := by
  simp only [isSatisfiedBy, List.length_ofFn, decide_true, Bool.true_and, decide_eq_true_eq]
  rw [worstViolation_ofFn_le_iff]
  exact and_iff_right allowed

theorem violations_normalized (x : List ℚ) : p.normalized.violations x = p.violations x := by
  simp only [violations, rowViolation_normalized]

theorem worstViolation_normalized (x : List ℚ) :
    p.normalized.worstViolation x = p.worstViolation x := by
  rw [worstViolation, worstViolation, violations_normalized]

theorem isSatisfiedBy_normalized (x : List ℚ) (tolerance : ℚ) :
    p.normalized.isSatisfiedBy x tolerance = p.isSatisfiedBy x tolerance := by
  rw [isSatisfiedBy, isSatisfiedBy, worstViolation_normalized]

end Problem
end LinearProgram
