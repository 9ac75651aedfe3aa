import LinearProgram.Proofs.Point
import LinearProgram.Proofs.SingleRun
import LinearProgram.Proofs.TwoPhase.Stages
import LinearProgram.Proofs.UpperBounds

namespace LinearProgram

/-!
# Normalization and the verdicts on points

Before a problem is solved, its rows with negative right hand sides change
their signs.  A row is missed by the same amount before and after that, by
every list of numbers, so every verdict on a point is kept, under any
tolerance.  A second normalization finds nothing to change, and the methods
that normalize answer the same whether it has been done for them or not.
-/

/-- Whether two sides are related as a sense says, give or take a tolerance. -/
def Sense.HoldsWithin (tolerance : ℚ) (sense : Sense) (left right : ℚ) : Prop :=
  match sense with
  | .le => left ≤ right + tolerance
  | .ge => right - tolerance ≤ left
  | .eq => |left - right| ≤ tolerance

theorem Sense.excess_le_iff (sense : Sense) {tolerance left right : ℚ} :
    sense.excess left right ≤ tolerance ↔ sense.HoldsWithin tolerance left right := by
  cases sense with
  | le => exact sub_le_iff_le_add'
  | ge => exact sub_le_comm
  | eq =>
    change Scalar.abs (left - right) ≤ tolerance ↔ |left - right| ≤ tolerance
    rw [Scalar.abs_rat]

namespace Problem

variable {m n : Nat} (p : Problem ℚ m n)

/-- A point that satisfies every condition of a problem, give or take a tolerance. -/
structure FeasibleWithin (tolerance : ℚ) (x : List ℚ) : Prop where
  length_eq : x.length = n
  nonnegative : ∀ value ∈ x, -tolerance ≤ value
  holds : ∀ row : Fin m, p.senses[row].HoldsWithin tolerance (p.activity row x) p.rhs[row]

/-! ## Normalization twice -/

@[simp]
theorem normalized_normalized : p.normalized.normalized = p.normalized :=
  normalized_of_nonneg p.normalized_rhs_nonneg

/-! ## Violations -/

theorem maxViolation?_normalized (x : List ℚ) :
    p.normalized.maxViolation? x = p.maxViolation? x := by
  rw [maxViolation?, maxViolation?, worstViolation_normalized]

theorem maxViolation?_of_length {x : List ℚ} (length : x.length = n) :
    p.maxViolation? x = some (p.worstViolation x) :=
  if_pos (Or.inr length.ge)

/-- The running maximum is within a tolerance just when every condition is. -/
theorem isSatisfiedBy_iff {tolerance : ℚ} (allowed : 0 ≤ tolerance) (x : List ℚ) :
    p.isSatisfiedBy x tolerance = true ↔ p.FeasibleWithin tolerance x := by
  rw [isSatisfiedBy, Bool.and_eq_true, decide_eq_true_eq, decide_eq_true_eq, worstViolation,
    foldl_larger_le_iff, violations, List.forall_mem_append, List.forall_mem_map,
    List.forall_mem_map]
  constructor
  · -- The maximum starts from zero, hence the condition on the tolerance.
    rintro ⟨length, _, signs, rows⟩
    refine ⟨length, fun value member => neg_le.mp (signs value member), fun row => ?_⟩
    exact p.senses[row].excess_le_iff.mp (rows row (List.mem_finRange row))
  · intro within
    refine ⟨within.length_eq, allowed, fun value member => ?_, fun row _ => ?_⟩
    · exact neg_le.mp (within.nonnegative value member)
    · exact p.senses[row].excess_le_iff.mpr (within.holds row)

end Problem

/-! ## The methods that normalize -/

variable {m n : Nat}

theorem BigM.solve_normalized (p : Problem ℚ m n) (options : Options ℚ) :
    solve p.normalized options = solve p options := by
  rw [solve_eq, solve_eq, p.normalized_normalized]

theorem TwoPhase.solve_normalized (p : Problem ℚ m n) (options : Options ℚ) :
    solve p.normalized options = solve p options := by
  rw [solve_eq, solve_eq, p.normalized_normalized]

/-- **Normalization keeps every verdict.**  A normalized problem has nonnegative
right hand sides and the objective, the direction and the names it had before,
and it stays as it is when it is normalized again.  Every list is judged as
before, and a point is accepted under a tolerance when no variable and no row
misses its condition by more.  The methods that normalize answer alike. -/
theorem Problem.normalized_keeps_verdicts (p : Problem ℚ m n) :
    (∀ row : Fin m, 0 ≤ p.normalized.rhs[row]) ∧
      p.normalized.objective = p.objective ∧ p.normalized.direction = p.direction ∧
      p.normalized.names = p.names ∧ p.normalized.normalized = p.normalized ∧
      (∀ x : List ℚ, p.normalized.maxViolation? x = p.maxViolation? x ∧
        (x.length = n → p.maxViolation? x = some (p.worstViolation x))) ∧
      (∀ (tolerance : ℚ) (x : List ℚ), 0 ≤ tolerance →
        (p.isSatisfiedBy x tolerance = true ↔ p.FeasibleWithin tolerance x) ∧
        (p.normalized.isSatisfiedBy x tolerance = true ↔ p.FeasibleWithin tolerance x)) ∧
      ∀ options : Options ℚ, BigM.solve p.normalized options = BigM.solve p options ∧
        TwoPhase.solve p.normalized options = TwoPhase.solve p options := by
  refine ⟨p.normalized_rhs_nonneg, rfl, rfl, rfl, p.normalized_normalized, fun x => ?_,
    fun tolerance x allowed => ?_, fun options => ?_⟩
  · exact ⟨p.maxViolation?_normalized x, p.maxViolation?_of_length⟩
  · refine ⟨p.isSatisfiedBy_iff allowed x, ?_⟩
    rw [p.isSatisfiedBy_normalized]
    exact p.isSatisfiedBy_iff allowed x
  · exact ⟨BigM.solve_normalized p options, TwoPhase.solve_normalized p options⟩

/-- Rows of all senses with right hand sides of both signs. -/
def flippedProblem : Problem ℚ 4 2 where
  objective := #[1, 1].toVector
  coefficients := #[#[1, -1].toVector, #[-1, 0].toVector, #[-2, 1].toVector,
    #[1, 1].toVector].toVector
  rhs := #[-2, -3, -1, 10].toVector
  senses := #[.ge, .le, .eq, .le].toVector
  direction := .maximize
  names := #["x", "y"].toVector
  variables_pos := Nat.zero_lt_two

/-- Three of the rows are flipped, and a point that misses two of them by a
quarter satisfies both problems within that and neither within less. -/
theorem flippedProblem_keeps_verdicts :
    flippedProblem.normalized.senses = #v[.le, .ge, .eq, .le] ∧
      flippedProblem.normalized.rhs = #v[2, 3, 1, 10] ∧
      flippedProblem.normalized.maxViolation? [11 / 4, 19 / 4] = some (1 / 4) ∧
      flippedProblem.FeasibleWithin (1 / 4) [11 / 4, 19 / 4] ∧
      ¬ flippedProblem.FeasibleWithin (1 / 5) [11 / 4, 19 / 4] := by
  rcases flippedProblem.normalized_keeps_verdicts with ⟨_, _, _, _, _, same, verdicts, _⟩
  refine ⟨by decide +kernel, by decide +kernel, ?_, ?_, ?_⟩
  · rw [(same [11 / 4, 19 / 4]).1]
    decide +kernel
  · exact (verdicts (1 / 4) _ (by decide +kernel)).1.mp (by decide +kernel)
  · rw [← (verdicts (1 / 5) _ (by decide +kernel)).1]
    decide +kernel

end LinearProgram
