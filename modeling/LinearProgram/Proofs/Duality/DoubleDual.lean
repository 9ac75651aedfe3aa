import LinearProgram.Proofs.Duality.Analysis

namespace LinearProgram

/-!
# The dual of the dual

Taking the dual twice gives the problem back, up to the form of its rows.  The
first dual has no equations, so in the second one each variable of the problem
is held by one column, negated where its cost is negative; the sign that the
first dual gave to its row is taken off again there.  A row of the problem
comes back with a nonnegative right hand side, and an equation as two opposite
inequalities, the larger of whose violations is the distance of its sides.
-/

@[simp]
theorem Sense.flipped_flipped (sense : Sense) : sense.flipped.flipped = sense := by
  cases sense <;> rfl

theorem Sense.excess_neg (sense : Sense) (left right : ℚ) :
    sense.excess (-left) (-right) = sense.flipped.excess left right := by
  rw [← excess_flipped_neg sense.flipped, flipped_flipped]

/-- A row whose sense is flipped together with its sides is missed by as much. -/
theorem Sense.excess_signed (sense : Sense) (negated : Bool) (left right : ℚ) :
    (if negated then sense.flipped else sense).excess (signed negated left)
        (signed negated right) = sense.excess left right := by
  cases negated
  · rfl
  · exact sense.excess_flipped_neg left right

namespace Direction

@[simp]
theorem opposite_opposite (direction : Direction) : direction.opposite.opposite = direction := by
  cases direction <;> rfl

@[simp]
theorem naturalSense_opposite (direction : Direction) :
    direction.opposite.naturalSense = direction.naturalSense.flipped := by
  cases direction <;> rfl

theorem dualSplit_opposite_naturalSense (direction : Direction) :
    direction.opposite.dualSplit direction.naturalSense = .negated := by
  cases direction <;> rfl

theorem dualSplit_opposite_flipped (direction : Direction) :
    direction.opposite.dualSplit direction.naturalSense.flipped = .direct := by
  cases direction <;> rfl

/-- The columns of a constraint, read as rows of the natural sense, are missed
by no more than the constraint is. -/
theorem forall_columns_excess_le_iff {k : Nat} (direction : Direction) (sense : Sense)
    (source : Fin k) (left right bound : ℚ) :
    (∀ column ∈ (direction.dualSplit sense).columns source,
        direction.naturalSense.excess (signed column.negated left)
          (signed column.negated right) ≤ bound) ↔
      sense.excess left right ≤ bound := by
  have single (natural : Sense) (negated : Bool) (suffix : String) :
      (∀ column ∈ [(⟨source, negated, suffix⟩ : SplitColumn k)],
          natural.excess (signed column.negated left) (signed column.negated right) ≤ bound) ↔
        (if negated then natural.flipped else natural).excess left right ≤ bound := by
    rw [List.forall_mem_singleton]
    cases negated
    · exact Iff.rfl
    · exact iff_of_eq (congrArg (· ≤ bound) (natural.excess_neg left right))
  have both : Sense.eq.excess left right ≤ bound ↔
      left - right ≤ bound ∧ right - left ≤ bound := by
    rw [Sense.excess, Scalar.abs_rat, abs_sub_le_iff]
  cases direction <;> cases sense
  · exact single .le false ""
  · exact single .le true "-"
  · rw [both]
    refine List.forall_mem_cons.trans (and_congr Iff.rfl ?_)
    exact single .le true "-"
  · exact single .ge true "-"
  · exact single .ge false ""
  · rw [both, and_comm]
    refine List.forall_mem_cons.trans (and_congr Iff.rfl ?_)
    exact single .ge true "-"

end Direction

namespace Problem

variable {m n : Nat}

/-- What the dual of a dual has in common with the problem, and how its
quantities are read off. -/
structure IsDoubleDual (p : Problem ℚ m n) (d : Problem ℚ n p.dualWidth)
    (q : Problem ℚ p.dualWidth d.dualWidth) : Prop where
  direction_eq : q.direction = p.direction
  width_eq : d.dualWidth = n
  objective_eq : q.objective.toList = p.objective.toList
  rhs_nonneg : ∀ row : Fin p.dualWidth, 0 ≤ q.rhs[row]
  /-- Every point misses the conditions of both by the same amount. -/
  maxViolation_eq : ∀ x : List ℚ, x.length = n →
    ∃ amount, q.maxViolation? x = some amount ∧ p.maxViolation? x = some amount
  objectiveValue_eq : ∀ x : List ℚ, q.objectiveValue x = p.objectiveValue x
  /-- Each variable is held by the column at its own place. -/
  recoveries_eq : d.dualRecoveries = List.ofFn fun j : Fin n =>
    if p.objective[j] < 0 then .negated j else .direct j

section Dual

variable {p : Problem ℚ m n} {d : Problem ℚ n p.dualWidth} (dual : p.dual = .ok d)
include dual

/-! ## The columns of the second dual -/

theorem dualSplits_dual (j : Fin n) :
    d.dualSplits[j] = Split.ofSign (p.objective[j] < 0) := by
  rw [dualSplits_getElem, direction_dual dual, senses_dual dual, dualSense]
  by_cases negative : p.objective[j] < 0
  · rw [if_pos negative, decide_eq_true negative, Direction.dualSplit_opposite_naturalSense]
    rfl
  · rw [if_neg negative, decide_eq_false negative, Direction.dualSplit_opposite_flipped]
    rfl

/-- The second dual has the variables of the problem. -/
theorem dualWidth_dual : d.dualWidth = n :=
  Split.length_layout_of_signs (dualSplits_dual dual)

/-- The column of a variable in the second dual. -/
def doubleColumn (j : Fin n) : Fin d.dualWidth :=
  j.cast (dualWidth_dual dual).symm

theorem column_doubleColumn (j : Fin n) :
    Split.column d.dualSplits (doubleColumn dual j) =
      Split.signColumn (p.objective[j] < 0) j :=
  Split.column_of_signs (dualSplits_dual dual) j

theorem dualQuantities_dual (u : Fin d.dualWidth → ℚ) (j : Fin n) :
    d.dualQuantities u j = signed (p.objective[j] < 0) (u (doubleColumn dual j)) :=
  Split.quantities_of_signs (dualSplits_dual dual) u j

section Second

variable {q : Problem ℚ p.dualWidth d.dualWidth} (second : d.dual = .ok q)
include second

theorem direction_second : q.direction = p.direction := by
  rw [direction_dual second, direction_dual dual, Direction.opposite_opposite]

theorem objective_second (j : Fin n) : q.objective[doubleColumn dual j] = p.objective[j] := by
  have held : ∀ own : SplitColumn n, own = Split.signColumn (p.objective[j] < 0) j →
      signed own.negated d.rhs[own.source] = p.objective[j] := by
    rintro _ rfl
    rw [Split.signColumn, rhs_dual dual, signed_signed]
  rw [objective_dual second]
  exact held _ (column_doubleColumn dual j)

theorem objective_toList_second : q.objective.toList = p.objective.toList := by
  apply List.ext_getElem
  · simp [dualWidth_dual dual]
  · intro j _ bound
    have place : j < n := by simpa using bound
    simpa [doubleColumn] using objective_second dual second ⟨j, place⟩

omit dual in
theorem rhs_second_nonneg (row : Fin p.dualWidth) : 0 ≤ q.rhs[row] := by
  rw [rhs_dual second]
  exact signed_self_nonneg d.objective[row]

/-! ## The rows of the second dual -/

theorem senses_second (row : Fin p.dualWidth) :
    q.senses[row] = if decide (d.objective[row] < 0) then p.direction.naturalSense.flipped
      else p.direction.naturalSense := by
  rw [senses_dual second, dualSense, direction_dual dual, Direction.naturalSense_opposite,
    Sense.flipped_flipped]
  simp only [decide_eq_true_eq]

theorem rhs_second (row : Fin p.dualWidth) :
    q.rhs[row] = signed (d.objective[row] < 0) (signed (Split.column p.dualSplits row).negated
      p.rhs[(Split.column p.dualSplits row).source]) := by
  rw [rhs_dual second, ← objective_dual dual]

/-- The sign that the first dual gave to the row of a variable is taken off by its column. -/
theorem leftSide_second (row : Fin p.dualWidth) (u : Fin d.dualWidth → ℚ) :
    q.leftSide row u = signed (d.objective[row] < 0)
      (signed (Split.column p.dualSplits row).negated
        (p.leftSide (Split.column p.dualSplits row).source fun j => u (doubleColumn dual j))) := by
  rw [leftSide_dual second, leftSide, ← sum_signed (Split.column p.dualSplits row).negated]
  refine congrArg _ (Finset.sum_congr rfl fun j _ => ?_)
  rw [dualQuantities_dual dual, coefficients_dual dual, signed_mul, signed_signed, signed_mul,
    mul_signed]

/-- A row of the second dual is a column of the constraint that it comes from. -/
theorem excess_second (row : Fin p.dualWidth) (u : Fin d.dualWidth → ℚ) :
    q.senses[row].excess (q.leftSide row u) q.rhs[row] =
      p.direction.naturalSense.excess
        (signed (Split.column p.dualSplits row).negated
          (p.leftSide (Split.column p.dualSplits row).source fun j => u (doubleColumn dual j)))
        (signed (Split.column p.dualSplits row).negated
          p.rhs[(Split.column p.dualSplits row).source]) := by
  rw [senses_second dual second, leftSide_second dual second, rhs_second dual second,
    Sense.excess_signed]

/-! ## Points of the second dual -/

/-- The point of the second dual that stands for a point of the problem. -/
def doublePoint (y : Fin n → ℚ) (j : Fin d.dualWidth) : ℚ :=
  y (j.cast (dualWidth_dual dual))

omit second in
theorem ofFn_doublePoint (y : Fin n → ℚ) : List.ofFn (doublePoint dual y) = List.ofFn y :=
  (List.ofFn_congr (dualWidth_dual dual).symm y).symm

theorem worstViolation_second (y : Fin n → ℚ) :
    q.worstViolation (List.ofFn y) = p.worstViolation (List.ofFn y) := by
  -- The lists of violations differ, already in length; what bounds them from above does not.
  rw [← ofFn_doublePoint dual y]
  refine eq_of_forall_ge_iff fun bound => ?_
  rw [worstViolation_ofFn_le_iff, ofFn_doublePoint, worstViolation_ofFn_le_iff]
  refine and_congr_right fun _ => and_congr ?_ ?_
  · exact ((finCongr (dualWidth_dual dual)).surjective.forall
      (p := fun k => -bound ≤ y k)).symm
  · simp only [excess_second dual second]
    refine (Split.forall_column_iff p.dualSplits fun own => p.direction.naturalSense.excess
      (signed own.negated (p.leftSide own.source y))
      (signed own.negated p.rhs[own.source]) ≤ bound).trans (forall_congr' fun row => ?_)
    rw [dualSplits_getElem, ← p.direction.forall_columns_excess_le_iff p.senses[row] row]
    refine forall₂_congr fun own member => ?_
    have same := Split.source_of_mem_columns member
    subst same
    rfl

end Second

theorem isDoubleDual {q : Problem ℚ p.dualWidth d.dualWidth} (second : d.dual = .ok q) :
    p.IsDoubleDual d q where
  direction_eq := direction_second dual second
  width_eq := dualWidth_dual dual
  objective_eq := objective_toList_second dual second
  rhs_nonneg := rhs_second_nonneg second
  maxViolation_eq := by
    intro x length
    rcases exists_eq_ofFn length with ⟨y, rfl⟩
    refine ⟨_, if_pos (Or.inr ?_), (if_pos (Or.inr ?_)).trans ?_⟩
    · rw [dualWidth_dual dual, List.length_ofFn]
    · rw [List.length_ofFn]
    · rw [worstViolation_second dual second]
  objectiveValue_eq := by
    intro x
    rw [objectiveValue, objective_toList_second dual second, objectiveValue]
  recoveries_eq := by
    refine (Split.recoveries_of_signs (dualSplits_dual dual)).trans (congrArg List.ofFn ?_)
    funext j
    by_cases negative : p.objective[j] < 0
    · rw [if_pos negative, decide_eq_true negative]
      rfl
    · rw [if_neg negative, decide_eq_false negative]
      rfl

end Dual

/-- **The dual of the dual is the problem.** -/
theorem exists_dual_dual (p : Problem ℚ m n) (constrained : 0 < m) :
    ∃ d q, p.dual = .ok d ∧ d.dual = .ok q ∧ p.IsDoubleDual d q := by
  rcases p.exists_dual constrained with ⟨d, dual⟩
  rcases d.exists_dual p.variables_pos with ⟨q, second⟩
  exact ⟨d, q, dual, second, isDoubleDual dual second⟩

/-- The equation of the mixed problem comes back as its second and third row. -/
theorem exists_dual_dual_mixedProblem :
    0 < 4 ∧ (Duality.mixedProblem.dual.toOption.bind fun d => d.dual.toOption.map fun q =>
        (d.dualRecoveries, q.rhs.toList, q.senses.toList)) =
        some ([.direct 0, .direct 1, .negated 2], [2, 1, 1, 1, 3], [.ge, .ge, .le, .ge, .le]) ∧
      ∃ d q, Duality.mixedProblem.dual = .ok d ∧ d.dual = .ok q ∧
        Duality.mixedProblem.IsDoubleDual d q := by
  have constrained : 0 < 4 := by decide
  have rows : (Duality.mixedProblem.dual.toOption.bind fun d => d.dual.toOption.map fun q =>
      (d.dualRecoveries, q.rhs.toList, q.senses.toList)) =
      some ([.direct 0, .direct 1, .negated 2], [2, 1, 1, 1, 3], [.ge, .ge, .le, .ge, .le]) := by
    decide +kernel
  exact ⟨constrained, rows, exists_dual_dual Duality.mixedProblem constrained⟩

end Problem

end LinearProgram
