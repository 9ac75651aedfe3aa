import LinearProgram.Proofs.Duality.Analysis

namespace LinearProgram

/-!
# The dual of the textbook

Textbooks state the dual in quantities of several signs, one for each
constraint, and with a row of one sense for each variable.  The dual that is
built here has nonnegative columns instead, and rows of both senses.  Seen
through the recovery of its quantities the two are the same: the same
quantities, the same conditions on them and the same objective.
-/

namespace Direction

/-- The sign that textbooks give the dual quantity of a constraint. -/
def DualSign (direction : Direction) (sense : Sense) (value : ℚ) : Prop :=
  match direction, sense with
  | maximize, .le => 0 ≤ value
  | maximize, .ge => value ≤ 0
  | minimize, .ge => 0 ≤ value
  | minimize, .le => value ≤ 0
  | _, .eq => True

/-- The bound is at least as good as the value in the given direction. -/
def Bounds (direction : Direction) (bound value : ℚ) : Prop :=
  match direction with
  | maximize => value ≤ bound
  | minimize => bound ≤ value

theorem allows_dualSplit_iff_dualSign (direction : Direction) (sense : Sense) (value : ℚ) :
    (direction.dualSplit sense).Allows value ↔ direction.DualSign sense value := by
  cases direction <;> cases sense <;> exact Iff.rfl

theorem bounds_iff (direction : Direction) (bound value : ℚ) :
    direction.Bounds bound value ↔ direction.sign * value ≤ direction.sign * bound := by
  cases direction with
  | maximize => rw [sign, one_mul, one_mul, Bounds]
  | minimize => rw [sign, neg_one_mul, neg_one_mul, neg_le_neg_iff, Bounds]

end Direction

namespace Problem

variable {m n : Nat} {p : Problem ℚ m n}

/-- What makes a problem the dual of another one, read through the recovery of
the dual quantities. -/
structure IsTextbookDual (p : Problem ℚ m n) (d : Problem ℚ n p.dualWidth) : Prop where
  direction_eq : d.direction = p.direction.opposite
  /-- Nonnegative columns hold quantities with the right signs, and the rows
  and the objective say about them what the textbook says. -/
  quantities : ∀ u : Fin p.dualWidth → ℚ, (∀ column, 0 ≤ u column) → ∃ y : Fin m → ℚ,
    recover? p.dualRecoveries (List.ofFn u) = some (List.ofFn y) ∧
      (∀ row : Fin m, p.direction.DualSign p.senses[row] (y row)) ∧
      ((∀ j : Fin n, d.senses[j].Holds (d.activity j (List.ofFn u)) d.rhs[j]) ↔
        ∀ j : Fin n, p.direction.Bounds
          (∑ row : Fin m, p.coefficients[row][j] * y row) p.objective[j]) ∧
      d.objectiveValue (List.ofFn u) = ∑ row : Fin m, p.rhs[row] * y row
  /-- All quantities with the right signs are held by nonnegative columns. -/
  complete : ∀ y : Fin m → ℚ, (∀ row : Fin m, p.direction.DualSign p.senses[row] (y row)) →
    ∃ u : Fin p.dualWidth → ℚ, (∀ column, 0 ≤ u column) ∧
      recover? p.dualRecoveries (List.ofFn u) = some (List.ofFn y)
  /-- The objective of a feasible point of the dual bounds that of the problem. -/
  bounds : ∀ x u : List ℚ, p.Feasible x → d.Feasible u →
    p.direction.Bounds (d.objectiveValue u) (p.objectiveValue x)

/-- Nonnegative columns hold quantities with the signs of the constraints. -/
theorem dualSign_dualQuantities (p : Problem ℚ m n) {u : Fin p.dualWidth → ℚ}
    (nonnegative : ∀ column, 0 ≤ u column) (row : Fin m) :
    p.direction.DualSign p.senses[row] (p.dualQuantities u row) := by
  have allowed := Split.allows_quantities p.dualSplits nonnegative row
  rw [dualSplits_getElem, Direction.allows_dualSplit_iff_dualSign] at allowed
  exact allowed

section Dual

variable {d : Problem ℚ n p.dualWidth} (dual : p.dual = .ok d)
include dual

theorem holds_dual_iff_bounds (j : Fin n) (u : Fin p.dualWidth → ℚ) :
    d.senses[j].Holds (d.activity j (List.ofFn u)) d.rhs[j] ↔
      p.direction.Bounds (∑ row : Fin m, p.coefficients[row][j] * p.dualQuantities u row)
        p.objective[j] := by
  rw [activity_ofFn, senses_dual dual, leftSide_dual dual, rhs_dual dual, Direction.bounds_iff]
  exact p.direction.holds_signed_iff p.objective[j] _

theorem objectiveValue_dual (u : Fin p.dualWidth → ℚ) :
    d.objectiveValue (List.ofFn u) = ∑ row : Fin m, p.rhs[row] * p.dualQuantities u row := by
  rw [objectiveValue_ofFn, sum_objective_dual dual]

/-- Weak duality in the direction of the problem. -/
theorem bounds_objectiveValue_dual {x u : List ℚ} (feasible : p.Feasible x)
    (dualFeasible : d.Feasible u) :
    p.direction.Bounds (d.objectiveValue u) (p.objectiveValue x) := by
  rcases feasible.exists_ofFn with ⟨x, rfl, admits⟩
  rcases dualFeasible.exists_ofFn with ⟨u, rfl, dualAdmits⟩
  have turned : p.direction.sign * p.objectiveValue (List.ofFn x) = p.gain x := by
    rw [← Direction.orient_eq_sign_mul]
    exact p.merit_ofFn x
  have dualTurned : p.direction.sign * d.objectiveValue (List.ofFn u) = -d.gain u := by
    rw [objectiveValue_ofFn_eq_sign_mul, direction_dual dual, Direction.sign_opposite, neg_mul,
      mul_neg, Direction.sign_mul_sign_mul]
  rw [Direction.bounds_iff, turned, dualTurned]
  exact gain_le_neg_gain_dual dual admits dualAdmits

/-- A dual that is built is the one of the textbook. -/
theorem isTextbookDual : p.IsTextbookDual d where
  direction_eq := direction_dual dual
  quantities := by
    intro u nonnegative
    exact ⟨p.dualQuantities u, p.recover?_dualRecoveries u,
      p.dualSign_dualQuantities nonnegative,
      forall_congr' fun j => holds_dual_iff_bounds dual j u, objectiveValue_dual dual u⟩
  complete := by
    intro y signs
    refine ⟨Split.columnValues p.dualSplits y, Split.columnValues_nonneg p.dualSplits y, ?_⟩
    have allowed : ∀ row : Fin m, p.dualSplits[row].Allows (y row) := by
      intro row
      rw [dualSplits_getElem, Direction.allows_dualSplit_iff_dualSign]
      exact signs row
    exact (p.recover?_dualRecoveries _).trans (congrArg (fun held => some (List.ofFn held))
      (Split.quantities_columnValues p.dualSplits allowed))
  bounds := fun _ _ feasible dualFeasible => bounds_objectiveValue_dual dual feasible dualFeasible

end Dual

/-- **Every problem with a constraint has the dual of the textbook.** -/
theorem exists_textbookDual (p : Problem ℚ m n) (constrained : 0 < m) :
    ∃ d, p.dual = .ok d ∧ p.IsTextbookDual d := by
  rcases p.exists_dual constrained with ⟨d, dual⟩
  exact ⟨d, dual, isTextbookDual dual⟩

/-- The columns of the second row, an equation, shift those of the later rows. -/
theorem exists_textbookDual_mixedProblem :
    0 < 4 ∧ recover? Duality.mixedProblem.dualRecoveries [1, 2, 3, 4, 5] =
        some [(1 : ℚ), -1, -4, -5] ∧
      ∃ d, Duality.mixedProblem.dual = .ok d ∧ d.objective.toList = [2, 1, -1, 1, -3] ∧
        Duality.mixedProblem.IsTextbookDual d := by
  have constrained : 0 < 4 := by decide
  have recovered : recover? Duality.mixedProblem.dualRecoveries [1, 2, 3, 4, 5] =
      some [(1 : ℚ), -1, -4, -5] := by decide +kernel
  have objective : Duality.mixedProblem.dual.toOption.map (fun d => d.objective.toList) =
      some [2, 1, -1, 1, -3] := by decide +kernel
  rcases exists_textbookDual Duality.mixedProblem constrained with ⟨d, dual, textbook⟩
  rw [dual] at objective
  exact ⟨constrained, recovered, d, dual, Option.some.inj objective, textbook⟩

end Problem
end LinearProgram
