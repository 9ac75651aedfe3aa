import LinearProgram.Proofs.Duality.Textbook

namespace LinearProgram

/-!
# Dual quantities as shadow prices

When multipliers reach the objective of a feasible point, every inequality on
the way from the objective to the bound is an equality, term by term.  A
constraint that is not met with equality then has the multiplier zero, and a
variable that is not zero has no reduced cost.

The two optima of an analysis on sharp courses have the same objective, so the
quantities recovered from the optimum of the dual are such multipliers for the
optimum of the problem, although the two come from runs that know nothing of
each other.
-/

variable {m n : Nat}

namespace Problem

/-- Complementary slackness. -/
theorem Multipliers.slackness {p : Problem ℚ m n} {multiplier : Fin m → ℚ}
    (multipliers : p.Multipliers multiplier) {x : Fin n → ℚ} (admits : p.Admits x)
    (reached : p.gain x = p.multipliedRhs multiplier) :
    (∀ row : Fin m, multiplier row * p.leftSide row x = multiplier row * p.rhs[row]) ∧
      ∀ k : Fin n, p.direction.sign * p.objective[k] * x k =
        (∑ row : Fin m, multiplier row * p.coefficients[row][k]) * x k := by
  have rows : ∀ row ∈ Finset.univ, multiplier row * p.leftSide row x ≤
      multiplier row * p.rhs[row] := fun row _ =>
    (admits.holds row).mul_le_mul (multipliers.allowed row)
  have columns : ∀ k ∈ Finset.univ, p.direction.sign * p.objective[k] * x k ≤
      (∑ row : Fin m, multiplier row * p.coefficients[row][k]) * x k := fun k _ =>
    mul_le_mul_of_nonneg_right ((p.covers_iff multiplier).mp multipliers.covers k)
      (admits.nonnegative k)
  have below : p.gain x ≤ ∑ row, multiplier row * p.leftSide row x :=
    multipliers.covers x admits.nonnegative
  have above : ∑ row, multiplier row * p.leftSide row x ≤ p.multipliedRhs multiplier :=
    Finset.sum_le_sum rows
  have combined : ∑ row, multiplier row * p.leftSide row x = p.multipliedRhs multiplier :=
    le_antisymm above (reached ▸ below)
  constructor
  · intro row
    exact (Finset.sum_eq_sum_iff_of_le rows).mp combined row (Finset.mem_univ row)
  · intro k
    refine (Finset.sum_eq_sum_iff_of_le columns).mp ?_ k (Finset.mem_univ k)
    rw [← gain_eq_sum, ← sum_mul_leftSide, combined, reached]

end Problem

/-- The dual quantities `y` of a report are shadow prices of its optimum `x`. -/
structure DualityReport.ShadowPrices {p : Problem ℚ m n} (report : DualityReport p)
    (x : Fin n → ℚ) (y : Fin m → ℚ) : Prop where
  point : report.primal.decisionValues n = List.ofFn x
  /-- There is one quantity for each constraint, in order. -/
  quantities : report.dualValues = List.ofFn fun row : Fin m => (Problem.dualName row, y row)
  signs : ∀ row : Fin m, p.direction.DualSign p.senses[row] (y row)
  objective : report.primal.objective = some (∑ row : Fin m, p.rhs[row] * y row)
  /-- A constraint that is not met with equality has no price. -/
  row_slack : ∀ row : Fin m,
    y row * (∑ k : Fin n, p.coefficients[row][k] * x k - p.rhs[row]) = 0
  /-- A variable that is not zero is worth what its column costs. -/
  column_slack : ∀ k : Fin n,
    x k * (∑ row : Fin m, p.coefficients[row][k] * y row - p.objective[k]) = 0

namespace Duality

variable {p : Problem ℚ m n} {d : Problem ℚ n p.dualWidth} {options : Options ℚ}
  {primal dualSolution : Solution ℚ}

theorem dualValues_of_optimal (dualOptimum : dualSolution.outcome = .optimal)
    {u : Fin p.dualWidth → ℚ} (values : dualSolution.decisionValues p.dualWidth = List.ofFn u) :
    dualValues p dualSolution =
      .ok (List.ofFn fun row : Fin m => (Problem.dualName row, p.dualQuantities u row)) := by
  have optimal : dualSolution.isOptimal = true := decide_eq_true dualOptimum
  have named : (List.ofFn (p.dualQuantities u)).mapIdx
      (fun row value => (Problem.dualName row, value)) =
      List.ofFn fun row : Fin m => (Problem.dualName row, p.dualQuantities u row) := by
    apply List.ext_getElem <;> simp
  rw [dualValues, if_pos optimal, values, p.recover?_dualRecoveries u, ← named]
  rfl

section Pair

variable (dual : p.dual = .ok d) (sharp : TwoPhase.SharpCourse p options)
  (dualSharp : TwoPhase.SharpCourse d options)
  (solved : TwoPhase.solve p options = .ok primal)
  (dualSolved : TwoPhase.solve d options = .ok dualSolution)
include dual sharp dualSharp solved dualSolved

/-- Two sharp optima are a point and multipliers with the same objective. -/
theorem exists_slack_of_optimal (optimum : primal.outcome = .optimal)
    (dualOptimum : dualSolution.outcome = .optimal) :
    ∃ (x : Fin n → ℚ) (u : Fin p.dualWidth → ℚ), p.Admits x ∧ d.Admits u ∧
      primal.decisionValues n = List.ofFn x ∧
      dualSolution.decisionValues p.dualWidth = List.ofFn u ∧
      primal.objective = some (∑ row : Fin m, p.rhs[row] * p.dualQuantities u row) ∧
      p.gain x = p.multipliedRhs fun row => p.direction.sign * p.dualQuantities u row := by
  rcases TwoPhase.exists_multipliers_of_sharp sharp solved optimum with
    ⟨x, _, admits, _, _, point, objective⟩
  rcases TwoPhase.exists_multipliers_of_sharp dualSharp dualSolved dualOptimum with
    ⟨u, _, dualAdmits, _, _, values, dualObjective⟩
  rcases objective_eq_of_optimal dual sharp dualSharp solved dualSolved optimum dualOptimum with
    ⟨common, first, second⟩
  have gain : p.direction.sign * p.gain x = common := Option.some.inj (objective.symm.trans first)
  have dualGain : d.direction.sign * d.gain u = common :=
    Option.some.inj (dualObjective.symm.trans second)
  have bound : common = ∑ row : Fin m, p.rhs[row] * p.dualQuantities u row := by
    rw [← dualGain, ← Problem.objectiveValue_ofFn_eq_sign_mul, Problem.objectiveValue_dual dual]
  refine ⟨x, u, admits, dualAdmits, point, values, first.trans (congrArg some bound), ?_⟩
  rw [← p.direction.sign_mul_inj, gain, ← dualGain, Problem.direction_dual dual,
    Direction.sign_opposite, Problem.gain_dual dual, neg_mul_neg]

end Pair

/-- The quantities at the sharp optimum of the dual price the sharp optimum of the problem. -/
theorem shadowPrices_of_optimal {report : DualityReport p} (made : report.MadeFrom options)
    (sharp : TwoPhase.SharpCourse p options)
    (dualSharp : TwoPhase.SharpCourse report.dualProblem options)
    (optimum : report.primal.outcome = .optimal) (dualOptimum : report.dual.outcome = .optimal) :
    ∃ x y, report.ShadowPrices x y := by
  have dual := made.dualProblem
  rcases exists_slack_of_optimal dual sharp dualSharp made.primal made.dual optimum dualOptimum with
    ⟨x, u, admits, dualAdmits, decisions, columns, objective, reached⟩
  rcases (dualAdmits.multipliers_of_dual dual).slackness admits reached with ⟨rows, costs⟩
  have named := (dualValues_of_optimal dualOptimum columns).symm.trans made.dualValues
  refine ⟨x, p.dualQuantities u, decisions, (Except.ok.inj named).symm,
    p.dualSign_dualQuantities dualAdmits.nonnegative, objective, fun row => ?_, fun k => ?_⟩
  · have price := rows row
    rw [mul_assoc, mul_assoc, Direction.sign_mul_inj] at price
    rw [mul_sub, sub_eq_zero]
    exact price
  · have cost := costs k
    rw [Direction.sum_sign_mul, mul_assoc, mul_assoc, Direction.sign_mul_inj] at cost
    rw [mul_sub, sub_eq_zero, mul_comm (x k), mul_comm (x k)]
    exact cost.symm

/-- **On sharp courses the dual values of two optima are shadow prices.** -/
theorem analyze_shadowPrices_of_sharp (p : Problem ℚ m n) (options : Options ℚ)
    (constrained : 0 < m) (valid : options.validate = .ok ())
    (sharp : TwoPhase.SharpCourse p options)
    (dualSharp : ∀ d, p.dual = .ok d → TwoPhase.SharpCourse d options) :
    ∃ report, analyze p options = .ok report ∧ report.MadeFrom options ∧
      (report.primal.outcome = .optimal → report.dual.outcome = .optimal →
        ∃ x y, report.ShadowPrices x y) := by
  rcases exists_analyze p constrained valid with ⟨report, analyzed⟩
  have made := (analyze_eq_ok_iff.mp analyzed).2
  exact ⟨report, analyzed, made, shadowPrices_of_optimal made sharp
    (dualSharp _ made.dualProblem)⟩

/-- A problem with a tight bound, an equation and a bound that has room and a
negative right hand side.  Its optimum leaves the last variable at zero. -/
def pricedProblem : Problem ℚ 3 3 where
  objective := #[1, 3, -1].toVector
  coefficients := #[#[1, 1, 1].toVector, #[1, -1, 0].toVector, #[-1, 0, 0].toVector].toVector
  rhs := #[4, 1, -1].toVector
  senses := #[.le, .eq, .le].toVector
  direction := .maximize
  names := #["x", "y", "z"].toVector
  variables_pos := Nat.succ_pos (nat_lit 2)

/-- The equation has a negative price and the bound with room has none. -/
theorem pricedProblem_shadowPrices :
    0 < 3 ∧ Options.default.validate (K := ℚ) = .ok () ∧
      TwoPhase.SharpCourse pricedProblem Options.default ∧
      (∀ d, pricedProblem.dual = .ok d → TwoPhase.SharpCourse d Options.default) ∧
      ∃ report x y, analyze pricedProblem Options.default = .ok report ∧
        report.MadeFrom Options.default ∧
        report.primal.outcome = .optimal ∧ report.dual.outcome = .optimal ∧
        report.dualValues = [("y1", 2), ("y2", -1), ("y3", 0)] ∧ report.ShadowPrices x y := by
  have constrained : 0 < 3 := by decide
  have valid : Options.default.validate (K := ℚ) = .ok () := by decide +kernel
  have sharp : TwoPhase.SharpCourse pricedProblem Options.default := by decide +kernel
  have dualSharp : ∀ d, pricedProblem.dual = .ok d → TwoPhase.SharpCourse d Options.default := by
    decide +kernel
  have reported : (analyze pricedProblem Options.default).toOption.map
      (fun report => (report.primal.outcome, report.dual.outcome, report.dualValues)) =
    some (.optimal, .optimal, [("y1", 2), ("y2", -1), ("y3", 0)]) := by decide +kernel
  rcases analyze_shadowPrices_of_sharp pricedProblem Options.default constrained valid sharp
    dualSharp with ⟨report, analyzed, made, prices⟩
  rw [analyzed] at reported
  obtain ⟨optimum, dualOptimum, quantities⟩ :
      report.primal.outcome = .optimal ∧ report.dual.outcome = .optimal ∧
        report.dualValues = [("y1", 2), ("y2", -1), ("y3", 0)] := by
    simpa [Except.toOption] using reported
  rcases prices optimum dualOptimum with ⟨x, y, shadow⟩
  exact ⟨constrained, valid, sharp, dualSharp, report, x, y, analyzed, made, optimum, dualOptimum,
    quantities, shadow⟩

end Duality

end LinearProgram
