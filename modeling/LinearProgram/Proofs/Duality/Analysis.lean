import LinearProgram.Proofs.Duality.Dual
import LinearProgram.Proofs.TwoPhase.Outcome
import LinearProgram.Duality.Analysis

namespace LinearProgram

/-!
# A problem and its dual agree on sharp courses

The analysis of a problem makes two runs that know nothing of each other, and
what it reports comes from their answers and from nowhere else.

No feasible point of a problem is better than the bound that a feasible point
of its dual gives.  A sharp optimum comes with multipliers that reach its
objective, so the dual has a point with the same objective, and the outcomes
of the two solution processes fit together.
-/

variable {m n : Nat}

/-! ## What a report is made from -/

section AnyArithmetic

variable {K : Type} [Scalar K] {p : Problem K m n} {options : Options K}

/-- A report holds the answers of the method of two phases to the problem and
to its dual, and what is computed from them. -/
structure DualityReport.MadeFrom (report : DualityReport p) (options : Options K) : Prop where
  dualProblem : p.dual = .ok report.dualProblem
  primal : TwoPhase.solve p options = .ok report.primal
  dual : TwoPhase.solve report.dualProblem options = .ok report.dual
  dualValues : Duality.dualValues p report.dual = .ok report.dualValues
  gap : report.gap = Duality.gap? report.primal report.dual
  strongDuality : report.strongDuality =
    report.gap.any fun distance => distance < options.dualityTolerance

/-- The analysis checks its options, makes the two runs and reports on them. -/
theorem Duality.analyze_eq_ok_iff {report : DualityReport p} :
    analyze p options = .ok report ↔ options.validate = .ok () ∧ report.MadeFrom options := by
  simp only [analyze, Failure.bind_eq_ok_iff, Failure.lift_eq_ok_iff, pure, Except.pure,
    Except.ok.injEq]
  constructor
  · rintro ⟨_, valid, dualProblem, dual, primal, solved, other, dualSolved, values, recovered, rfl⟩
    exact ⟨valid, dual, solved, dualSolved, recovered, rfl, rfl⟩
  · rintro ⟨valid, made⟩
    refine ⟨(), valid, _, made.dualProblem, _, made.primal, _, made.dual, _, made.dualValues, ?_⟩
    rw [← made.gap, ← made.strongDuality]

end AnyArithmetic

namespace Problem

variable {p : Problem ℚ m n}

section Dual

variable {d : Problem ℚ n p.dualWidth} (dual : p.dual = .ok d)
include dual

theorem not_unbounded_of_admits_dual {u : Fin p.dualWidth → ℚ} (dualAdmits : d.Admits u) :
    ¬ p.Unbounded := by
  intro unbounded
  rcases unbounded.2 (-d.gain u) with ⟨list, feasible, above⟩
  rcases feasible.exists_ofFn with ⟨x, rfl, admits⟩
  rw [merit_ofFn] at above
  exact absurd above (not_lt.mpr (gain_le_neg_gain_dual dual admits dualAdmits))

theorem dual_not_unbounded_of_admits {x : Fin n → ℚ} (admits : p.Admits x) : ¬ d.Unbounded := by
  intro unbounded
  rcases unbounded.2 (-p.gain x) with ⟨list, feasible, above⟩
  rcases feasible.exists_ofFn with ⟨u, rfl, dualAdmits⟩
  rw [merit_ofFn] at above
  have bounded := gain_le_neg_gain_dual dual admits dualAdmits
  linarith

end Dual
end Problem

/-! ## Sharp optima -/

/-- A sharp optimum is a feasible point together with multipliers that reach its objective. -/
theorem TwoPhase.exists_multipliers_of_sharp {p : Problem ℚ m n} {options : Options ℚ}
    {solution : Solution ℚ} (sharp : SharpCourse p options)
    (solved : solve p options = .ok solution) (optimum : solution.outcome = .optimal) :
    ∃ x multiplier, p.Admits x ∧ p.Multipliers multiplier ∧
      p.multipliedRhs multiplier = p.gain x ∧ solution.decisionValues n = List.ofFn x ∧
      solution.objective = some (p.direction.sign * p.gain x) := by
  have positive := epsilon_pos_of_solve solved
  rcases final_of_optimal sharp solved optimum with ⟨within, clear⟩
  rcases optimal_cases solved optimum with ⟨_, _, stops, values, objective⟩
  rcases secondRun_final (p := p.normalized) positive with ⟨represents, _⟩
  obtain ⟨flipped, multipliers, corner⟩ := represents.exists_multipliers fun j other =>
    clear.reducedCost_nonneg stops ((secondPass_allowed_iff j).mpr other)
  rcases multipliers.exists_of_normalized with ⟨multiplier, original, same⟩
  refine ⟨_, multiplier, (p.admits_normalized_iff _).mp (within.admits represents), original, ?_,
    values, ?_⟩
  · rw [same, corner, ← represents.gain_columnValue, Problem.gain_normalized]
  · rw [objective, Problem.objectiveValue_ofFn_eq_sign_mul]

theorem Outcome.optimal_or_limit {outcome : Outcome} (feasible : outcome ≠ .infeasible)
    (bounded : outcome ≠ .unbounded) : outcome = .optimal ∨ outcome = .iterationLimit := by
  cases outcome with
  | optimal => exact Or.inl rfl
  | iterationLimit => exact Or.inr rfl
  | infeasible => exact absurd rfl feasible
  | unbounded => exact absurd rfl bounded

theorem Outcome.infeasible_or_limit {outcome : Outcome} (nowhere : outcome ≠ .optimal)
    (bounded : outcome ≠ .unbounded) : outcome = .infeasible ∨ outcome = .iterationLimit := by
  cases outcome with
  | infeasible => exact Or.inl rfl
  | iterationLimit => exact Or.inr rfl
  | optimal => exact absurd rfl nowhere
  | unbounded => exact absurd rfl bounded

/-- The outcomes of a problem and its dual fit together, and two optima have the
same objective and no gap. -/
structure DualityReport.Consistent {p : Problem ℚ m n} (report : DualityReport p) : Prop where
  objectives : report.primal.outcome = .optimal → report.dual.outcome = .optimal →
    ∃ objective, report.primal.objective = some objective ∧
      report.dual.objective = some objective
  closed : report.primal.outcome = .optimal → report.dual.outcome = .optimal →
    report.gap = some 0 ∧ report.strongDuality = true
  dual_of_optimal : report.primal.outcome = .optimal →
    report.dual.outcome = .optimal ∨ report.dual.outcome = .iterationLimit
  primal_of_optimal : report.dual.outcome = .optimal →
    report.primal.outcome = .optimal ∨ report.primal.outcome = .iterationLimit
  dual_of_unbounded : report.primal.outcome = .unbounded →
    report.dual.outcome = .infeasible ∨ report.dual.outcome = .iterationLimit
  primal_of_unbounded : report.dual.outcome = .unbounded →
    report.primal.outcome = .infeasible ∨ report.primal.outcome = .iterationLimit

namespace Duality

section Pair

variable {p : Problem ℚ m n} {d : Problem ℚ n p.dualWidth} (dual : p.dual = .ok d)
  {options : Options ℚ} (sharp : TwoPhase.SharpCourse p options)
  (dualSharp : TwoPhase.SharpCourse d options) {primal dualSolution : Solution ℚ}
  (solved : TwoPhase.solve p options = .ok primal)
  (dualSolved : TwoPhase.solve d options = .ok dualSolution)
include dual sharp dualSharp solved dualSolved

theorem objective_eq_of_optimal (optimum : primal.outcome = .optimal)
    (dualOptimum : dualSolution.outcome = .optimal) :
    ∃ objective, primal.objective = some objective ∧ dualSolution.objective = some objective := by
  rcases TwoPhase.exists_multipliers_of_sharp sharp solved optimum with
    ⟨x, multiplier, admits, multipliers, reached, _, objective⟩
  rcases TwoPhase.exists_multipliers_of_sharp dualSharp dualSolved dualOptimum with
    ⟨u, _, dualAdmits, _, _, values, dualObjective⟩
  rcases multipliers.exists_admits_dual dual with ⟨v, other, same⟩
  have best := (TwoPhase.trueOf_of_sharp dualSharp dualSolved).optimal dualOptimum |>.1.best
    (List.ofFn v) ((d.feasible_ofFn_iff v).mpr other)
  rw [values, Problem.merit_ofFn, Problem.merit_ofFn, same, reached] at best
  have bounded := Problem.gain_le_neg_gain_dual dual admits dualAdmits
  have equal : d.gain u = -p.gain x := le_antisymm (by linarith) best
  refine ⟨_, objective, ?_⟩
  rw [dualObjective, Problem.direction_dual dual, Direction.sign_opposite, equal, neg_mul_neg]

theorem outcomes_of_optimal (optimum : primal.outcome = .optimal) :
    dualSolution.outcome = .optimal ∨ dualSolution.outcome = .iterationLimit := by
  have truth := TwoPhase.trueOf_of_sharp dualSharp dualSolved
  rcases TwoPhase.exists_multipliers_of_sharp sharp solved optimum with
    ⟨x, multiplier, admits, multipliers, _⟩
  rcases multipliers.exists_admits_dual dual with ⟨v, other, _⟩
  refine Outcome.optimal_or_limit (fun none => ?_) fun endless => ?_
  · exact truth.infeasible none _ ((d.feasible_ofFn_iff v).mpr other)
  · exact Problem.dual_not_unbounded_of_admits dual admits (truth.unbounded endless)

theorem outcomes_of_dual_optimal (dualOptimum : dualSolution.outcome = .optimal) :
    primal.outcome = .optimal ∨ primal.outcome = .iterationLimit := by
  have truth := TwoPhase.trueOf_of_sharp sharp solved
  rcases TwoPhase.exists_multipliers_of_sharp dualSharp dualSolved dualOptimum with
    ⟨u, multiplier, dualAdmits, multipliers, _⟩
  refine Outcome.optimal_or_limit (fun none => ?_) fun endless => ?_
  · exact truth.infeasible none _ ((p.feasible_ofFn_iff _).mpr (multipliers.admits_ofDual dual))
  · exact Problem.not_unbounded_of_admits_dual dual dualAdmits (truth.unbounded endless)

theorem outcomes_of_unbounded (endless : primal.outcome = .unbounded) :
    dualSolution.outcome = .infeasible ∨ dualSolution.outcome = .iterationLimit := by
  have truth := TwoPhase.trueOf_of_sharp dualSharp dualSolved
  have unbounded := (TwoPhase.trueOf_of_sharp sharp solved).unbounded endless
  refine Outcome.infeasible_or_limit (fun dualOptimum => ?_) fun dualEndless => ?_
  · rcases (truth.optimal dualOptimum).1.feasible.exists_ofFn with ⟨u, _, dualAdmits⟩
    exact Problem.not_unbounded_of_admits_dual dual dualAdmits unbounded
  · rcases unbounded.1 with ⟨list, feasible⟩
    rcases feasible.exists_ofFn with ⟨x, _, admits⟩
    exact Problem.dual_not_unbounded_of_admits dual admits (truth.unbounded dualEndless)

theorem outcomes_of_dual_unbounded (dualEndless : dualSolution.outcome = .unbounded) :
    primal.outcome = .infeasible ∨ primal.outcome = .iterationLimit := by
  have truth := TwoPhase.trueOf_of_sharp sharp solved
  have dualUnbounded := (TwoPhase.trueOf_of_sharp dualSharp dualSolved).unbounded dualEndless
  refine Outcome.infeasible_or_limit (fun optimum => ?_) fun endless => ?_
  · rcases (truth.optimal optimum).1.feasible.exists_ofFn with ⟨x, _, admits⟩
    exact Problem.dual_not_unbounded_of_admits dual admits dualUnbounded
  · rcases dualUnbounded.1 with ⟨list, feasible⟩
    rcases feasible.exists_ofFn with ⟨u, _, dualAdmits⟩
    exact Problem.not_unbounded_of_admits_dual dual dualAdmits (truth.unbounded endless)

end Pair

/-! ## The analysis -/

theorem exists_dualValues (p : Problem ℚ m n) (dualSolution : Solution ℚ)
    (complete : dualSolution.outcome = .optimal → ∃ u : Fin p.dualWidth → ℚ,
      dualSolution.decisionValues p.dualWidth = List.ofFn u) :
    ∃ values, dualValues p dualSolution = .ok values := by
  unfold dualValues
  by_cases optimum : dualSolution.outcome = .optimal
  · rcases complete optimum with ⟨u, listed⟩
    rw [listed, p.recover?_dualRecoveries u]
    exact ⟨_, if_pos (decide_eq_true optimum)⟩
  · exact ⟨[], if_neg (by rw [Solution.isOptimal, decide_eq_true_eq]; exact optimum)⟩

/-- The analysis of a problem with a constraint gives a report under all valid options. -/
theorem exists_analyze (p : Problem ℚ m n) {options : Options ℚ} (constrained : 0 < m)
    (valid : options.validate = .ok ()) : ∃ report, analyze p options = .ok report := by
  rcases p.exists_dual constrained with ⟨d, dual⟩
  rcases TwoPhase.exists_concludes p valid with ⟨primal, solved, _⟩
  rcases TwoPhase.exists_concludes d valid with ⟨dualSolution, dualSolved, _⟩
  obtain ⟨values, recovered⟩ := exists_dualValues p dualSolution fun optimum =>
    ⟨_, (TwoPhase.optimal_cases dualSolved optimum).2.2.2.1⟩
  let gap := gap? primal dualSolution
  let strong := gap.any fun distance => distance < options.dualityTolerance
  exact ⟨⟨primal, dualSolution, d, values, gap, strong⟩,
    analyze_eq_ok_iff.mpr ⟨valid, dual, solved, dualSolved, recovered, rfl, rfl⟩⟩

theorem consistent_of_sharp {p : Problem ℚ m n} {options : Options ℚ} {report : DualityReport p}
    (made : report.MadeFrom options) (tolerant : 0 < options.dualityTolerance)
    (sharp : TwoPhase.SharpCourse p options)
    (dualSharp : TwoPhase.SharpCourse report.dualProblem options) : report.Consistent where
  objectives :=
    objective_eq_of_optimal made.dualProblem sharp dualSharp made.primal made.dual
  closed optimum dualOptimum := by
    rcases objective_eq_of_optimal made.dualProblem sharp dualSharp made.primal made.dual optimum
      dualOptimum with ⟨objective, first, second⟩
    have gap : report.gap = some 0 := by simp [made.gap, gap?, first, second]
    refine ⟨gap, ?_⟩
    rw [made.strongDuality, gap]
    exact decide_eq_true tolerant
  dual_of_optimal :=
    outcomes_of_optimal made.dualProblem sharp dualSharp made.primal made.dual
  primal_of_optimal :=
    outcomes_of_dual_optimal made.dualProblem sharp dualSharp made.primal made.dual
  dual_of_unbounded :=
    outcomes_of_unbounded made.dualProblem sharp dualSharp made.primal made.dual
  primal_of_unbounded :=
    outcomes_of_dual_unbounded made.dualProblem sharp dualSharp made.primal made.dual

/-- On sharp courses the analysis of a problem with a constraint always gives a
report on its own two runs, and what it reports is consistent. -/
theorem analyze_consistent_of_sharp (p : Problem ℚ m n) (options : Options ℚ)
    (constrained : 0 < m) (valid : options.validate = .ok ())
    (sharp : TwoPhase.SharpCourse p options)
    (dualSharp : ∀ d, p.dual = .ok d → TwoPhase.SharpCourse d options) :
    ∃ report, analyze p options = .ok report ∧ report.MadeFrom options ∧ report.Consistent := by
  rcases exists_analyze p constrained valid with ⟨report, analyzed⟩
  have made := (analyze_eq_ok_iff.mp analyzed).2
  rcases Options.validate_eq_ok valid with ⟨_, _, tolerant⟩
  exact ⟨report, analyzed, made,
    consistent_of_sharp made tolerant sharp (dualSharp _ made.dualProblem)⟩

/-- A problem has at most one dual, so what is said of every dual can be evaluated. -/
instance (p : Problem ℚ m n) (Good : Problem ℚ n p.dualWidth → Prop) [DecidablePred Good] :
    Decidable (∀ d, p.dual = .ok d → Good d) :=
  match p.dual with
  | .ok d => decidable_of_iff (Good d) ⟨fun good _ same => Except.ok.inj same ▸ good,
      fun all => all d rfl⟩
  | .error _ => isTrue nofun

/-- A problem with rows of every sense and costs of both signs, one of its
right hand sides negative. -/
def mixedProblem : Problem ℚ 4 3 where
  objective := #[3, 2, -1].toVector
  coefficients := #[#[1, 1, 0].toVector, #[1, -1, 0].toVector, #[-1, 0, 1].toVector,
    #[0, 0, 1].toVector].toVector
  rhs := #[2, 1, -1, 3].toVector
  senses := #[.ge, .eq, .le, .le].toVector
  direction := .minimize
  names := #["x", "y", "z"].toVector
  variables_pos := Nat.succ_pos (nat_lit 2)

/-- Both courses on the mixed problem are sharp, and both end at an optimum with
the objective 5. -/
theorem mixedProblem_consistent :
    0 < 4 ∧ Options.default.validate (K := ℚ) = .ok () ∧
      TwoPhase.SharpCourse mixedProblem Options.default ∧
      (∀ d, mixedProblem.dual = .ok d → TwoPhase.SharpCourse d Options.default) ∧
      ∃ report, analyze mixedProblem Options.default = .ok report ∧
        report.MadeFrom Options.default ∧ report.Consistent ∧
        report.primal.outcome = .optimal ∧ report.dual.outcome = .optimal ∧
        report.primal.objective = some 5 ∧ report.dual.objective = some 5 ∧
        report.gap = some 0 ∧ report.strongDuality = true := by
  have constrained : 0 < 4 := by decide
  have valid : Options.default.validate (K := ℚ) = .ok () := by decide +kernel
  have sharp : TwoPhase.SharpCourse mixedProblem Options.default := by decide +kernel
  have dualSharp : ∀ d, mixedProblem.dual = .ok d → TwoPhase.SharpCourse d Options.default := by
    decide +kernel
  have reported : (analyze mixedProblem Options.default).toOption.map (fun report =>
      (report.primal.outcome, report.dual.outcome, report.primal.objective)) =
    some (.optimal, .optimal, some 5) := by decide +kernel
  rcases analyze_consistent_of_sharp mixedProblem Options.default constrained valid sharp
    dualSharp with ⟨report, analyzed, made, consistent⟩
  rw [analyzed] at reported
  obtain ⟨optimum, dualOptimum, objective⟩ :
      report.primal.outcome = .optimal ∧ report.dual.outcome = .optimal ∧
        report.primal.objective = some 5 := by
    simpa [Except.toOption] using reported
  rcases consistent.objectives optimum dualOptimum with ⟨common, first, second⟩
  rcases consistent.closed optimum dualOptimum with ⟨gap, strong⟩
  have dualObjective : report.dual.objective = some 5 :=
    second.trans (first.symm.trans objective)
  exact ⟨constrained, valid, sharp, dualSharp, report, analyzed, made, consistent, optimum,
    dualOptimum, objective, dualObjective, gap, strong⟩

end Duality
end LinearProgram
