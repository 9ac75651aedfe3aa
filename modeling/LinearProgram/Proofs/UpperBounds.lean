import LinearProgram.Proofs.Options
import LinearProgram.Proofs.Simplex.Record
import LinearProgram.Proofs.Signs
import LinearProgram.Proofs.Tableau.Pricing
import LinearProgram.Solver.BigM
import LinearProgram.Solver.Plain
import LinearProgram.Solver.TwoPhase

namespace LinearProgram

/-!
# Problems of upper bounds

A problem whose rows are all upper bounds with nonnegative right hand sides has
no artificial column.  A penalty on artificial columns then changes no cost,
the first phase of the method of two phases has nothing to minimize and stops
at once, and its second phase starts from the tableau that the plain method
starts from.  So the three methods make the same pivots, number for number, in
every arithmetic in which signs behave.
-/

variable {K : Type}

/-! ## The same pivots in another phase -/

/-- The record of the same pivot as part of another phase. -/
def Step.inPhase {m N : Nat} (phase : Phase) (step : Step K m N) : Step K m N :=
  { step with phase }

/-- The report of the same pivot as part of another phase. -/
def StepReport.inPhase (phase : Phase) (report : StepReport K) : StepReport K :=
  { report with phase }

/-- The same run in another phase. -/
def Run.inPhase {m N : Nat} (phase : Phase) (run : Run K m N) : Run K m N :=
  { run with steps := run.steps.map (Step.inPhase phase) }

/-- The report on the same pivots, all of them made in the second of two phases. -/
def Solution.inSecondPhase (solution : Solution K) : Solution K :=
  { solution with
    trace := solution.trace.map (StepReport.inPhase .two)
    phases := some ⟨0, solution.iterations⟩ }

variable [Scalar K]

section InPhase

variable {m N : Nat}

theorem Pass.pivot_inPhase (pass : Pass N) (phase : Phase) (T : Tableau K m N) (index : Nat)
    (row : Fin m) (column : Fin (N + 1)) :
    ({ pass with phase } : Pass N).pivot T index row column =
      (pass.pivot T index row column).map (Step.inPhase phase) := by
  unfold Pass.pivot
  cases T.pivot row column with
  | error cause => rfl
  | ok answer =>
    cases Tableau.index? N column with
    | none => rfl
    | some entering =>
      cases Tableau.index? N T.basis[row] with
      | none => rfl
      | some leaving => rfl

/-- The phase of a pass shows in the records of its pivots and nowhere else. -/
theorem Pass.runFrom_inPhase (pass : Pass N) (phase : Phase) (index : Nat) (T : Tableau K m N)
    (cap : Nat) :
    ({ pass with phase } : Pass N).runFrom index T cap =
      (pass.runFrom index T cap).inPhase phase := by
  induction cap generalizing index T with
  | zero =>
    rw [runFrom, runFrom]
    cases T.entering? pass.allowed with
    | none => rfl
    | some column => rfl
  | succ remaining ih =>
    rw [runFrom, runFrom]
    cases T.entering? pass.allowed with
    | none => rfl
    | some column =>
      dsimp only
      cases T.leaving? column.castSucc with
      | none => rfl
      | some row =>
        dsimp only
        rw [pivot_inPhase]
        cases pass.pivot T index row column.castSucc with
        | error failure => rfl
        | ok step => exact congrArg (Run.after (step.inPhase phase)) (ih (index + 1) step.next)

theorem Solution.ofTableau_inPhase {n : Nat} (p : Problem K m n) (T : Tableau K m p.width)
    (outcome : Outcome) (steps : List (Step K m p.width)) :
    ofTableau p T outcome (steps.map (Step.inPhase .two)) (some ⟨0, steps.length⟩) =
      (ofTableau p T outcome steps none).map inSecondPhase := by
  have reports : (steps.map (Step.inPhase .two)).map (Step.report p.columnNames) =
      (steps.map (Step.report p.columnNames)).map (StepReport.inPhase .two) := by
    simp only [List.map_map]
    rfl
  unfold ofTableau
  cases T.basicColumns? with
  | none => rfl
  | some columns =>
    cases T.columnValues? with
    | none => rfl
    | some values =>
      simp only [reports, Failure.ofOption, bind, Except.bind, pure, Except.pure, Except.map,
        inSecondPhase, iterations, List.length_map]

end InPhase

/-! ## Objectives under which the basis costs nothing -/

namespace Tableau

variable {m N : Nat}

/-- Where no basic column costs anything, nothing is priced out. -/
theorem objectiveRow_of_free (T : Tableau K m N) {costs : Vector K N}
    (free : ∀ row : Fin m, Scalar.isZero (costOf costs T.basis[row]) = true) :
    T.objectiveRow costs = rawObjective costs := by
  have kept : ∀ (rows : List (Fin m)) (z : Vector K (N + 1)),
      rows.foldl (T.priceOut costs) z = z := by
    intro rows
    induction rows with
    | nil => exact fun _ => rfl
    | cons row rest ih =>
      intro z
      have same : T.priceOut costs z row = z := if_pos (free row)
      rw [List.foldl_cons, same]
      exact ih z
  exact kept (List.finRange m) (rawObjective costs)

section Free

variable {T : Tableau K m N} {costs : Vector K N}
  (free : ∀ row : Fin m, Scalar.isZero (costOf costs T.basis[row]) = true)
include free

theorem reducedCost_loadObjective_of_free (j : Fin N) :
    (T.loadObjective costs).reducedCost j = -costs[j] := by
  simp [loadObjective, objectiveRow_of_free T free, reducedCost, cell, rawObjective]

theorem objectiveRhs_loadObjective_of_free : (T.loadObjective costs).objectiveRhs = 0 := by
  simp [loadObjective, objectiveRow_of_free T free, objectiveRhs, cell, rawObjective]

end Free

end Tableau

/-! ## Problems without artificial columns -/

namespace Problem

variable {m n : Nat} {p : Problem K m n} (upper : ∀ row : Fin m, p.senses[row] = .le)
include upper

section Columns

omit [Scalar K]

theorem isArtificial_of_upper (j : Fin p.width) : p.tags[j].isArtificial = false := by
  have listed : p.tags[j] ∈ p.tagList := List.getElem_mem j.isLt
  rcases List.mem_append.mp listed with decision | auxiliary
  · rcases List.mem_map.mp decision with ⟨k, _, same⟩
    rw [← same]
    rfl
  · rcases List.mem_flatMap.mp auxiliary with ⟨row, _, member⟩
    rw [rowTags, upper row] at member
    rw [List.mem_singleton.mp member]
    rfl

theorem isArtificialColumn_of_upper (column : Fin (p.width + 1)) :
    p.isArtificialColumn column = false := by
  unfold isArtificialColumn
  split
  · next isColumn => exact isArtificial_of_upper upper ⟨column, isColumn⟩
  · rfl

theorem pass_of_upper (rule : EntryRule) (cap : Nat) (phase : Phase) :
    p.pass rule cap phase = p.pass .anyColumn cap phase := by
  have allowed : ∀ j : Fin p.width, rule.allows p.tags[j] = true := by
    intro j
    cases rule with
    | anyColumn => rfl
    | skipArtificial => rw [EntryRule.allows, isArtificial_of_upper upper, Bool.not_false]
  unfold pass
  simp only [allowed]
  rfl

end Columns

theorem costs_of_upper {mode : ObjectiveMode K} {f : ColumnTag m n → K}
    (same : ∀ tag : ColumnTag m n, tag.isArtificial = false → p.cost mode tag = f tag) :
    p.costs mode = p.tags.map f := by
  apply Vector.ext
  intro j bound
  rw [costs, Vector.getElem_map, Vector.getElem_map]
  exact same _ (isArtificial_of_upper upper ⟨j, bound⟩)

theorem costs_bigM_of_upper (penalty : K) : p.costs (.bigM penalty) = p.costs .plain := by
  refine costs_of_upper upper fun tag other => ?_
  cases tag with
  | artificial row => exact nomatch other
  | _ => rfl

theorem getElem_costs_phaseOne_of_upper (j : Fin p.width) : (p.costs .phaseOne)[j] = 0 := by
  have free : p.costs .phaseOne = p.tags.map fun _ => (0 : K) := by
    refine costs_of_upper upper fun tag other => ?_
    cases tag with
    | artificial row => exact nomatch other
    | _ => rfl
  rw [free, getElem_fin, Vector.getElem_map]

theorem costOf_phaseOne_of_upper (column : Fin (p.width + 1)) :
    Tableau.costOf (p.costs .phaseOne) column = 0 := by
  unfold Tableau.costOf
  split
  · next isColumn => exact getElem_costs_phaseOne_of_upper upper ⟨column, isColumn⟩
  · rfl

end Problem

theorem Problem.normalized_of_nonneg {m n : Nat} {p : Problem K m n}
    (feasible : ∀ row : Fin m, 0 ≤ p.rhs[row]) : p.normalized = p := by
  unfold normalized
  simp only [feasible, if_true]
  simp

/-! ## The three methods -/

section Methods

variable {m n : Nat} {p : Problem K m n} (upper : ∀ row : Fin m, p.senses[row] = .le)
include upper

theorem BigM.run_of_upper (options : Options K) :
    BigM.runNormalized p options = (Plain.pass p options).run 0 (Plain.startTableau p options) := by
  have start : BigM.startTableau p options = Plain.startTableau p options := by
    simp only [BigM.startTableau, Plain.startTableau, Problem.tableau,
      Problem.costs_bigM_of_upper upper]
  rw [BigM.runNormalized, start, BigM.pass, Problem.pass_of_upper upper]
  rfl

theorem BigM.outcome_of_upper (T : Tableau K m p.width) (termination : Termination p.width) :
    BigM.outcome p T termination = termination.outcome := by
  have none : BigM.positiveArtificial? p T = none := by
    refine List.find?_eq_none.mpr fun row _ => ?_
    rw [Problem.isArtificialColumn_of_upper upper, Bool.false_and]
    exact Bool.false_ne_true
  cases termination with
  | optimal => rw [BigM.outcome, none]; rfl
  | _ => rfl

/-- Without artificial columns there is nothing to drive out. -/
theorem TwoPhase.driveOut_of_upper (pass : Pass p.width) (index : Nat) (T : Tableau K m p.width)
    (rows : List (Fin m)) : TwoPhase.driveOut p pass index T rows = ⟨none, T, []⟩ := by
  induction rows with
  | nil => rfl
  | cons row rest ih =>
    rw [TwoPhase.driveOut, Problem.isArtificialColumn_of_upper upper]
    exact ih

theorem TwoPhase.secondRun_of_upper (options : Options K) (index : Nat) (T : Tableau K m p.width) :
    (TwoPhase.secondPass p options).run index T =
      ((Plain.pass p options).run index T).inPhase .two := by
  have same : TwoPhase.secondPass p options = { Plain.pass p options with phase := .two } :=
    Problem.pass_of_upper upper _ _ _
  rw [same]
  exact Pass.runFrom_inPhase _ _ _ _ _

variable [SignLaws K] {options : Options K} (positive : 0 < options.epsilon)

omit upper in
theorem Plain.run_of_upper (upper : ∀ row : Fin m, p.senses[row] = .le)
    (feasible : ∀ row : Fin m, 0 ≤ p.rhs[row]) (valid : options.validate = .ok ()) :
    Plain.run p options = .ok ((Plain.pass p options).run 0 (Plain.startTableau p options)) := by
  have senses : Plain.checkSenses p = .ok () := by
    have none : ((List.finRange m).find? fun row => p.senses[row] ≠ .le) = none := by
      simpa using upper
    unfold Plain.checkSenses
    rw [none]
  have rhs : Plain.checkRhs p = .ok () := by
    have none : ((List.finRange m).find? fun row => p.rhs[row] < 0) = none := by
      simpa using fun row => SignLaws.not_neg_of_nonneg (feasible row)
    unfold Plain.checkRhs
    rw [none]
  rw [Plain.run, valid, senses, rhs]
  rfl

include positive

/-- The first phase has nothing to minimize: it stops at once, with a sum of zero. -/
theorem TwoPhase.firstRun_of_upper :
    (TwoPhase.firstPass p options).run 0 (TwoPhase.firstTableau p options) =
        .ended (.ok .optimal) (TwoPhase.firstTableau p options) ∧
      ¬ options.epsilon < -(TwoPhase.firstTableau p options).objectiveRhs := by
  let bare : Tableau K m p.width := {
    cells := p.equations
    basis := p.initialBasis.map Fin.castSucc
    epsilon := options.epsilon }
  have free : ∀ row : Fin m,
      Scalar.isZero (Tableau.costOf (p.costs .phaseOne) bare.basis[row]) = true := by
    intro row
    rw [Problem.costOf_phaseOne_of_upper upper]
    exact SignLaws.isZero_zero
  have reduced : ∀ j : Fin p.width, (TwoPhase.firstTableau p options).reducedCost j = -0 := by
    intro j
    rw [← Problem.getElem_costs_phaseOne_of_upper upper j]
    exact Tableau.reducedCost_loadObjective_of_free free j
  have corner : (TwoPhase.firstTableau p options).objectiveRhs = 0 :=
    Tableau.objectiveRhs_loadObjective_of_free free
  have nothing : (TwoPhase.firstTableau p options).entering?
      (TwoPhase.firstPass p options).allowed = none := by
    have empty : (TwoPhase.firstTableau p options).improvingColumns
        (TwoPhase.firstPass p options).allowed = [] := by
      refine List.filter_eq_nil_iff.mpr fun j _ => ?_
      have above : -(TwoPhase.firstTableau p options).epsilon ≤
          (TwoPhase.firstTableau p options).reducedCost j := by
        rw [reduced]
        exact SignLaws.neg_le_neg_zero positive
      simp [above]
    rw [Tableau.entering?, empty]
    rfl
  refine ⟨Pass.runFrom_of_entering?_eq_none nothing _, ?_⟩
  rw [corner]
  exact SignLaws.not_lt_neg_zero positive

/-- The second phase makes the run of the plain method, and nothing happens before it. -/
theorem TwoPhase.courseNormalized_of_upper :
    TwoPhase.courseNormalized p options =
      .completed (.ended (.ok .optimal) (TwoPhase.firstTableau p options))
        ⟨none, TwoPhase.firstTableau p options, []⟩
        (((Plain.pass p options).run 0 (Plain.startTableau p options)).inPhase .two) := by
  rcases TwoPhase.firstRun_of_upper upper positive with ⟨first, small⟩
  have second : TwoPhase.secondTableau p ⟨none, TwoPhase.firstTableau p options, []⟩ =
      Plain.startTableau p options := Tableau.loadObjective_loadObjective _ _ _
  unfold TwoPhase.courseNormalized
  rw [first]
  unfold TwoPhase.continueFrom
  dsimp only [Run.ended]
  rw [if_neg small, TwoPhase.driveOut_of_upper upper]
  dsimp only [Cleanup.steps]
  rw [second, TwoPhase.secondRun_of_upper upper]
  rfl

end Methods

/-! ## The same results -/

theorem Plain.solve_bigM {m n : Nat} (p : Problem K m n) {options : Options K} {penalty : K}
    (valid : Options.checkPositive .bigM options.bigM = .ok ())
    (validPenalty : Options.checkPositive .bigM penalty = .ok ()) :
    Plain.solve p { options with bigM := penalty } = Plain.solve p options := by
  unfold Plain.solve Plain.run
  rw [Options.validate_bigM valid validPenalty]
  rfl

/-- After a first phase and a cleanup without pivots, the report is the one on
the second run alone, up to the phase that the pivots are counted in. -/
theorem TwoPhase.report_completed_inPhase {m n : Nat} (p : Problem K m n)
    (T : Tableau K m p.width) (run : Run K m p.width) :
    TwoPhase.report p (.completed (.ended (.ok .optimal) T) ⟨none, T, []⟩ (run.inPhase .two)) =
      (do
        let termination ← run.ending
        Solution.ofTableau p run.final termination.outcome run.steps none).map
          Solution.inSecondPhase := by
  have counted : (run.inPhase .two).iterations = run.steps.length := List.length_map _
  unfold TwoPhase.report
  dsimp only [Run.inPhase] at counted ⊢
  cases run.ending with
  | error failure => rfl
  | ok termination =>
    dsimp only [bind, Except.bind, Run.ended, Cleanup.steps, Run.iterations] at counted ⊢
    rw [counted]
    exact Solution.ofTableau_inPhase p run.final termination.outcome run.steps

section Agreement

variable [SignLaws K] {m n : Nat} {p : Problem K m n}
  (upper : ∀ row : Fin m, p.senses[row] = .le) (feasible : ∀ row : Fin m, 0 ≤ p.rhs[row])
  (options : Options K)
include upper feasible

theorem BigM.solve_of_upper : BigM.solve p options = Plain.solve p options := by
  unfold BigM.solve Plain.solve
  cases valid : options.validate with
  | error cause =>
    rw [Plain.run, valid]
    rfl
  | ok _ =>
    rw [Plain.run_of_upper upper feasible valid, Problem.normalized_of_nonneg feasible]
    dsimp only
    rw [BigM.run_of_upper upper]
    simp only [BigM.outcome_of_upper upper]
    rfl

theorem TwoPhase.solve_of_upper :
    TwoPhase.solve p options = (Plain.solve p options).map Solution.inSecondPhase := by
  unfold TwoPhase.solve Plain.solve
  cases valid : options.validate with
  | error cause =>
    rw [Plain.run, valid]
    rfl
  | ok _ =>
    have positive := (Options.validate_eq_ok valid).1
    rw [Plain.run_of_upper upper feasible valid, Problem.normalized_of_nonneg feasible,
      TwoPhase.courseNormalized_of_upper upper positive]
    exact TwoPhase.report_completed_inPhase p _ _

end Agreement

/-- **The three methods agree on upper bounds.**  On a problem whose rows are
all upper bounds with nonnegative right hand sides, the method of penalties
gives the result of the plain method, error or solution, under every penalty,
and the method of two phases gives it with all pivots in the second phase. -/
theorem solvers_agree_on_upperBounds [SignLaws K] {m n : Nat} (p : Problem K m n)
    (upper : ∀ row : Fin m, p.senses[row] = .le) (feasible : ∀ row : Fin m, 0 ≤ p.rhs[row])
    (options : Options K) :
    BigM.solve p options = Plain.solve p options ∧
      (∀ penalty : K, Options.checkPositive .bigM options.bigM = .ok () →
        Options.checkPositive .bigM penalty = .ok () →
        BigM.solve p { options with bigM := penalty } = Plain.solve p options) ∧
      TwoPhase.solve p options = (Plain.solve p options).map Solution.inSecondPhase := by
  refine ⟨BigM.solve_of_upper upper feasible options, fun penalty valid validPenalty => ?_,
    TwoPhase.solve_of_upper upper feasible options⟩
  rw [BigM.solve_of_upper upper feasible, Plain.solve_bigM p valid validPenalty]

/-- A problem with a bound of zero and numbers that binary arithmetic rounds. -/
def roundedProblem : Problem Float 2 2 where
  objective := #[3.0, 0.1].toVector
  coefficients := #[#[1.0, -1.0].toVector, #[0.3, 3.0].toVector].toVector
  rhs := #[0.0, 7.0].toVector
  senses := #[.le, .le].toVector
  direction := .maximize
  names := #["x", "y"].toVector
  variables_pos := Nat.zero_lt_two

theorem solvers_agree_on_roundedProblem :
    (∀ row : Fin 2, roundedProblem.senses[row] = .le) ∧
      (∀ row : Fin 2, 0 ≤ roundedProblem.rhs[row]) ∧
      (Plain.solve roundedProblem .default).toOption.map Solution.iterations = some 2 ∧
      BigM.solve roundedProblem .default = Plain.solve roundedProblem .default ∧
      BigM.solve roundedProblem { Options.default with bigM := 7.0 } =
        Plain.solve roundedProblem .default ∧
      TwoPhase.solve roundedProblem .default =
        (Plain.solve roundedProblem .default).map Solution.inSecondPhase := by
  have upper : ∀ row : Fin 2, roundedProblem.senses[row] = .le := by decide +kernel
  have feasible : ∀ row : Fin 2, 0 ≤ roundedProblem.rhs[row] := by decide +kernel
  have pivots : (Plain.solve roundedProblem .default).toOption.map Solution.iterations =
      some 2 := by decide +kernel
  have valid : Options.checkPositive .bigM (Options.default : Options Float).bigM = .ok () :=
    if_pos (by decide +kernel)
  have validPenalty : Options.checkPositive .bigM (7.0 : Float) = .ok () :=
    if_pos (by decide +kernel)
  rcases solvers_agree_on_upperBounds roundedProblem upper feasible .default with
    ⟨penalized, anyPenalty, twoPhases⟩
  exact ⟨upper, feasible, pivots, penalized, anyPenalty _ valid validPenalty, twoPhases⟩

end LinearProgram
