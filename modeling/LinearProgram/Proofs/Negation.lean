import LinearProgram.Proofs.SingleRun
import LinearProgram.Proofs.TwoPhase.Stages

namespace LinearProgram

/-!
# A maximum and the minimum of the negation

A problem and its negation have the same rows and the same objective in the
direction in which larger is better.  Every method sees the objective in that
direction only, from the first tableau to the costs that a second phase is
given, so it makes the same pivots on both problems.  The direction shows once
more at the end, where the objective of an optimum is computed from the
coefficients as they were given.
-/

/-- The report with the negated objective. -/
def Solution.negated {K : Type} [Scalar K] (solution : Solution K) : Solution K :=
  { solution with objective := solution.objective.map (- ·) }

theorem Direction.orient_opposite_neg (direction : Direction) (value : ℚ) :
    direction.opposite.orient (-value) = direction.orient value := by
  cases direction with
  | maximize => exact neg_neg value
  | minimize => rfl

variable {m n : Nat}

namespace Problem

variable (p : Problem ℚ m n)

theorem objectiveValue_negated (x : List ℚ) :
    p.negated.objectiveValue x = -p.objectiveValue x := by
  unfold objectiveValue negated
  rw [Vector.toList_map, Scalar.dot_map_neg]

theorem normalized_negated : p.negated.normalized = p.normalized.negated := rfl

theorem cost_negated (mode : ObjectiveMode ℚ) (tag : ColumnTag m n) :
    p.negated.cost mode tag = p.cost mode tag := by
  have decision : ∀ k : Fin n, p.negated.direction.orient p.negated.objective[k] =
      p.direction.orient p.objective[k] := by
    intro k
    simp only [negated, getElem_fin, Vector.getElem_map]
    exact p.direction.orient_opposite_neg _
  cases tag with
  | decision k =>
    cases mode with
    | phaseOne => rfl
    | _ => exact decision k
  | _ => cases mode <;> rfl

theorem costs_negated (mode : ObjectiveMode ℚ) : p.negated.costs mode = p.costs mode := by
  apply Vector.ext
  intro j bound
  exact (Vector.getElem_map _ _).trans ((p.cost_negated mode _).trans (Vector.getElem_map _ _).symm)

theorem tableau_negated (mode : ObjectiveMode ℚ) (epsilon : ℚ) :
    p.negated.tableau mode epsilon = p.tableau mode epsilon := by
  unfold tableau
  rw [costs_negated]
  rfl

end Problem

/-! ## Reports -/

namespace Solution

variable (p : Problem ℚ m n)

theorem onBasis_negated (T : Tableau ℚ m p.width) (outcome : Outcome)
    (steps : List (Step ℚ m p.width)) (phases : Option PhaseCounts)
    (columns : List (Fin p.width)) :
    onBasis p.negated T outcome steps phases columns =
      (onBasis p T outcome steps phases columns).negated := by
  let values : List ℚ := ((List.finRange p.width).map T.columnValue).take n
  have objective : (if outcome = .optimal then some (p.negated.objectiveValue values) else none) =
      Option.map (- ·) (if outcome = .optimal then some (p.objectiveValue values) else none) := by
    rw [p.objectiveValue_negated]
    split <;> rfl
  exact congrArg (fun value => { onBasis p T outcome steps phases columns with objective := value })
    objective

/-- A report on the negated problem differs in the objective only. -/
theorem ofTableau_negated (T : Tableau ℚ m p.width) (outcome : Outcome)
    (steps : List (Step ℚ m p.width)) (phases : Option PhaseCounts) :
    ofTableau p.negated T outcome steps phases =
      (ofTableau p T outcome steps phases).map negated := by
  have found : ∀ basis : Option (List (Fin p.width)),
      (Failure.ofOption (K := ℚ) basis).map (onBasis p.negated T outcome steps phases) =
        ((Failure.ofOption basis).map (onBasis p T outcome steps phases)).map negated := by
    intro basis
    cases basis with
    | none => rfl
    | some columns => exact congrArg Except.ok (onBasis_negated p T outcome steps phases columns)
  rw [ofTableau_eq p]
  exact (ofTableau_eq p.negated T outcome steps phases).trans (found T.basicColumns?)

theorem ofRun_negated (outcome : Tableau ℚ m p.width → Termination p.width → Outcome)
    (earlier : List (Step ℚ m p.width)) (phases : Nat → Option PhaseCounts)
    (run : Run ℚ m p.width) :
    ofRun p.negated outcome earlier phases run =
      (ofRun p outcome earlier phases run).map negated := by
  cases ending : run.ending with
  | error failure =>
    unfold ofRun
    rw [ending]
    rfl
  | ok termination =>
    rw [ofRun_eq ending]
    exact (ofRun_eq (p := p.negated) ending).trans (ofTableau_negated p _ _ _ _)

end Solution

/-! ## The three methods -/

theorem Plain.report_negated (p : Problem ℚ m n) (options : Options ℚ) :
    report p.negated options = (report p options).map Solution.negated := by
  have start : startTableau p.negated options = startTableau p options :=
    p.tableau_negated .plain options.epsilon
  unfold report
  rw [start]
  exact Solution.ofRun_negated p (fun _ => Termination.outcome) [] (fun _ => none)
    ((pass p options).run 0 (startTableau p options))

theorem Plain.solve_negated (p : Problem ℚ m n) (options : Options ℚ) :
    solve p.negated options = (solve p options).map Solution.negated := by
  rw [solve_eq, solve_eq, Failure.map_guarded, report_negated]
  rfl

namespace BigM

theorem runNormalized_negated (p : Problem ℚ m n) (options : Options ℚ) :
    runNormalized p.negated options = runNormalized p options := by
  have start : startTableau p.negated options = startTableau p options :=
    p.tableau_negated (.bigM options.bigM) options.epsilon
  unfold runNormalized
  rw [start]
  rfl

theorem outcome_negated (p : Problem ℚ m n) (T : Tableau ℚ m p.width)
    (termination : Termination p.width) :
    outcome p.negated T termination = outcome p T termination := by
  cases termination <;> rfl

theorem report_negated (p : Problem ℚ m n) (options : Options ℚ) :
    report p.negated options = (report p options).map Solution.negated := by
  have read : outcome p.negated = outcome p := funext₂ (outcome_negated p)
  unfold report
  rw [read, runNormalized_negated]
  exact Solution.ofRun_negated p (outcome p) [] (fun _ => none) (runNormalized p options)

theorem solve_negated (p : Problem ℚ m n) (options : Options ℚ) :
    solve p.negated options = (solve p options).map Solution.negated := by
  rw [solve_eq, solve_eq, p.normalized_negated, report_negated, Failure.map_guarded]

end BigM

namespace TwoPhase

theorem driveOut_negated (p : Problem ℚ m n) (pass : Pass p.width) (index : Nat)
    (T : Tableau ℚ m p.width) (rows : List (Fin m)) :
    driveOut p.negated pass index T rows = driveOut p pass index T rows := by
  fun_induction driveOut p pass index T rows with
  | case1 index T => rfl
  | case2 index T row rows artificial nothing ih =>
    exact (driveOut_of_redundant (p := p.negated) artificial nothing index rows).trans
      (congrArg (Cleanup.after (.redundant row)) ih)
  | case3 index T row rows artificial column found failure refused =>
    exact driveOut_of_refused (p := p.negated) artificial found refused rows
  | case4 index T row rows artificial column found step recorded ih =>
    exact (driveOut_of_recorded (p := p.negated) artificial found recorded rows).trans
      (congrArg (Cleanup.after (.pivoted step)) ih)
  | case5 index T row rows other ih =>
    exact (driveOut_of_other (p := p.negated) other index rows).trans ih

theorem secondRunAfter_negated (p : Problem ℚ m n) (options : Options ℚ)
    (first : Run ℚ m p.width) (cleanup : Cleanup ℚ m p.width) :
    secondRunAfter p.negated options first cleanup = secondRunAfter p options first cleanup := by
  have start : secondTableau p.negated cleanup = secondTableau p cleanup :=
    congrArg cleanup.final.loadObjective (p.costs_negated .plain)
  exact congrArg ((secondPass p options).run (first.iterations + cleanup.steps.length)) start

theorem courseNormalized_negated (p : Problem ℚ m n) (options : Options ℚ) :
    courseNormalized p.negated options = courseNormalized p options := by
  have start : firstTableau p.negated options = firstTableau p options :=
    p.tableau_negated .phaseOne options.epsilon
  obtain ⟨first, run⟩ : ∃ first, (firstPass p options).run 0 (firstTableau p options) = first :=
    ⟨_, rfl⟩
  have again : (firstPass p.negated options).run 0 (firstTableau p.negated options) = first :=
    (congrArg ((firstPass p options).run 0) start).trans run
  have cleaned : cleanupAfter p.negated options first = cleanupAfter p options first :=
    driveOut_negated p (firstPass p options) _ _ _
  by_cases optimum : first.ending = .ok .optimal
  · rw [courseNormalized_of_optimal run optimum]
    refine (courseNormalized_of_optimal again optimum).trans ?_
    by_cases large : options.epsilon < -first.final.objectiveRhs
    · rw [continueFrom_of_large large]
      exact continueFrom_of_large (p := p.negated) large
    · cases broken : (cleanupAfter p options first).failure? with
      | none =>
        rw [continueFrom_of_unbroken large broken]
        refine (continueFrom_of_unbroken (p := p.negated) large ?_).trans ?_
        · rw [cleaned]
          exact broken
        · have second := secondRunAfter_negated p options first (cleanupAfter p options first)
          rw [← cleaned] at second ⊢
          exact congrArg (Course.completed first (cleanupAfter p.negated options first)) second
      | some failure =>
        rw [continueFrom_of_broken large broken, ← cleaned]
        exact continueFrom_of_broken (p := p.negated) large (cleaned ▸ broken)
  · rw [courseNormalized_of_ne_optimal run optimum]
    exact courseNormalized_of_ne_optimal again optimum

theorem report_negated (p : Problem ℚ m n) (course : Course ℚ m p.width) :
    report p.negated course = (report p course).map Solution.negated := by
  cases course with
  | stopped first =>
    exact Solution.ofRun_negated p (fun _ => Termination.outcome) [] (fun count => some ⟨count, 0⟩)
      first
  | infeasible first sum => exact Solution.ofTableau_negated p first.final _ first.steps _
  | broken first cleanup failure => rfl
  | completed first cleanup second =>
    exact Solution.ofRun_negated p (fun _ => Termination.outcome) (first.steps ++ cleanup.steps)
      (fun count => some ⟨first.iterations + cleanup.steps.length, count⟩) second

theorem solve_negated (p : Problem ℚ m n) (options : Options ℚ) :
    solve p.negated options = (solve p options).map Solution.negated := by
  rw [solve_eq, solve_eq, p.normalized_negated, courseNormalized_negated, report_negated,
    Failure.map_guarded]

end TwoPhase

/-- **Each method treats a problem and its negation alike.**  It fails on both
in the same way, or its two reports differ in the objective alone, which has
the opposite sign. -/
theorem solvers_negated (p : Problem ℚ m n) (options : Options ℚ) :
    Plain.solve p.negated options = (Plain.solve p options).map Solution.negated ∧
      BigM.solve p.negated options = (BigM.solve p options).map Solution.negated ∧
      TwoPhase.solve p.negated options = (TwoPhase.solve p options).map Solution.negated :=
  ⟨Plain.solve_negated p options, BigM.solve_negated p options, TwoPhase.solve_negated p options⟩

end LinearProgram
