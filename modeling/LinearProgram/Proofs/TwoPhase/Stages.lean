import LinearProgram.Proofs.Report
import LinearProgram.Solver.TwoPhase

namespace LinearProgram
namespace TwoPhase

/-!
# The stages of the method of two phases

Which course the method takes is decided by the way its first phase ends, by
the sum that the phase leaves, and by whether the artificial columns can be
driven out.  Each lemma says what follows from the decisions made so far, in
any arithmetic.
-/

variable {K : Type} [Scalar K] {m n : Nat} {p : Problem K m n} {options : Options K}

/-! ## One row -/

section Rows

variable {pass : Pass p.width} {T : Tableau K m p.width} {row : Fin m}

theorem driveOut_of_other (other : ¬ p.isArtificialColumn T.basis[row] = true) (index : Nat)
    (rows : List (Fin m)) :
    driveOut p pass index T (row :: rows) = driveOut p pass index T rows := by
  rw [driveOut, if_neg other]

variable (artificial : p.isArtificialColumn T.basis[row] = true)
include artificial

theorem driveOut_of_redundant (nothing : replacement? p T row = none) (index : Nat)
    (rows : List (Fin m)) :
    driveOut p pass index T (row :: rows) =
      .after (.redundant row) (driveOut p pass index T rows) := by
  rw [driveOut, if_pos artificial, nothing]

variable {column : Fin p.width} (found : replacement? p T row = some column) {index : Nat}
include found

theorem driveOut_of_refused {failure : Failure K}
    (refused : pass.pivot T index row column.castSucc = .error failure) (rows : List (Fin m)) :
    driveOut p pass index T (row :: rows) = ⟨some failure, T, []⟩ := by
  rw [driveOut, if_pos artificial, found]
  dsimp only
  rw [refused]

theorem driveOut_of_recorded {step : Step K m p.width}
    (recorded : pass.pivot T index row column.castSucc = .ok step) (rows : List (Fin m)) :
    driveOut p pass index T (row :: rows) =
      .after (.pivoted step) (driveOut p pass (index + 1) step.next rows) := by
  rw [driveOut, if_pos artificial, found]
  dsimp only
  rw [recorded]

end Rows

/-! ## After the first phase -/

/-- What happens to the artificial columns that a first phase leaves in the basis. -/
def cleanupAfter (p : Problem K m n) (options : Options K) (first : Run K m p.width) :
    Cleanup K m p.width :=
  driveOut p (firstPass p options) first.iterations first.final (List.finRange m)

/-- The second phase after a first phase and its cleanup. -/
def secondRunAfter (p : Problem K m n) (options : Options K) (first : Run K m p.width)
    (cleanup : Cleanup K m p.width) : Run K m p.width :=
  (secondPass p options).run (first.iterations + cleanup.steps.length) (secondTableau p cleanup)

section Continue

variable {first : Run K m p.width}

theorem continueFrom_of_large (large : options.epsilon < -first.final.objectiveRhs) :
    continueFrom p options first = .infeasible first (-first.final.objectiveRhs) :=
  if_pos large

variable (small : ¬ options.epsilon < -first.final.objectiveRhs)
include small

theorem continueFrom_of_broken {failure : Failure K}
    (broken : (cleanupAfter p options first).failure? = some failure) :
    continueFrom p options first = .broken first (cleanupAfter p options first) failure := by
  unfold cleanupAfter at broken
  unfold continueFrom
  dsimp only
  rw [if_neg small, broken]
  rfl

theorem continueFrom_of_unbroken (unbroken : (cleanupAfter p options first).failure? = none) :
    continueFrom p options first =
      .completed first (cleanupAfter p options first)
        (secondRunAfter p options first (cleanupAfter p options first)) := by
  unfold cleanupAfter at unbroken
  unfold continueFrom
  dsimp only
  rw [if_neg small, unbroken]
  rfl

end Continue

theorem courseNormalized_of_optimal {first : Run K m p.width}
    (run : (firstPass p options).run 0 (firstTableau p options) = first)
    (ending : first.ending = .ok .optimal) :
    courseNormalized p options = continueFrom p options first := by
  unfold courseNormalized
  dsimp only
  rw [run, ending]

theorem courseNormalized_of_ne_optimal {first : Run K m p.width}
    (run : (firstPass p options).run 0 (firstTableau p options) = first)
    (other : first.ending ≠ .ok .optimal) : courseNormalized p options = .stopped first := by
  unfold courseNormalized
  dsimp only
  rw [run]
  cases ending : first.ending with
  | error failure => rfl
  | ok termination =>
    cases termination with
    | optimal => exact absurd ending other
    | _ => rfl

/-- The parts of a course that reaches the second phase. -/
theorem parts_of_completed {first second : Run K m p.width} {between : Cleanup K m p.width}
    (reached : courseNormalized p options = .completed first between second) :
    (firstPass p options).run 0 (firstTableau p options) = first ∧
      between = cleanupAfter p options first ∧ second = secondRunAfter p options first between := by
  obtain ⟨run, begun⟩ : ∃ run, (firstPass p options).run 0 (firstTableau p options) = run :=
    ⟨_, rfl⟩
  by_cases optimum : run.ending = .ok .optimal
  · rw [courseNormalized_of_optimal begun optimum] at reached
    by_cases large : options.epsilon < -run.final.objectiveRhs
    · rw [continueFrom_of_large large] at reached
      exact nomatch reached
    · cases broken : (cleanupAfter p options run).failure? with
      | some failure =>
        rw [continueFrom_of_broken large broken] at reached
        exact nomatch reached
      | none =>
        rw [continueFrom_of_unbroken large broken] at reached
        cases reached
        exact ⟨begun, rfl, rfl⟩
  · rw [courseNormalized_of_ne_optimal begun optimum] at reached
    exact nomatch reached

/-! ## Reports -/

theorem report_stopped (p : Problem K m n) (first : Run K m p.width) :
    report p (.stopped first) =
      Solution.ofRun p (fun _ => Termination.outcome) [] (fun count => some ⟨count, 0⟩) first :=
  rfl

theorem report_completed (p : Problem K m n) (first : Run K m p.width)
    (cleanup : Cleanup K m p.width) (second : Run K m p.width) :
    report p (.completed first cleanup second) =
      Solution.ofRun p (fun _ => Termination.outcome) (first.steps ++ cleanup.steps)
        (fun count => some ⟨first.iterations + cleanup.steps.length, count⟩) second :=
  rfl

/-- A report of the method shows the last tableau of its first phase, or that of its second. -/
theorem report_cases {first : Run K m p.width}
    (run : (firstPass p options).run 0 (firstTableau p options) = first) {solution : Solution K}
    (reported : report p (courseNormalized p options) = .ok solution) :
    (∃ outcome, Solution.ofTableau p first.final outcome first.steps
        (some ⟨first.iterations, 0⟩) = .ok solution) ∨
      ∃ outcome cleanup second, cleanup = cleanupAfter p options first ∧
        second = secondRunAfter p options first cleanup ∧
        Solution.ofTableau p second.final outcome (first.steps ++ cleanup.steps ++ second.steps)
          (some ⟨first.iterations + cleanup.steps.length, second.iterations⟩) = .ok solution := by
  by_cases optimum : first.ending = .ok .optimal
  · rw [courseNormalized_of_optimal run optimum] at reported
    by_cases large : options.epsilon < -first.final.objectiveRhs
    · rw [continueFrom_of_large large] at reported
      exact Or.inl ⟨_, reported⟩
    · cases broken : (cleanupAfter p options first).failure? with
      | some failure =>
        rw [continueFrom_of_broken large broken] at reported
        exact nomatch reported
      | none =>
        rw [continueFrom_of_unbroken large broken, report_completed] at reported
        rcases Solution.exists_ofTableau_of_ofRun reported with ⟨outcome, shown⟩
        exact Or.inr ⟨outcome, _, _, rfl, rfl, shown⟩
  · rw [courseNormalized_of_ne_optimal run optimum, report_stopped] at reported
    exact Or.inl (Solution.exists_ofTableau_of_ofRun reported)

theorem solve_eq (p : Problem K m n) (options : Options K) :
    solve p options = Failure.guarded options.validate
      (report p.normalized (courseNormalized p.normalized options)) :=
  rfl

/-- Every solution reports on one tableau, whichever phase ended with it. -/
theorem exists_ofTableau_of_solve {solution : Solution K}
    (solved : solve p options = .ok solution) : ∃ T steps phases,
      Solution.ofTableau p.normalized T solution.outcome steps phases = .ok solution := by
  rw [solve_eq] at solved
  rcases report_cases rfl (Failure.guarded_eq_ok_iff.mp solved).2 with
    ⟨outcome, reported⟩ | ⟨outcome, _, _, _, _, reported⟩
  · cases Solution.outcome_of_ofTableau reported
    exact ⟨_, _, _, reported⟩
  · cases Solution.outcome_of_ofTableau reported
    exact ⟨_, _, _, reported⟩

end TwoPhase
end LinearProgram
