import LinearProgram.Proofs.Options
import LinearProgram.Proofs.Report
import LinearProgram.Proofs.TwoPhase.Artificials
import LinearProgram.Proofs.TwoPhase.Stages

namespace LinearProgram

/-!
# The courses that the method of two phases can take

With valid options a run of the method ends in one of three ways: the first
phase stops short of an optimum, or it keeps an artificial sum above the
tolerance, or the second phase is run.  In each case there is a report, and it
is the report on the last tableau.
-/

namespace TwoPhase

variable {m n : Nat} (p : Problem ℚ m n) (options : Options ℚ)

/-! ## The parts of a course -/

def firstRun : Run ℚ m p.width :=
  (firstPass p options).run 0 (firstTableau p options)

/-- What happened to the artificial columns that the first phase left in the basis. -/
def cleanup : Cleanup ℚ m p.width :=
  driveOut p (firstPass p options) (firstRun p options).iterations (firstRun p options).final
    (List.finRange m)

/-- The tableaus between the two phases, the last one of the first phase included. -/
def cleanupTableaus : List (Tableau ℚ m p.width) :=
  (firstRun p options).final :: (cleanup p options).steps.map Step.next

def secondRun : Run ℚ m p.width :=
  (secondPass p options).run
    ((firstRun p options).iterations + (cleanup p options).steps.length)
    (secondTableau p (cleanup p options))

/-- Every tableau that the method passes through on a problem is sharp. -/
def SharpCourse : Prop :=
  ∀ T ∈ tableaus p.normalized options (courseNormalized p.normalized options), T.Sharp

instance : Decidable (SharpCourse p options) :=
  inferInstanceAs (Decidable (∀ T ∈ tableaus p.normalized options
    (courseNormalized p.normalized options), T.Sharp))

/-! ## The first phase -/

variable {p options}

theorem canonical_firstTableau : (firstTableau p options).Canonical :=
  p.canonical_tableau .phaseOne options.epsilon

theorem firstRun_final_mem :
    (firstRun p options).final ∈ (firstRun p options).tableaus (firstTableau p options) :=
  (firstPass p options).final_mem_tableaus 0 (firstTableau p options) options.maxIterations

theorem represents_firstRun (positive : 0 < options.epsilon) :
    ∀ T ∈ (firstRun p options).tableaus (firstTableau p options),
      p.Represents .phaseOne T ∧ T.epsilon = options.epsilon :=
  p.represents_runFrom .phaseOne positive (firstPass p options) 0 options.maxIterations

theorem firstRun_final (positive : 0 < options.epsilon) :
    p.Represents .phaseOne (firstRun p options).final ∧
      (firstRun p options).final.epsilon = options.epsilon :=
  represents_firstRun positive _ firstRun_final_mem

theorem firstRun_ending (positive : 0 < options.epsilon) :
    ∃ termination, (firstRun p options).ending = .ok termination ∧
      (firstPass p options).StopsAt (firstRun p options).final termination :=
  (firstPass p options).runFrom_ending canonical_firstTableau positive 0 options.maxIterations

/-! ## Between the phases -/

/-- Driving artificial columns out never fails, and keeps what every replacement keeps. -/
theorem cleanup_invariant (positive : 0 < options.epsilon)
    (Guard : Tableau ℚ m p.width → Prop) (Inv : List (Fin m) → Tableau ℚ m p.width → Prop)
    (passed : ∀ row rows U, Inv (row :: rows) U → p.isArtificialColumn U.basis[row] = false →
      Inv rows U)
    (redundant : ∀ row rows U, Inv (row :: rows) U → Guard U → U.Canonical → 0 < U.epsilon →
      p.isArtificialColumn U.basis[row] = true → replacement? p U row = none → Inv rows U)
    (replaced : ∀ row rows U column, Inv (row :: rows) U → Guard U → Replaces p U row column →
      Inv rows (U.pivoted row column.castSucc))
    (start : Inv (List.finRange m) (firstRun p options).final)
    (guarded : ∀ U ∈ cleanupTableaus p options, Guard U) :
    (cleanup p options).failure? = none ∧ Inv [] (cleanup p options).final ∧
      ∀ U ∈ cleanupTableaus p options, ∃ rest, Inv rest U := by
  rcases firstRun_final (p := p) positive with ⟨represents, same⟩
  exact driveOut_invariant (firstPass p options) Guard Inv passed redundant replaced _ _
    represents.canonical (same ▸ positive) start guarded

theorem cleanup_final (positive : 0 < options.epsilon) :
    (cleanup p options).failure? = none ∧ p.Represents .phaseOne (cleanup p options).final ∧
      (cleanup p options).final.epsilon = options.epsilon := by
  obtain ⟨unbroken, finished, _⟩ := cleanup_invariant (p := p) positive (fun _ => True)
    (fun _ T => p.Represents .phaseOne T ∧ T.epsilon = options.epsilon)
    (fun _ _ _ inv _ => inv) (fun _ _ _ inv _ _ _ _ _ => inv)
    (fun _ _ _ _ inv _ replaces => ⟨inv.1.pivoted replaces.nonzero, inv.2⟩)
    (firstRun_final positive) fun _ _ => trivial
  exact ⟨unbroken, finished⟩

/-! ## The second phase -/

theorem represents_secondTableau (positive : 0 < options.epsilon) :
    p.Represents .plain (secondTableau p (cleanup p options)) ∧
      (secondTableau p (cleanup p options)).epsilon = options.epsilon := by
  rcases cleanup_final (p := p) positive with ⟨_, represents, same⟩
  exact ⟨represents.loadObjective .plain, same⟩

/-- The second phase may let a column enter just when it is not artificial. -/
theorem secondPass_allowed_iff (column : Fin p.width) :
    (secondPass p options).allowed column = true ↔ p.tags[column].isArtificial = false :=
  iff_of_eq (Bool.not_eq_true' p.tags[column].isArtificial)

/-- What every chosen pivot of the second phase keeps holds all along it. -/
theorem secondRun_invariant (positive : 0 < options.epsilon)
    (Guard Inv : Tableau ℚ m p.width → Prop)
    (preserved : ∀ U row column, Inv U → Guard U → (secondPass p options).Chooses U row column →
      Inv (U.pivoted row column.castSucc))
    (start : Inv (secondTableau p (cleanup p options)))
    (guarded : ∀ U ∈ (secondRun p options).tableaus (secondTableau p (cleanup p options)),
      Guard U) :
    ∀ U ∈ (secondRun p options).tableaus (secondTableau p (cleanup p options)), Inv U := by
  rcases represents_secondTableau (p := p) positive with ⟨represents, same⟩
  exact Pass.runFrom_invariant represents.canonical (same ▸ positive) Guard Inv preserved _
    options.maxIterations start guarded

theorem secondRun_final_mem :
    (secondRun p options).final ∈
      (secondRun p options).tableaus (secondTableau p (cleanup p options)) :=
  (secondPass p options).final_mem_tableaus _ (secondTableau p (cleanup p options))
    options.maxIterations

theorem represents_secondRun (positive : 0 < options.epsilon) :
    ∀ T ∈ (secondRun p options).tableaus (secondTableau p (cleanup p options)),
      p.Represents .plain T ∧ T.epsilon = options.epsilon := by
  refine secondRun_invariant positive (fun _ => True) _ ?_ (represents_secondTableau positive)
    fun _ _ => trivial
  rintro T row column ⟨represents, same⟩ _ chosen
  exact ⟨represents.pivoted chosen.nonzero, same⟩

theorem secondRun_final (positive : 0 < options.epsilon) :
    p.Represents .plain (secondRun p options).final ∧
      (secondRun p options).final.epsilon = options.epsilon :=
  represents_secondRun positive _ secondRun_final_mem

theorem secondRun_ending (positive : 0 < options.epsilon) :
    ∃ termination, (secondRun p options).ending = .ok termination ∧
      (secondPass p options).StopsAt (secondRun p options).final termination := by
  rcases represents_secondTableau (p := p) positive with ⟨represents, same⟩
  exact (secondPass p options).runFrom_ending represents.canonical (same ▸ positive) _
    options.maxIterations

/-! ## The three courses -/

/-- The report of a method that stopped at a tableau says its outcome and, at
an optimum, the decision part and the objective of the basic solution. -/
def Reports (p q : Problem ℚ m n) (T : Tableau ℚ m q.width) (outcome : Outcome)
    (solution : Solution ℚ) : Prop :=
  solution.outcome = outcome ∧ solution.tableau = T.cells.toLists ∧
    (outcome = .optimal →
      solution.decisionValues n = List.ofFn (q.decisionPart T.columnValue) ∧
      solution.objective = some (p.objectiveValue (List.ofFn (q.decisionPart T.columnValue))))

theorem exists_reports (q : Problem ℚ m n) {T : Tableau ℚ m q.normalized.width}
    (canonical : T.Canonical) (outcome : Outcome) (steps : List (Step ℚ m q.normalized.width))
    (phases : Option PhaseCounts) :
    ∃ solution, Solution.ofTableau q.normalized T outcome steps phases = .ok solution ∧
      Reports q q.normalized T outcome solution := by
  rcases Solution.exists_ofTableau canonical.isColumn outcome steps phases with
    ⟨solution, reported, stated, _, cells, _, optimum, _⟩
  exact ⟨solution, reported, stated, cells, optimum⟩

theorem validate_of_solve {p : Problem ℚ m n} {options : Options ℚ} {solution : Solution ℚ}
    (solved : solve p options = .ok solution) : options.validate = .ok () := by
  rw [solve_eq] at solved
  exact (Failure.guarded_eq_ok_iff.mp solved).1

theorem solve_eq_report (p : Problem ℚ m n) {options : Options ℚ}
    (valid : options.validate = .ok ()) :
    solve p options = report p.normalized (courseNormalized p.normalized options) := by
  unfold solve
  rw [valid]
  rfl

/-- A report of the method, by the course that led to it. -/
inductive Concludes (p : Problem ℚ m n) (options : Options ℚ) (solution : Solution ℚ) : Prop where
  | stopped (termination : Termination p.normalized.width) (short : termination ≠ .optimal)
      (stops : (firstPass p.normalized options).StopsAt (firstRun p.normalized options).final
        termination)
      (course : courseNormalized p.normalized options =
        .stopped (firstRun p.normalized options))
      (reports : Reports p p.normalized (firstRun p.normalized options).final
        termination.outcome solution)
  | infeasible
      (stops : (firstPass p.normalized options).StopsAt (firstRun p.normalized options).final
        .optimal)
      (large : options.epsilon < -(firstRun p.normalized options).final.objectiveRhs)
      (course : courseNormalized p.normalized options =
        .infeasible (firstRun p.normalized options)
          (-(firstRun p.normalized options).final.objectiveRhs))
      (reports : Reports p p.normalized (firstRun p.normalized options).final .infeasible solution)
  | completed (termination : Termination p.normalized.width)
      (small : -(firstRun p.normalized options).final.objectiveRhs ≤ options.epsilon)
      (stops : (secondPass p.normalized options).StopsAt (secondRun p.normalized options).final
        termination)
      (course : courseNormalized p.normalized options =
        .completed (firstRun p.normalized options) (cleanup p.normalized options)
          (secondRun p.normalized options))
      (reports : Reports p p.normalized (secondRun p.normalized options).final
        termination.outcome solution)

/-- With valid options the method reports on one of its three courses. -/
theorem exists_concludes (p : Problem ℚ m n) {options : Options ℚ}
    (valid : options.validate = .ok ()) :
    ∃ solution, solve p options = .ok solution ∧ Concludes p options solution := by
  rcases Options.validate_eq_ok valid with ⟨positive, _, _⟩
  rcases firstRun_final (p := p.normalized) positive with ⟨represents, _⟩
  rcases firstRun_ending (p := p.normalized) positive with ⟨termination, ending, stops⟩
  rw [solve_eq_report p valid]
  by_cases optimal : termination = .optimal
  · subst optimal
    have begun : courseNormalized p.normalized options =
        continueFrom p.normalized options (firstRun p.normalized options) :=
      courseNormalized_of_optimal rfl ending
    by_cases large : options.epsilon < -(firstRun p.normalized options).final.objectiveRhs
    · have course : courseNormalized p.normalized options =
          .infeasible (firstRun p.normalized options)
            (-(firstRun p.normalized options).final.objectiveRhs) :=
        begun.trans (continueFrom_of_large large)
      obtain ⟨solution, reported, reports⟩ := exists_reports p represents.canonical .infeasible
        (firstRun p.normalized options).steps
        (some ⟨(firstRun p.normalized options).iterations, 0⟩)
      refine ⟨solution, ?_, .infeasible stops large course reports⟩
      rw [course]
      exact reported
    · rcases cleanup_final (p := p.normalized) positive with ⟨unbroken, _, _⟩
      have course : courseNormalized p.normalized options =
          .completed (firstRun p.normalized options) (cleanup p.normalized options)
            (secondRun p.normalized options) :=
        begun.trans (continueFrom_of_unbroken large unbroken)
      rcases secondRun_ending (p := p.normalized) positive with ⟨second, secondEnding, secondStops⟩
      rcases secondRun_final (p := p.normalized) positive with ⟨secondRepresents, _⟩
      obtain ⟨solution, reported, reports⟩ := exists_reports p secondRepresents.canonical
        second.outcome
        ((firstRun p.normalized options).steps ++ (cleanup p.normalized options).steps ++
          (secondRun p.normalized options).steps)
        (some ⟨(firstRun p.normalized options).iterations +
            (cleanup p.normalized options).steps.length,
          (secondRun p.normalized options).iterations⟩)
      refine ⟨solution, ?_, .completed second (not_lt.mp large) secondStops course reports⟩
      rw [course, report, secondEnding]
      exact reported
  · have other : (firstRun p.normalized options).ending ≠ .ok .optimal := by
      rw [ending]
      exact fun same => optimal (Except.ok.inj same)
    have course : courseNormalized p.normalized options =
        .stopped (firstRun p.normalized options) :=
      courseNormalized_of_ne_optimal rfl other
    obtain ⟨solution, reported, reports⟩ := exists_reports p represents.canonical
      termination.outcome (firstRun p.normalized options).steps
      (some ⟨(firstRun p.normalized options).iterations, 0⟩)
    refine ⟨solution, ?_, .stopped termination optimal stops course reports⟩
    rw [course, report, ending]
    exact reported

section Solved

variable {p : Problem ℚ m n} {options : Options ℚ} {solution : Solution ℚ}
  (solved : solve p options = .ok solution)
include solved

theorem epsilon_pos_of_solve : 0 < options.epsilon :=
  (Options.validate_eq_ok (validate_of_solve solved)).1

theorem concludes_of_solve : Concludes p options solution := by
  rcases exists_concludes p (validate_of_solve solved) with ⟨other, reported, concludes⟩
  cases solved.symm.trans reported
  exact concludes

/-- An optimum is reported at the end of a second phase without an entering column. -/
theorem optimal_cases (optimum : solution.outcome = .optimal) :
    -(firstRun p.normalized options).final.objectiveRhs ≤ options.epsilon ∧
      courseNormalized p.normalized options =
        .completed (firstRun p.normalized options) (cleanup p.normalized options)
          (secondRun p.normalized options) ∧
      (secondRun p.normalized options).final.entering?
        (secondPass p.normalized options).allowed = none ∧
      solution.decisionValues n = List.ofFn
        (p.normalized.decisionPart (secondRun p.normalized options).final.columnValue) ∧
      solution.objective = some (p.objectiveValue (List.ofFn
        (p.normalized.decisionPart (secondRun p.normalized options).final.columnValue))) := by
  cases concludes_of_solve solved with
  | stopped termination short stops course reports =>
    exact absurd (Termination.eq_optimal (reports.1.symm.trans optimum)) short
  | infeasible stops large course reports => exact nomatch reports.1.symm.trans optimum
  | completed termination small stops course reports =>
    cases Termination.eq_optimal (reports.1.symm.trans optimum)
    exact ⟨small, course, stops, reports.2.2 rfl⟩

/-- A report of infeasibility comes from a first phase without an entering
column, and it shows the last tableau of that phase. -/
theorem infeasible_cases (none : solution.outcome = .infeasible) :
    (firstRun p.normalized options).final.entering? (firstPass p.normalized options).allowed =
        Option.none ∧
      options.epsilon < -(firstRun p.normalized options).final.objectiveRhs ∧
      courseNormalized p.normalized options =
        .infeasible (firstRun p.normalized options)
          (-(firstRun p.normalized options).final.objectiveRhs) ∧
      solution.tableau = (firstRun p.normalized options).final.cells.toLists := by
  cases concludes_of_solve solved with
  | stopped termination short stops course reports =>
    exact absurd (reports.1.symm.trans none) termination.outcome_ne_infeasible
  | completed termination small stops course reports =>
    exact absurd (reports.1.symm.trans none) termination.outcome_ne_infeasible
  | infeasible stops large course reports => exact ⟨stops, large, course, reports.2.1⟩

end Solved

end TwoPhase
end LinearProgram
