import LinearProgram.Proofs.OptimumTolerance
import LinearProgram.Proofs.Simplex.Replay
import LinearProgram.Proofs.SingleRun
import LinearProgram.Proofs.TwoPhase.Stages

namespace LinearProgram

/-!
# Traces that can be replayed

What a solver reports as its trace is a log of all of its pivots and of nothing
else.  The method of two phases writes three logs one after the other: that of
its first phase, that of the pivots which drive artificial columns out, and,
after a new objective has been loaded, that of its second phase.  The log of a
run that passes over artificial columns brings none of them into the basis, so
that the number of those that are basic never grows.
-/

variable {K : Type} {m n : Nat}

/-! ## Artificial columns in a log -/

namespace Problem

/-- Whether a number is that of an artificial column. -/
def isArtificialNumber (p : Problem K m n) (number : Nat) : Bool :=
  p.tags[number]?.any ColumnTag.isArtificial

/-- The number of artificial columns in a basis. -/
def countArtificial (p : Problem K m n) (basis : List Nat) : Nat :=
  basis.countP p.isArtificialNumber

variable (p : Problem K m n)

theorem isArtificialNumber_val (column : Fin p.width) :
    p.isArtificialNumber column = p.tags[column].isArtificial := by
  unfold isArtificialNumber
  rw [Vector.getElem?_eq_getElem column.isLt]
  rfl

variable [Scalar K]

theorem countArtificial_pivoted {T : Tableau K m p.width} (row : Fin m) {column : Fin p.width}
    (other : p.tags[column].isArtificial = false) :
    p.countArtificial (T.pivoted row column.castSucc).basisNumbers ≤
      p.countArtificial T.basisNumbers := by
  have basis : (T.pivoted row column.castSucc).basisNumbers = T.basisNumbers.set row column := by
    unfold Tableau.basisNumbers Tableau.pivoted
    rw [Vector.toList_set, List.map_set]
    rfl
  have inside : row.val < T.basisNumbers.length := by
    unfold Tableau.basisNumbers
    simp
  unfold countArtificial
  rw [basis, List.countP_set inside, p.isArtificialNumber_val, other]
  simp

/-- No pivot of a log brings an artificial column into the basis, and the
number of artificial columns in the basis never grows along it. -/
structure KeepsArtificialsOut (basis : List Nat) (log : List (StepReport K)) : Prop where
  entering : ∀ report ∈ log, p.isArtificialNumber report.entering = false
  neverGrows : List.IsChain
    (fun earlier later => p.countArtificial later ≤ p.countArtificial earlier)
    (basis :: log.map StepReport.basis)

variable {p}

theorem keepsArtificialsOut_of_replays {names : Vector String p.width} {phase : Phase}
    {Place : Tableau K m p.width → Fin m → Fin p.width → Prop}
    (ordinary : ∀ T row column, Place T row column → p.tags[column].isArtificial = false)
    {index : Nat} {T final : Tableau K m p.width} {log : List (StepReport K)}
    (replays : Replays names phase Place index T log final) :
    p.KeepsArtificialsOut T.basisNumbers log := by
  induction replays with
  | done index T => exact ⟨nofun, List.isChain_singleton _⟩
  | @pivot index T next final row column report log place tells numbered inPhase rest ih =>
    have other := ordinary T row column place
    constructor
    · intro entry member
      rcases List.mem_cons.mp member with rfl | later
      · rw [tells.entering, p.isArtificialNumber_val]
        exact other
      · exact ih.entering entry later
    · rw [List.map_cons, List.isChain_cons_cons, tells.basis]
      refine ⟨?_, ih.neverGrows⟩
      rw [(Tableau.pivoted_of_pivot tells.made).2]
      exact p.countArtificial_pivoted row other

theorem ordinary_of_picks {cap : Nat} {phase : Phase} {T : Tableau K m p.width} {row : Fin m}
    {column : Fin p.width} (picks : (p.pass .skipArtificial cap phase).Picks T row column) :
    p.tags[column].isArtificial = false := by
  have improving := mem_of_firstSmallest? _ _ picks.1
  have allowed := (Bool.and_eq_true_iff.mp (List.mem_filter.mp improving).2).1
  exact Bool.not_eq_true' _ ▸ allowed

end Problem

variable [Scalar K]

/-! ## One run -/

/-- What the report of a method with a single run says about it. -/
structure Solution.Logs (solution : Solution K) (p : Problem K m n) (pass : Pass p.width)
    (start final : Tableau K m p.width) : Prop where
  replays : Replays p.columnNames pass.phase pass.Picks 0 start solution.trace final
  shows : solution.Shows p final
  few : solution.iterations ≤ pass.cap
  phases : solution.phases = none

theorem Solution.Logs.map_index {solution : Solution K} {p : Problem K m n} {pass : Pass p.width}
    {start final : Tableau K m p.width} (logs : solution.Logs p pass start final) :
    solution.trace.map StepReport.index = List.range solution.iterations := by
  rw [iterations, List.range_eq_range']
  exact logs.replays.map_index

theorem Solution.exists_logs_of_ofRun {p : Problem K m n}
    {outcome : Tableau K m p.width → Termination p.width → Outcome} {pass : Pass p.width}
    {start : Tableau K m p.width} {solution : Solution K}
    (reported : ofRun p outcome [] (fun _ => none) (pass.run 0 start) = .ok solution) :
    ∃ final, solution.Logs p pass start final := by
  rcases exists_ofTableau_of_ofRun reported with ⟨stated, shown⟩
  have trace := trace_of_ofTableau shown
  rw [List.nil_append] at trace
  refine ⟨(pass.run 0 start).final, ?_, shows_of_ofTableau shown, ?_, phases_of_ofTableau shown⟩
  · rw [trace]
    exact pass.replays_run p.columnNames 0 start
  · rw [iterations, trace, List.length_map]
    exact pass.iterations_run_le 0 start

theorem Plain.exists_logs {p : Problem K m n} {options : Options K} {solution : Solution K}
    (solved : solve p options = .ok solution) :
    ∃ final, solution.Logs p (pass p options) (startTableau p options) final := by
  rw [solve_eq] at solved
  exact Solution.exists_logs_of_ofRun (Failure.guarded_eq_ok_iff.mp solved).2

theorem BigM.exists_logs {p : Problem K m n} {options : Options K} {solution : Solution K}
    (solved : solve p options = .ok solution) :
    ∃ final, solution.Logs p.normalized (pass p.normalized options)
        (startTableau p.normalized options) final ∧
      p.normalized.KeepsArtificialsOut (startTableau p.normalized options).basisNumbers
        solution.trace := by
  rw [solve_eq] at solved
  rcases Solution.exists_logs_of_ofRun (Failure.guarded_eq_ok_iff.mp solved).2 with ⟨final, logs⟩
  exact ⟨final, logs,
    Problem.keepsArtificialsOut_of_replays (fun _ _ _ => Problem.ordinary_of_picks) logs.replays⟩

/-! ## Two phases -/

namespace TwoPhase

/-- A place at which an artificial column is driven out. -/
def Drives (p : Problem K m n) (T : Tableau K m p.width) (row : Fin m) (column : Fin p.width) :
    Prop :=
  p.isArtificialColumn T.basis[row] = true ∧ replacement? p T row = some column

theorem replays_driveOut (p : Problem K m n) (pass : Pass p.width) (index : Nat)
    (T : Tableau K m p.width) (rows : List (Fin m)) :
    Replays p.columnNames pass.phase (Drives p) index T
      ((driveOut p pass index T rows).steps.map (Step.report p.columnNames))
      (driveOut p pass index T rows).final := by
  fun_induction driveOut p pass index T rows with
  | case1 index T => exact .done index T
  | case2 index T row rows artificial nothing ih => exact ih
  | case3 index T row rows artificial column found failure refused => exact .done index T
  | case4 index T row rows artificial column found step recorded ih =>
    have records := Pass.records_of_pivot recorded
    exact .pivot ⟨artificial, found⟩ (records.tells p.columnNames) records.numbered
      records.inPhase ih
  | case5 index T row rows other ih => exact ih

/-- At most one pivot is made for each row. -/
theorem length_steps_driveOut_le (p : Problem K m n) (pass : Pass p.width) (index : Nat)
    (T : Tableau K m p.width) (rows : List (Fin m)) :
    (driveOut p pass index T rows).steps.length ≤ rows.length := by
  fun_induction driveOut p pass index T rows with
  | case1 index T => exact Nat.le_refl _
  | case2 index T row rows artificial nothing ih => exact Nat.le_succ_of_le ih
  | case3 index T row rows artificial column found failure refused => exact Nat.zero_le _
  | case4 index T row rows artificial column found step recorded ih => exact Nat.succ_le_succ ih
  | case5 index T row rows other ih => exact Nat.le_succ_of_le ih

/-- What a report of the method says about its course.  The objective of the
problem is loaded once, after the last pivot of the first phase. -/
inductive Logs (p : Problem K m n) (options : Options K) (solution : Solution K) : Prop where
  | first {final : Tableau K m p.width}
      (search : Replays p.columnNames .one (firstPass p options).Picks 0 (firstTableau p options)
        solution.trace final)
      (shows : solution.Shows p final)
      (phases : solution.phases = some ⟨solution.iterations, 0⟩)
      (few : solution.iterations ≤ options.maxIterations)
  | both {searched driven improved : List (StepReport K)} {found cleaned final : Tableau K m p.width}
      (trace : solution.trace = searched ++ driven ++ improved)
      (search : Replays p.columnNames .one (firstPass p options).Picks 0 (firstTableau p options)
        searched found)
      (drive : Replays p.columnNames .one (Drives p) searched.length found driven cleaned)
      (improve : Replays p.columnNames .two (secondPass p options).Picks
        (searched.length + driven.length) (cleaned.loadObjective (p.costs .plain)) improved final)
      (shows : solution.Shows p final)
      (phases : solution.phases = some ⟨searched.length + driven.length, improved.length⟩)
      (fewSearched : searched.length ≤ options.maxIterations)
      (fewDriven : driven.length ≤ m)
      (fewImproved : improved.length ≤ options.maxIterations)
      (keeps : p.KeepsArtificialsOut cleaned.basisNumbers improved)

theorem logs {p : Problem K m n} {options : Options K} {solution : Solution K}
    (solved : solve p options = .ok solution) : Logs p.normalized options solution := by
  rw [solve_eq] at solved
  have reported := (Failure.guarded_eq_ok_iff.mp solved).2
  generalize p.normalized = q at reported ⊢
  obtain ⟨first, run⟩ : ∃ first, (firstPass q options).run 0 (firstTableau q options) = first :=
    ⟨_, rfl⟩
  have search := (firstPass q options).replays_run q.columnNames 0 (firstTableau q options)
  have few := (firstPass q options).iterations_run_le 0 (firstTableau q options)
  rw [run] at search few
  rcases report_cases run reported with
    ⟨outcome, shown⟩ | ⟨outcome, cleanup, second, cleaned, continued, shown⟩
  · have trace := Solution.trace_of_ofTableau shown
    have count : solution.iterations = first.iterations := by
      rw [Solution.iterations, trace, List.length_map, Run.iterations]
    refine .first (trace ▸ search) (Solution.shows_of_ofTableau shown) ?_ (count ▸ few)
    rw [Solution.phases_of_ofTableau shown, count]
  · have trace := Solution.trace_of_ofTableau shown
    have drive := replays_driveOut q (firstPass q options) first.iterations first.final
      (List.finRange m)
    have improve := (secondPass q options).replays_run q.columnNames
      (first.iterations + cleanup.steps.length) (secondTableau q cleanup)
    have fewImproved := (secondPass q options).iterations_run_le
      (first.iterations + cleanup.steps.length) (secondTableau q cleanup)
    have fewDriven := length_steps_driveOut_le q (firstPass q options) first.iterations first.final
      (List.finRange m)
    unfold secondRunAfter at continued
    unfold cleanupAfter at cleaned
    rw [← cleaned] at drive fewDriven
    rw [← continued] at improve fewImproved
    have lengths : ∀ steps : List (Step K m q.width),
        steps.length = (steps.map (Step.report q.columnNames)).length :=
      fun steps => (List.length_map _).symm
    have phases := Solution.phases_of_ofTableau shown
    rw [List.map_append, List.map_append] at trace
    rw [Run.iterations, lengths] at few drive fewImproved
    rw [Run.iterations, lengths, lengths] at improve
    rw [Run.iterations, Run.iterations, lengths, lengths, lengths] at phases
    rw [List.length_finRange, lengths] at fewDriven
    have keeps := Problem.keepsArtificialsOut_of_replays
      (fun _ _ _ => Problem.ordinary_of_picks) improve
    exact .both trace search drive improve (Solution.shows_of_ofTableau shown) phases few fewDriven
      fewImproved keeps

/-- The pivots of the first phase come first, and both phases are counted. -/
structure Counts (solution : Solution K) (counts : PhaseCounts) : Prop where
  phases : solution.phases = some counts
  inOrder : solution.trace.map StepReport.phase =
    List.replicate counts.phaseOne .one ++ List.replicate counts.phaseTwo .two

namespace Logs

variable {p : Problem K m n} {options : Options K} {solution : Solution K}

theorem exists_counts (logs : Logs p options solution) :
    ∃ counts, Counts solution counts ∧ counts.phaseOne ≤ options.maxIterations + m ∧
      counts.phaseTwo ≤ options.maxIterations := by
  cases logs with
  | first search shows phases few =>
    refine ⟨_, ⟨phases, ?_⟩, Nat.le_add_right_of_le few, Nat.zero_le _⟩
    rw [search.map_phase, List.replicate_zero, List.append_nil, Solution.iterations]
  | both trace search drive improve shows phases fewSearched fewDriven fewImproved keeps =>
    refine ⟨_, ⟨phases, ?_⟩, Nat.add_le_add fewSearched fewDriven, fewImproved⟩
    rw [trace, List.map_append, List.map_append, search.map_phase, drive.map_phase,
      improve.map_phase, List.replicate_append_replicate]

theorem map_index (logs : Logs p options solution) :
    solution.trace.map StepReport.index = List.range solution.iterations := by
  rw [Solution.iterations, List.range_eq_range']
  cases logs with
  | first search shows phases few => exact search.map_index
  | both trace search drive improve shows phases fewSearched fewDriven fewImproved keeps =>
    rw [trace, List.map_append, List.map_append, search.map_index, drive.map_index,
      improve.map_index, List.length_append, List.length_append, ← List.range'_append_1,
      ← List.range'_append_1, Nat.zero_add, Nat.zero_add]

end Logs

end TwoPhase

/-- **Every trace can be replayed.**  The trace of a report leads from the first
tableau, pivot by pivot, to the tableau that the report shows.  The pivots are
those that the rules choose, apart from those that drive artificial columns
out, they are numbered without a gap, and the counts of a report count them. -/
theorem traces_replay (p : Problem K m n) (options : Options K) (solution : Solution K) :
    (Plain.solve p options = .ok solution →
        solution.trace.map StepReport.index = List.range solution.iterations ∧
        ∃ final, solution.Logs p (Plain.pass p options) (Plain.startTableau p options) final) ∧
      (BigM.solve p options = .ok solution →
        solution.trace.map StepReport.index = List.range solution.iterations ∧
        p.normalized.KeepsArtificialsOut
          (BigM.startTableau p.normalized options).basisNumbers solution.trace ∧
        ∃ final, solution.Logs p.normalized (BigM.pass p.normalized options)
          (BigM.startTableau p.normalized options) final) ∧
      (TwoPhase.solve p options = .ok solution →
        solution.trace.map StepReport.index = List.range solution.iterations ∧
        TwoPhase.Logs p.normalized options solution ∧
        ∃ counts, TwoPhase.Counts solution counts ∧
          counts.phaseOne ≤ options.maxIterations + m ∧
          counts.phaseTwo ≤ options.maxIterations) := by
  refine ⟨fun solved => ?_, fun solved => ?_, fun solved => ?_⟩
  · rcases Plain.exists_logs solved with ⟨final, logs⟩
    exact ⟨logs.map_index, final, logs⟩
  · rcases BigM.exists_logs solved with ⟨final, logs, keeps⟩
    exact ⟨logs.map_index, keeps, final, logs⟩
  · have logs := TwoPhase.logs solved
    exact ⟨logs.map_index, logs, logs.exists_counts⟩

/-- An equation, its mirror image and a bound.  The first phase has nothing to
do, and one artificial column is driven out. -/
def mirroredProblem : Problem ℚ 3 2 where
  objective := #[1, 1].toVector
  coefficients := #[#[1, -1].toVector, #[-1, 1].toVector, #[1, 1].toVector].toVector
  rhs := #[0, 0, 4].toVector
  senses := #[.eq, .eq, .le].toVector
  direction := .maximize
  names := #["x", "y"].toVector
  variables_pos := Nat.zero_lt_two

theorem traces_replay_mirroredProblem :
    ∃ simple penalized phased : Solution ℚ,
      Plain.solve faintBoundProblem Options.default = .ok simple ∧
      BigM.solve mirroredProblem Options.default = .ok penalized ∧
      TwoPhase.solve mirroredProblem Options.default = .ok phased ∧
      phased.trace.map (fun report => (report.phase, report.entering, report.leavingRow)) =
        [(.one, 0, 0), (.two, 1, 2)] ∧
      (∃ final, simple.Logs faintBoundProblem (Plain.pass faintBoundProblem Options.default)
        (Plain.startTableau faintBoundProblem Options.default) final) ∧
      mirroredProblem.normalized.KeepsArtificialsOut
        (BigM.startTableau mirroredProblem.normalized Options.default).basisNumbers
        penalized.trace ∧
      TwoPhase.Logs mirroredProblem.normalized Options.default phased := by
  obtain ⟨simple, solved, _⟩ : ∃ simple, Plain.solve faintBoundProblem Options.default =
      .ok simple ∧ simple.iterations = 1 :=
    Solution.exists_ok_of_map_toOption (by decide +kernel)
  obtain ⟨penalized, weighed, _⟩ : ∃ penalized, BigM.solve mirroredProblem Options.default =
      .ok penalized ∧ penalized.iterations = 2 :=
    Solution.exists_ok_of_map_toOption (by decide +kernel)
  obtain ⟨phased, staged, places⟩ : ∃ phased, TwoPhase.solve mirroredProblem Options.default =
      .ok phased ∧
        phased.trace.map (fun report => (report.phase, report.entering, report.leavingRow)) =
          [(.one, 0, 0), (.two, 1, 2)] :=
    Solution.exists_ok_of_map_toOption (by decide +kernel)
  have plain := (traces_replay faintBoundProblem Options.default simple).1 solved
  have bigM := (traces_replay mirroredProblem Options.default penalized).2.1 weighed
  have twoPhase := (traces_replay mirroredProblem Options.default phased).2.2 staged
  exact ⟨simple, penalized, phased, solved, weighed, staged, places, plain.2, bigM.2.1,
    twoPhase.2.1⟩

end LinearProgram
