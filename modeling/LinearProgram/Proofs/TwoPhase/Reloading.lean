import LinearProgram.Proofs.Tableau.Reloading
import LinearProgram.Proofs.TwoPhase.Course

namespace LinearProgram

/-!
# The objective of the second phase

The second phase starts from an objective that is loaded onto the basis which
the first phase and the search for replacements have left.  The row of reduced
costs is the one that this objective would have had there if it had been loaded
at the outset and carried through all pivots made so far.
-/

/-! ## Recorded pivots as places -/

section AnyArithmetic

variable {K : Type} [Scalar K] {m n N : Nat}

/-- Where a recorded pivot was made. -/
def Step.place (step : Step K m N) : Fin m × Fin N :=
  (step.row, step.entering)

theorem Pass.Records.pivots_cons {pass : Pass N} {index : Nat} {T : Tableau K m N} {row : Fin m}
    {column : Fin N} {step : Step K m N} (records : pass.Records index T row column step)
    (later : List (Fin m × Fin N)) :
    T.pivots (step.place :: later) = step.next.pivots later := by
  rw [Tableau.pivots_cons, Step.place, records.inRow, records.enters, records.made]
  rfl

/-- The pivots of a run lead to its last tableau. -/
theorem Pass.pivots_runFrom (pass : Pass N) (index : Nat) (T : Tableau K m N) (cap : Nat) :
    T.pivots ((pass.runFrom index T cap).steps.map Step.place) =
      .ok (pass.runFrom index T cap).final := by
  fun_induction pass.runFrom index T cap with
  | case6 index T remaining column entering row leaving step recorded ih =>
    exact ((records_of_pivot recorded).pivots_cons _).trans ih
  | _ => rfl

/-- The pivots that drive artificial columns out lead to the tableau they leave. -/
theorem TwoPhase.pivots_driveOut (p : Problem K m n) (pass : Pass p.width) (index : Nat)
    (T : Tableau K m p.width) (rows : List (Fin m)) :
    T.pivots ((driveOut p pass index T rows).steps.map Step.place) =
      .ok (driveOut p pass index T rows).final := by
  fun_induction driveOut p pass index T rows with
  | case1 index T => rfl
  | case2 index T row rows artificial nothing ih => exact ih
  | case3 index T row rows artificial column found failure refused => rfl
  | case4 index T row rows artificial column found step recorded ih =>
    exact ((Pass.records_of_pivot recorded).pivots_cons _).trans ih
  | case5 index T row rows other ih => exact ih

/-- The pivots of a course up to the second phase, one after the other. -/
theorem TwoPhase.pivots_of_completed {p : Problem K m n} {options : Options K}
    {first second : Run K m p.width} {between : Cleanup K m p.width}
    (reached : courseNormalized p options = .completed first between second) :
    (firstTableau p options).pivots ((first.steps ++ between.steps).map Step.place) =
      .ok between.final := by
  rcases parts_of_completed reached with ⟨rfl, rfl, _⟩
  have search := (firstPass p options).pivots_runFrom 0 (firstTableau p options)
    options.maxIterations
  rw [List.map_append, Tableau.pivots_append]
  exact (congrArg (· >>= _) search).trans (pivots_driveOut p (firstPass p options) _ _ _)

end AnyArithmetic

namespace TwoPhase

/-- **An objective that is loaded late is as if it had been carried along.**
Where the basic columns are unit vectors, loading an objective and a pivot
commute, whatever the row of reduced costs was before, and the pivot is refused
on both ways or on none.  Loading changes neither the constraint rows nor the
basis.  So the second phase starts from the tableau that the pivots of the
first phase and those which drive artificial columns out make of the first
tableau with the objective of the problem. -/
theorem reloaded_objective_eq_carried :
    (∀ {m N : Nat} {T : Tableau ℚ m N}, T.UnitBasis → 0 < T.epsilon →
        ∀ (costs : Vector ℚ N) (row : Fin m) (column : Fin N),
          (T.loadObjective costs).pivot row column.castSucc =
            (T.pivot row column.castSucc).map fun answer =>
              (answer.1, answer.2.loadObjective costs)) ∧
      (∀ {m N : Nat} (T : Tableau ℚ m N) (costs : Vector ℚ N),
        (T.loadObjective costs).basis = T.basis ∧
          ∀ row column, (T.loadObjective costs).entry row column = T.entry row column) ∧
      ∀ {m n : Nat} (q : Problem ℚ m n) (options : Options ℚ)
        {first second : Run ℚ m q.width} {between : Cleanup ℚ m q.width},
        0 < options.epsilon → courseNormalized q options = .completed first between second →
        let places := (first.steps ++ between.steps).map Step.place
        (q.tableau .phaseOne options.epsilon).pivots places = .ok between.final ∧
          (q.tableau .plain options.epsilon).pivots places = .ok (secondTableau q between) ∧
          second = (secondPass q options).run places.length (secondTableau q between) := by
  refine ⟨fun unit positive costs row column => unit.pivot_loadObjective costs positive row column,
    fun T costs => ⟨T.basis_loadObjective costs, T.entry_loadObjective costs⟩, ?_⟩
  intro m n q options first second between positive reached places
  have made := pivots_of_completed reached
  have unit := (q.canonical_tableau .phaseOne options.epsilon).unitBasis
  have carried := unit.pivots_loadObjective positive (q.costs .plain) places
  have restart : (q.tableau .phaseOne options.epsilon).loadObjective (q.costs .plain) =
      q.tableau .plain options.epsilon := by
    rw [Problem.tableau_eq_loadObjective, Tableau.loadObjective_loadObjective,
      ← Problem.tableau_eq_loadObjective]
  have last : (q.tableau .phaseOne options.epsilon).pivots places = .ok between.final := made
  rw [restart, last] at carried
  refine ⟨last, carried, ?_⟩
  rcases parts_of_completed reached with ⟨_, _, started⟩
  rw [started, List.length_map, List.length_append]
  rfl

/-- Two equations that agree except in a variable which is then held at zero,
and a bound. -/
def heldProblem : Problem ℚ 3 3 where
  objective := #[1, 2, -1].toVector
  coefficients := #[#[1, 1, 0].toVector, #[1, 1, -1].toVector, #[1, 3, 0].toVector].toVector
  rhs := #[2, 2, 4].toVector
  senses := #[.eq, .eq, .le].toVector
  direction := .maximize
  names := #["x", "y", "z"].toVector
  variables_pos := Nat.succ_pos (nat_lit 2)

/-- A tableau whose row of reduced costs has nothing to do with its basis. -/
def strayTableau : Tableau ℚ 2 4 where
  cells := #[#[1, 2, 0, -1, 3].toVector, #[0, 4, 1, 5, 6].toVector,
    #[7, -8, 9, 1, 2].toVector].toVector
  basis := #[⟨0, by decide⟩, ⟨2, by decide⟩].toVector
  epsilon := 1 / 1000

/-- The objective of the held problem arrives at the second phase by the same
two pivots, one of them a replacement.  In the stray tableau both a basic and an
entering column are priced. -/
theorem heldProblem_objective_carried :
    let first := firstRun heldProblem Options.default
    let between := cleanup heldProblem Options.default
    let places := (first.steps ++ between.steps).map Step.place
    strayTableau.UnitBasis ∧ 0 < strayTableau.epsilon ∧
      (strayTableau.loadObjective #v[3, -1, 2, 5]).pivot 1 (Fin.castSucc 3) =
        (strayTableau.pivot 1 (Fin.castSucc 3)).map
          (fun answer => (answer.1, answer.2.loadObjective #v[3, -1, 2, 5])) ∧
      places = [(0, ⟨0, by decide⟩), (1, ⟨2, by decide⟩)] ∧
      courseNormalized heldProblem Options.default =
        .completed first between (secondRun heldProblem Options.default) ∧
      (heldProblem.tableau .plain (Options.default : Options ℚ).epsilon).pivots places =
        .ok (secondTableau heldProblem between) := by
  intro first between places
  rcases reloaded_objective_eq_carried with ⟨commutes, _, carried⟩
  have unit : strayTableau.UnitBasis := ⟨by decide +kernel, by decide +kernel⟩
  have positive : 0 < strayTableau.epsilon := by decide +kernel
  have ending : first.ending = .ok .optimal := by decide +kernel
  have unbroken : between.failure? = none := by decide +kernel
  have course : courseNormalized heldProblem Options.default =
      .completed first between (secondRun heldProblem Options.default) :=
    (courseNormalized_of_optimal rfl ending).trans
      (continueFrom_of_unbroken (by decide +kernel) unbroken)
  have reached := carried heldProblem Options.default (by decide +kernel) course
  exact ⟨unit, positive, commutes unit positive _ _ _, by decide +kernel, course, reached.2.1⟩

end TwoPhase
end LinearProgram
