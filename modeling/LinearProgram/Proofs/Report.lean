import LinearProgram.Proofs.StandardForm
import LinearProgram.Proofs.Simplex.Record
import LinearProgram.Problem.Feasible
import LinearProgram.Solution

namespace LinearProgram

/-!
# What a report says about its tableau

A report on a tableau exists just when its basic columns are proper columns.
At an optimum it carries the decision part of the basic solution and the
objective of the problem there.
-/

/-! ## Requests that are checked first -/

namespace Failure

variable {K α β : Type} {check : Except (Error K) Unit} {answer : Except (Failure K) α}

/-- The answer to a request that passes a check. -/
def guarded (check : Except (Error K) Unit) (answer : Except (Failure K) α) :
    Except (Failure K) α :=
  lift check >>= fun _ => answer

theorem lift_eq_ok_iff {result : Except (Error K) α} {value : α} :
    lift result = .ok value ↔ result = .ok value := by
  cases result with
  | error cause => exact ⟨nofun, nofun⟩
  | ok other => exact ⟨fun lifted => congrArg _ (Except.ok.inj lifted),
      fun same => congrArg _ (Except.ok.inj same)⟩

/-- A stage that is followed by others answers when each of them does. -/
theorem bind_eq_ok_iff {next : α → Except (Failure K) β} {value : β} :
    answer >>= next = .ok value ↔ ∃ middle, answer = .ok middle ∧ next middle = .ok value := by
  cases answer with
  | error failure => exact ⟨nofun, fun ⟨_, missing, _⟩ => nomatch missing⟩
  | ok middle =>
    refine ⟨fun answered => ⟨middle, rfl, answered⟩, ?_⟩
    rintro ⟨other, same, answered⟩
    cases same
    exact answered

theorem guarded_eq_ok_iff {value : α} :
    guarded check answer = .ok value ↔ check = .ok () ∧ answer = .ok value := by
  simp only [guarded, bind_eq_ok_iff, lift_eq_ok_iff]
  exact ⟨fun ⟨_, passed, answered⟩ => ⟨passed, answered⟩, fun both => ⟨(), both⟩⟩

theorem map_guarded (f : α → β) : (guarded check answer).map f = guarded check (answer.map f) := by
  cases check with
  | error cause => rfl
  | ok _ => rfl

end Failure

/-! ## Reports -/

/-- The basic columns are found when none of them is the right hand side. -/
theorem Tableau.exists_basicColumns? {K : Type} {m N : Nat} {T : Tableau K m N}
    (isColumn : ∀ row : Fin m, T.basis[row].val < N) :
    ∃ columns, T.basicColumns? = some columns := by
  have proper : ∀ column ∈ T.basis.toList, column.val < N := by
    intro column member
    rcases List.getElem_of_mem member with ⟨row, bound, rfl⟩
    rw [Vector.getElem_toList]
    exact isColumn ⟨row, by simpa using bound⟩
  unfold Tableau.basicColumns?
  generalize T.basis.toList = basics at proper
  induction basics with
  | nil => exact ⟨[], rfl⟩
  | cons column rest ih =>
    rcases ih fun other member => proper other (List.mem_cons_of_mem column member) with
      ⟨later, found⟩
    have here : Tableau.index? N column.val = some ⟨column, proper column List.mem_cons_self⟩ :=
      dif_pos _
    exact ⟨_, by rw [List.mapM_cons, here, found]; rfl⟩

/-- The basic columns that are found are those of the basis. -/
theorem Tableau.map_val_of_basicColumns? {K : Type} {m N : Nat} {T : Tableau K m N}
    {columns : List (Fin N)} (found : T.basicColumns? = some columns) :
    columns.map Fin.val = T.basisNumbers := by
  unfold Tableau.basicColumns? at found
  unfold Tableau.basisNumbers
  generalize T.basis.toList = basics at found ⊢
  induction basics generalizing columns with
  | nil =>
    cases found
    rfl
  | cons column rest ih =>
    rw [List.mapM_cons] at found
    rcases Option.bind_eq_some_iff.mp found with ⟨first, here, others⟩
    rcases Option.bind_eq_some_iff.mp others with ⟨later, there, same⟩
    cases same
    rw [List.map_cons, List.map_cons, ih there, Tableau.val_of_index? here]

namespace Solution

section AnyArithmetic

variable {K : Type} [Scalar K] {m n : Nat}

/-- The report on a tableau whose basic columns have been found. -/
def onBasis (p : Problem K m n) (T : Tableau K m p.width) (outcome : Outcome)
    (steps : List (Step K m p.width)) (phases : Option PhaseCounts)
    (columns : List (Fin p.width)) : Solution K :=
  let names := p.columnNames
  let columnValues := (List.finRange p.width).map T.columnValue
  { outcome
    objective :=
      if outcome = .optimal then some (p.objectiveValue (columnValues.take n)) else none
    values := if outcome = .optimal then names.toList.zip columnValues else []
    basis := columns.map fun column => names[column]
    columnNames := names.toList
    tableau := T.cells.toLists
    trace := steps.map (Step.report names)
    phases }

theorem ofTableau_eq (p : Problem K m n) (T : Tableau K m p.width) (outcome : Outcome)
    (steps : List (Step K m p.width)) (phases : Option PhaseCounts) :
    ofTableau p T outcome steps phases =
      (Failure.ofOption T.basicColumns?).map (onBasis p T outcome steps phases) := by
  unfold ofTableau Tableau.columnValues?
  cases T.basicColumns? with
  | none => rfl
  | some columns => rfl

theorem ofTableau_eq_ok_iff {p : Problem K m n} {T : Tableau K m p.width} {outcome : Outcome}
    {steps : List (Step K m p.width)} {phases : Option PhaseCounts} {solution : Solution K} :
    ofTableau p T outcome steps phases = .ok solution ↔
      ∃ columns, T.basicColumns? = some columns ∧
        onBasis p T outcome steps phases columns = solution := by
  rw [ofTableau_eq]
  cases T.basicColumns? with
  | none => simp [Failure.ofOption, Except.map]
  | some columns => simp [Failure.ofOption, Except.map]

/-- The report shows the tableau, and its basic columns by name. -/
structure Shows (solution : Solution K) (p : Problem K m n) (T : Tableau K m p.width) : Prop where
  tableau : solution.tableau = T.cells.toLists
  basis : solution.basis.map some = T.basisNumbers.map fun number => p.columnNames[number]?

section OfTableau

variable {p : Problem K m n} {T : Tableau K m p.width} {outcome : Outcome}
  {steps : List (Step K m p.width)} {phases : Option PhaseCounts} {solution : Solution K}
  (reported : ofTableau p T outcome steps phases = .ok solution)
include reported

theorem outcome_of_ofTableau : solution.outcome = outcome := by
  rcases ofTableau_eq_ok_iff.mp reported with ⟨columns, _, rfl⟩
  rfl

theorem trace_of_ofTableau : solution.trace = steps.map (Step.report p.columnNames) := by
  rcases ofTableau_eq_ok_iff.mp reported with ⟨columns, _, rfl⟩
  rfl

theorem phases_of_ofTableau : solution.phases = phases := by
  rcases ofTableau_eq_ok_iff.mp reported with ⟨columns, _, rfl⟩
  rfl

theorem shows_of_ofTableau : solution.Shows p T := by
  rcases ofTableau_eq_ok_iff.mp reported with ⟨columns, basic, rfl⟩
  refine ⟨rfl, ?_⟩
  rw [← Tableau.map_val_of_basicColumns? basic, onBasis, List.map_map, List.map_map]
  refine List.map_congr_left fun column _ => ?_
  exact (Vector.getElem?_eq_getElem column.isLt).symm

end OfTableau

/-- The report on the end of a run that followed earlier pivots.  The counts
depend on the number of pivots of the run. -/
def ofRun (p : Problem K m n) (outcome : Tableau K m p.width → Termination p.width → Outcome)
    (earlier : List (Step K m p.width)) (phases : Nat → Option PhaseCounts)
    (run : Run K m p.width) : Except (Failure K) (Solution K) := do
  let termination ← run.ending
  ofTableau p run.final (outcome run.final termination) (earlier ++ run.steps)
    (phases run.iterations)

theorem ofRun_eq {p : Problem K m n}
    {outcome : Tableau K m p.width → Termination p.width → Outcome}
    {earlier : List (Step K m p.width)} {phases : Nat → Option PhaseCounts}
    {run : Run K m p.width} {termination : Termination p.width}
    (ending : run.ending = .ok termination) :
    ofRun p outcome earlier phases run =
      ofTableau p run.final (outcome run.final termination) (earlier ++ run.steps)
        (phases run.iterations) := by
  unfold ofRun
  rw [ending]
  rfl

/-- A run that has ended at proper basic columns is reported on. -/
theorem exists_ofRun {p : Problem K m n}
    (outcome : Tableau K m p.width → Termination p.width → Outcome)
    (earlier : List (Step K m p.width)) (phases : Nat → Option PhaseCounts)
    {run : Run K m p.width} {termination : Termination p.width}
    (ending : run.ending = .ok termination)
    (isColumn : ∀ row : Fin m, run.final.basis[row].val < p.width) :
    ∃ solution, ofRun p outcome earlier phases run = .ok solution ∧
      solution.outcome = outcome run.final termination ∧
      solution.trace = (earlier ++ run.steps).map (Step.report p.columnNames) := by
  rcases Tableau.exists_basicColumns? isColumn with ⟨columns, basic⟩
  rw [ofRun_eq ending]
  exact ⟨_, ofTableau_eq_ok_iff.mpr ⟨columns, basic, rfl⟩, rfl, rfl⟩

/-- A report on a run is one on its last tableau. -/
theorem exists_ofTableau_of_ofRun {p : Problem K m n}
    {outcome : Tableau K m p.width → Termination p.width → Outcome}
    {earlier : List (Step K m p.width)} {phases : Nat → Option PhaseCounts}
    {run : Run K m p.width} {solution : Solution K}
    (reported : ofRun p outcome earlier phases run = .ok solution) :
    ∃ stated, ofTableau p run.final stated (earlier ++ run.steps) (phases run.iterations) =
      .ok solution := by
  cases ending : run.ending with
  | error failure =>
    unfold ofRun at reported
    rw [ending] at reported
    exact nomatch reported
  | ok termination => exact ⟨_, (ofRun_eq ending).symm.trans reported⟩

/-- The outcome that a report on a run states is the one it reports. -/
theorem ofTableau_of_ofRun {p : Problem K m n}
    {outcome : Tableau K m p.width → Termination p.width → Outcome}
    {earlier : List (Step K m p.width)} {phases : Nat → Option PhaseCounts}
    {run : Run K m p.width} {solution : Solution K}
    (reported : ofRun p outcome earlier phases run = .ok solution) :
    ofTableau p run.final solution.outcome (earlier ++ run.steps) (phases run.iterations) =
      .ok solution := by
  rcases exists_ofTableau_of_ofRun reported with ⟨stated, shown⟩
  rwa [outcome_of_ofTableau shown]

theorem trace_of_ofRun {p : Problem K m n}
    {outcome : Tableau K m p.width → Termination p.width → Outcome}
    {earlier : List (Step K m p.width)} {phases : Nat → Option PhaseCounts}
    {run : Run K m p.width} {solution : Solution K}
    (reported : ofRun p outcome earlier phases run = .ok solution) :
    solution.trace = (earlier ++ run.steps).map (Step.report p.columnNames) := by
  rcases exists_ofTableau_of_ofRun reported with ⟨stated, shown⟩
  exact trace_of_ofTableau shown

end AnyArithmetic

variable {m n : Nat} {p : Problem ℚ m n} {T : Tableau ℚ m p.width}

/-- An answer from which a value can be read is a result with that value. -/
theorem exists_ok_of_map_toOption {R V : Type} {answer : Except (Failure ℚ) R} {read : R → V}
    {value : V} (found : answer.toOption.map read = some value) :
    ∃ result, answer = .ok result ∧ read result = value := by
  cases answer with
  | error cause => exact nomatch found
  | ok result => exact ⟨result, rfl, Option.some.inj found⟩

/-- What a report claims about a problem. -/
structure TrueOf (solution : Solution ℚ) (p : Problem ℚ m n) : Prop where
  optimal : solution.outcome = .optimal →
    p.Optimal (solution.decisionValues n) ∧
      solution.objective = some (p.objectiveValue (solution.decisionValues n))
  infeasible : solution.outcome = .infeasible → p.Infeasible
  unbounded : solution.outcome = .unbounded → p.Unbounded

/-- The report on a tableau with proper basic columns. -/
theorem exists_ofTableau (isColumn : ∀ row : Fin m, T.basis[row].val < p.width)
    (outcome : Outcome) (steps : List (Step ℚ m p.width)) (phases : Option PhaseCounts) :
    ∃ solution, ofTableau p T outcome steps phases = .ok solution ∧
      solution.outcome = outcome ∧ solution.phases = phases ∧
      solution.tableau = T.cells.toLists ∧
      solution.trace = steps.map (Step.report p.columnNames) ∧
      (outcome = .optimal →
        solution.decisionValues n = List.ofFn (p.decisionPart T.columnValue) ∧
        solution.objective =
          some (p.objectiveValue (List.ofFn (p.decisionPart T.columnValue)))) ∧
      (outcome ≠ .optimal → solution.objective = none) ∧
      (outcome = .optimal →
        solution.values = p.columnNames.toList.zip (List.ofFn T.columnValue)) := by
  rcases Tableau.exists_basicColumns? isColumn with ⟨columns, basic⟩
  refine ⟨_, ofTableau_eq_ok_iff.mpr ⟨columns, basic, rfl⟩, rfl, rfl, rfl, rfl, ?_, ?_, ?_⟩
  · rintro rfl
    have names : p.columnNames.toList.length = (List.ofFn T.columnValue).length := by simp
    unfold onBasis
    dsimp only
    rw [← List.ofFn_eq_map]
    constructor
    · simp only [decisionValues, if_true]
      rw [List.map_take, List.map_snd_zip names.ge, Problem.take_ofFn_eq]
    · simp only [if_true]
      rw [Problem.take_ofFn_eq]
  · intro other
    exact if_neg other
  · intro optimum
    rw [List.ofFn_eq_map]
    exact if_pos optimum

end Solution
end LinearProgram
