import LinearProgram.Proofs.Options
import LinearProgram.Proofs.Report
import LinearProgram.Proofs.Representation
import LinearProgram.Solver.BigM
import LinearProgram.Solver.Plain

namespace LinearProgram

/-!
# The methods with a single run

The plain method and the method of penalties make one run from the first
tableau.  A report of theirs belongs to the last tableau of that run, and an
optimum is reported only where the rules of the run find no entering column.
-/

section AnyArithmetic

variable {K : Type} [Scalar K] {m n : Nat}

/-- What the plain method checks before its run. -/
def Plain.check (p : Problem K m n) (options : Options K) : Except (Error K) Unit := do
  options.validate
  checkSenses p
  checkRhs p

/-- The report of the plain method on a problem it accepts. -/
def Plain.report (p : Problem K m n) (options : Options K) : Except (Failure K) (Solution K) :=
  Solution.ofRun p (fun _ => Termination.outcome) [] (fun _ => none)
    ((pass p options).run 0 (startTableau p options))

theorem Plain.solve_eq (p : Problem K m n) (options : Options K) :
    solve p options = Failure.guarded (check p options) (report p options) := by
  unfold solve Plain.run check
  cases options.validate with
  | error cause => rfl
  | ok _ =>
    cases checkSenses p with
    | error cause => rfl
    | ok _ =>
      cases checkRhs p with
      | error cause => rfl
      | ok _ => rfl

theorem Plain.ofTableau_of_solve {p : Problem K m n} {options : Options K} {solution : Solution K}
    (solved : solve p options = .ok solution) :
    Solution.ofTableau p ((pass p options).run 0 (startTableau p options)).final solution.outcome
      ((pass p options).run 0 (startTableau p options)).steps none = .ok solution := by
  rw [solve_eq] at solved
  exact Solution.ofTableau_of_ofRun (Failure.guarded_eq_ok_iff.mp solved).2

/-- The report of the method of penalties on a problem whose right hand sides
are nonnegative. -/
def BigM.report (p : Problem K m n) (options : Options K) : Except (Failure K) (Solution K) :=
  Solution.ofRun p (outcome p) [] (fun _ => none) (runNormalized p options)

theorem BigM.solve_eq (p : Problem K m n) (options : Options K) :
    solve p options = Failure.guarded options.validate (report p.normalized options) :=
  rfl

theorem BigM.ofTableau_of_solve {p : Problem K m n} {options : Options K} {solution : Solution K}
    (solved : solve p options = .ok solution) :
    Solution.ofTableau p.normalized (runNormalized p.normalized options).final solution.outcome
      (runNormalized p.normalized options).steps none = .ok solution := by
  rw [solve_eq] at solved
  exact Solution.ofTableau_of_ofRun (Failure.guarded_eq_ok_iff.mp solved).2

end AnyArithmetic

variable {m n : Nat} {p : Problem ℚ m n} {options : Options ℚ} {solution : Solution ℚ}

namespace Plain

/-- The run of the plain method on a problem it accepts. -/
def acceptedRun (p : Problem ℚ m n) (options : Options ℚ) : Run ℚ m p.width :=
  (pass p options).run 0 (startTableau p options)

theorem final_mem : (acceptedRun p options).final ∈
    (acceptedRun p options).tableaus (startTableau p options) :=
  (pass p options).final_mem_tableaus 0 (startTableau p options) options.maxIterations

theorem represents_final (positive : 0 < options.epsilon) :
    p.Represents .plain (acceptedRun p options).final ∧
      (acceptedRun p options).final.epsilon = options.epsilon :=
  p.represents_runFrom .plain positive (pass p options) 0 options.maxIterations _ final_mem

theorem checkSenses_eq_ok_iff : checkSenses p = .ok () ↔ ∀ row : Fin m, p.senses[row] = .le := by
  unfold checkSenses
  cases found : (List.finRange m).find? fun row => p.senses[row] ≠ .le with
  | some row =>
    have fault : p.senses[row] ≠ .le := by simpa using List.find?_some found
    exact ⟨nofun, fun upper => absurd (upper row) fault⟩
  | none =>
    have upper : ∀ row : Fin m, p.senses[row] = .le := by simpa using List.find?_eq_none.mp found
    exact ⟨fun _ => upper, fun _ => rfl⟩

theorem checkRhs_eq_ok_iff : checkRhs p = .ok () ↔ ∀ row : Fin m, 0 ≤ p.rhs[row] := by
  unfold checkRhs
  cases found : (List.finRange m).find? fun row => p.rhs[row] < 0 with
  | some row =>
    have fault : p.rhs[row] < 0 := by simpa using List.find?_some found
    exact ⟨nofun, fun feasible => absurd (feasible row) (not_le.mpr fault)⟩
  | none =>
    have feasible : ∀ row : Fin m, 0 ≤ p.rhs[row] := by simpa using List.find?_eq_none.mp found
    exact ⟨fun _ => feasible, fun _ => rfl⟩

theorem check_eq_ok_iff : check p options = .ok () ↔
    options.validate = .ok () ∧ (∀ row : Fin m, p.senses[row] = .le) ∧
      ∀ row : Fin m, 0 ≤ p.rhs[row] := by
  unfold check
  rw [← checkSenses_eq_ok_iff, ← checkRhs_eq_ok_iff]
  cases options.validate with
  | error cause => exact ⟨nofun, fun all => nomatch all.1⟩
  | ok _ =>
    cases checkSenses p with
    | error cause => exact ⟨nofun, fun all => nomatch all.2.1⟩
    | ok _ => exact ⟨fun accepted => ⟨rfl, rfl, accepted⟩, fun all => all.2.2⟩

theorem optimal_cases (solved : solve p options = .ok solution)
    (optimum : solution.outcome = .optimal) :
    0 < options.epsilon ∧ (∀ row : Fin m, p.senses[row] = .le) ∧ (∀ row : Fin m, 0 ≤ p.rhs[row]) ∧
      p.Represents .plain (acceptedRun p options).final ∧
      (acceptedRun p options).final.epsilon = options.epsilon ∧
      (acceptedRun p options).final.entering? (pass p options).allowed = none ∧
      solution.decisionValues n =
        List.ofFn (p.decisionPart (acceptedRun p options).final.columnValue) ∧
      solution.objective = some
        (p.objectiveValue (List.ofFn (p.decisionPart (acceptedRun p options).final.columnValue))) := by
  rw [solve_eq] at solved
  rcases Failure.guarded_eq_ok_iff.mp solved with ⟨accepted, reported⟩
  rcases check_eq_ok_iff.mp accepted with ⟨valid, senses, rhs⟩
  rcases Options.validate_eq_ok valid with ⟨positive, _, _⟩
  have represents := represents_final (p := p) positive
  obtain ⟨termination, ending, stops⟩ := (pass p options).runFrom_ending
    (p.canonical_tableau .plain options.epsilon) positive 0 options.maxIterations
  have finished : (acceptedRun p options).ending = .ok termination := ending
  obtain ⟨shown, found, outcome, _, _, _, values, _⟩ := Solution.exists_ofTableau
    represents.1.canonical.isColumn termination.outcome (acceptedRun p options).steps none
  cases found.symm.trans ((Solution.ofRun_eq finished).symm.trans reported)
  cases termination with
  | optimal =>
    exact ⟨positive, senses, rhs, represents.1, represents.2, stops, values rfl⟩
  | _ => exact nomatch outcome.symm.trans optimum

end Plain

namespace BigM

theorem final_mem : (runNormalized p options).final ∈
    (runNormalized p options).tableaus (startTableau p options) :=
  (pass p options).final_mem_tableaus 0 (startTableau p options) options.maxIterations

theorem represents_final (positive : 0 < options.epsilon) :
    p.Represents (.bigM options.bigM) (runNormalized p options).final ∧
      (runNormalized p options).final.epsilon = options.epsilon :=
  p.represents_runFrom (.bigM options.bigM) positive (pass p options) 0 options.maxIterations _
    final_mem

/-! ## Reports of the method of penalties -/

theorem outcome_eq_optimal {T : Tableau ℚ m p.width} {termination : Termination p.width}
    (optimum : outcome p T termination = .optimal) :
    termination = .optimal ∧
      ∀ row : Fin m, p.isArtificialColumn T.basis[row] = true → T.rhs row ≤ T.epsilon := by
  cases termination with
  | optimal =>
    unfold outcome at optimum
    dsimp only at optimum
    split at optimum
    · exact nomatch optimum
    · next nowhere =>
      have small := List.find?_eq_none.mp (Option.not_isSome_iff_eq_none.mp nowhere)
      refine ⟨rfl, fun row => ?_⟩
      have bounded := small row (List.mem_finRange row)
      simpa using bounded
  | _ => exact nomatch optimum

theorem outcome_eq_infeasible {T : Tableau ℚ m p.width} {termination : Termination p.width}
    (none : outcome p T termination = .infeasible) :
    termination = .optimal ∧
      ∃ row : Fin m, p.isArtificialColumn T.basis[row] = true ∧ T.epsilon < T.rhs row := by
  cases termination with
  | optimal =>
    unfold outcome at none
    dsimp only at none
    split at none
    · next somewhere =>
      rcases Option.isSome_iff_exists.mp somewhere with ⟨row, found⟩
      have large := List.find?_some found
      rw [Bool.and_eq_true, decide_eq_true_eq] at large
      exact ⟨rfl, row, large⟩
    · exact nomatch none
  | _ => exact nomatch none

theorem outcome_eq_unbounded {T : Tableau ℚ m p.width} {termination : Termination p.width}
    (endless : outcome p T termination = .unbounded) :
    ∃ column, termination = .unbounded column := by
  cases termination with
  | unbounded column => exact ⟨column, rfl⟩
  | optimal =>
    unfold outcome at endless
    dsimp only at endless
    split at endless <;> exact nomatch endless
  | iterationLimit => exact nomatch endless

/-- A report of the method belongs to the last tableau of its run, which ended
with the given termination. -/
structure Concludes (p : Problem ℚ m n) (options : Options ℚ) (solution : Solution ℚ)
    (termination : Termination p.normalized.width) : Prop where
  ending : (runNormalized p.normalized options).ending = .ok termination
  stops : (pass p.normalized options).StopsAt (runNormalized p.normalized options).final termination
  outcome_eq : solution.outcome =
    outcome p.normalized (runNormalized p.normalized options).final termination
  point : solution.outcome = .optimal →
    solution.decisionValues n = List.ofFn
        (p.normalized.decisionPart (runNormalized p.normalized options).final.columnValue) ∧
      solution.objective = some (p.objectiveValue (List.ofFn
        (p.normalized.decisionPart (runNormalized p.normalized options).final.columnValue)))
  values : solution.outcome = .optimal →
    solution.values = p.normalized.columnNames.toList.zip
      (List.ofFn (runNormalized p.normalized options).final.columnValue)

/-- With valid options the method always reports. -/
theorem exists_concludes (p : Problem ℚ m n) {options : Options ℚ}
    (valid : options.validate = .ok ()) :
    ∃ solution, solve p options = .ok solution ∧
      ∃ termination, Concludes p options solution termination := by
  rcases Options.validate_eq_ok valid with ⟨positive, _, _⟩
  have represents := represents_final (p := p.normalized) positive
  obtain ⟨termination, ending, stops⟩ := (pass p.normalized options).runFrom_ending
    (p.normalized.canonical_tableau (.bigM options.bigM) options.epsilon) positive 0
    options.maxIterations
  have finished : (runNormalized p.normalized options).ending = .ok termination := ending
  obtain ⟨solution, reported, stated, _, _, _, point, _, values⟩ := Solution.exists_ofTableau
    represents.1.canonical.isColumn
    (outcome p.normalized (runNormalized p.normalized options).final termination)
    (runNormalized p.normalized options).steps none
  refine ⟨solution, ?_, termination, finished, stops, stated,
    fun optimum => point (stated.symm.trans optimum),
    fun optimum => values (stated.symm.trans optimum)⟩
  unfold solve
  simp only [valid, Failure.lift, Except.mapError, bind, Except.bind, finished]
  exact reported

theorem validate_of_solve (solved : solve p options = .ok solution) :
    options.validate = .ok () := by
  rw [solve_eq] at solved
  exact (Failure.guarded_eq_ok_iff.mp solved).1

theorem concludes_of_solve (solved : solve p options = .ok solution) :
    ∃ termination, Concludes p options solution termination := by
  rcases exists_concludes p (validate_of_solve solved) with ⟨other, reported, concludes⟩
  cases solved.symm.trans reported
  exact concludes

theorem epsilon_pos_of_solve (solved : solve p options = .ok solution) : 0 < options.epsilon :=
  (Options.validate_eq_ok (validate_of_solve solved)).1

/-- A run that ends where no column improves is reported as an optimum or as infeasible. -/
theorem optimal_or_infeasible_of_ending (solved : solve p options = .ok solution)
    (ending : (runNormalized p.normalized options).ending = .ok .optimal) :
    solution.outcome = .optimal ∨ solution.outcome = .infeasible := by
  rcases concludes_of_solve solved with ⟨termination, concludes⟩
  cases ending.symm.trans concludes.ending
  rw [concludes.outcome_eq]
  unfold outcome
  dsimp only
  split
  · exact Or.inr rfl
  · exact Or.inl rfl

/-- An optimum of the method of penalties holds no artificial column above the tolerance. -/
theorem optimal_cases (solved : solve p options = .ok solution)
    (optimum : solution.outcome = .optimal) :
    0 < options.epsilon ∧
      p.normalized.Represents (.bigM options.bigM) (runNormalized p.normalized options).final ∧
      (runNormalized p.normalized options).final.epsilon = options.epsilon ∧
      (runNormalized p.normalized options).final.entering?
        (pass p.normalized options).allowed = none ∧
      (∀ row : Fin m,
        p.normalized.isArtificialColumn (runNormalized p.normalized options).final.basis[row] →
        (runNormalized p.normalized options).final.rhs row ≤ options.epsilon) ∧
      solution.decisionValues n = List.ofFn
        (p.normalized.decisionPart (runNormalized p.normalized options).final.columnValue) ∧
      solution.objective = some (p.objectiveValue (List.ofFn
        (p.normalized.decisionPart (runNormalized p.normalized options).final.columnValue))) := by
  have positive := epsilon_pos_of_solve solved
  have represents := represents_final (p := p.normalized) positive
  rcases concludes_of_solve solved with ⟨termination, concludes⟩
  rcases outcome_eq_optimal (concludes.outcome_eq.symm.trans optimum) with ⟨rfl, small⟩
  exact ⟨positive, represents.1, represents.2, concludes.stops,
    fun row artificial => (small row artificial).trans_eq represents.2, concludes.point optimum⟩

end BigM

end LinearProgram
