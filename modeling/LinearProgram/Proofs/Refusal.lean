import LinearProgram.Proofs.Duality.Analysis
import LinearProgram.Proofs.SingleRun
import LinearProgram.Proofs.TwoPhase.Correctness

namespace LinearProgram

/-!
# Which requests are refused

With exact numbers a solver refuses what it says it refuses: options that are
not valid, for the plain method a row that it has no basic column for, and for
the comparison with the dual a problem without constraints.  Nothing goes wrong
later.  The row that leaves and the column that replaces an artificial one are
looked for among the entries above the tolerance, which a pivot accepts; every
basic column stays a column of the problem; and the dual of a problem has as
many columns as its recoveries read.
-/

/-! ## Reasons -/

namespace Failure

variable {K α : Type} {answer : Except (Failure K) α} {refused : Error K → Prop}

/-- An answer that is refused for the given causes and does not fail otherwise. -/
def RefusedFor (answer : Except (Failure K) α) (refused : Error K → Prop) : Prop :=
  ∀ failure, answer = .error failure ↔ ∃ cause, refused cause ∧ failure = .error cause

theorem RefusedFor.of_answered {value : α} (answered : answer = .ok value)
    (never : ∀ cause, ¬ refused cause) : RefusedFor answer refused := by
  intro failure
  constructor
  · intro failed
    exact nomatch answered.symm.trans failed
  · rintro ⟨cause, reason, _⟩
    exact absurd reason (never cause)

theorem RefusedFor.of_refused {cause : Error K} (failed : answer = .error (.error cause))
    (only : ∀ other, refused other ↔ other = cause) : RefusedFor answer refused := by
  intro failure
  rw [failed]
  constructor
  · rintro ⟨⟩
    exact ⟨cause, (only cause).mpr rfl, rfl⟩
  · rintro ⟨other, reason, rfl⟩
    rw [(only other).mp reason]

/-- A request that is always answered after its check is refused by the check. -/
theorem refusedFor_guarded {check : Except (Error K) Unit}
    (reasons : ∀ cause, check = .error cause ↔ refused cause)
    (answered : check = .ok () → ∃ value, guarded check answer = .ok value) :
    RefusedFor (guarded check answer) refused := by
  cases checked : check with
  | error cause =>
    refine .of_refused rfl fun other => ?_
    rw [← reasons, checked, Except.error.injEq, eq_comm]
  | ok _ =>
    rcases answered checked with ⟨value, found⟩
    refine .of_answered (checked ▸ found) fun cause reason => ?_
    exact nomatch checked.symm.trans ((reasons cause).mpr reason)

end Failure

/-! ## The plain method -/

variable {m n : Nat}

/-- A search for a fault among the rows complains about the first one. -/
theorem firstFault_eq_error_iff {fault : Fin m → Bool} {reason : Fin m → Error ℚ}
    {cause : Error ℚ} :
    (match (List.finRange m).find? fault with
      | some row => Except.error (reason row)
      | none => Except.ok ()) = .error cause ↔
      ∃ row, fault row = true ∧ (∀ earlier < row, fault earlier = false) ∧ cause = reason row := by
  rw [← Fin.find?_eq_find?_finRange]
  cases found : Fin.find? fault with
  | none =>
    constructor
    · exact nofun
    · rintro ⟨row, here, _⟩
      rw [Fin.find?_eq_none_iff.mp found row] at here
      exact nomatch here
  | some row =>
    constructor
    · rintro ⟨⟩
      rcases Fin.find?_eq_some_iff.mp found with ⟨here, first⟩
      exact ⟨row, here, first, rfl⟩
    · rintro ⟨other, here, first, rfl⟩
      cases found.symm.trans (Fin.find?_eq_some_iff.mpr ⟨here, first⟩)
      rfl

namespace Plain

variable {p : Problem ℚ m n} {options : Options ℚ}

/-- The reasons of the plain method.  Options come before rows, the senses of
all rows before their right hand sides, and a complaint about a row names the
first one that deserves it. -/
inductive Refuses (p : Problem ℚ m n) (options : Options ℚ) : Error ℚ → Prop where
  | options {cause : Error ℚ} (invalid : options.validate = .error cause) : Refuses p options cause
  | sense (valid : options.validate = .ok ()) {row : Fin m} (other : p.senses[row] ≠ .le)
      (first : ∀ earlier < row, p.senses[earlier] = .le) :
      Refuses p options (.unsupportedSense row)
  | rhs (valid : options.validate = .ok ()) (upper : ∀ row : Fin m, p.senses[row] = .le)
      {row : Fin m} (negative : p.rhs[row] < 0) (first : ∀ earlier < row, 0 ≤ p.rhs[earlier]) :
      Refuses p options (.negativeRhs row)

theorem checkSenses_eq_error_iff {cause : Error ℚ} :
    checkSenses p = .error cause ↔ ∃ row : Fin m, p.senses[row] ≠ .le ∧
      (∀ earlier < row, p.senses[earlier] = .le) ∧ cause = .unsupportedSense row := by
  refine firstFault_eq_error_iff.trans ?_
  simp only [decide_eq_true_eq, decide_eq_false_iff_not, not_not]

theorem checkRhs_eq_error_iff {cause : Error ℚ} :
    checkRhs p = .error cause ↔ ∃ row : Fin m, p.rhs[row] < 0 ∧
      (∀ earlier < row, 0 ≤ p.rhs[earlier]) ∧ cause = .negativeRhs row := by
  refine firstFault_eq_error_iff.trans ?_
  simp only [decide_eq_true_eq, decide_eq_false_iff_not, not_lt]

theorem check_eq_error_iff {cause : Error ℚ} :
    check p options = .error cause ↔ Refuses p options cause := by
  constructor
  · intro refused
    unfold check at refused
    cases valid : options.validate with
    | error invalid =>
      rw [valid] at refused
      cases refused
      exact .options valid
    | ok _ =>
      rw [valid] at refused
      cases senses : checkSenses p with
      | error sense =>
        rw [senses] at refused
        cases refused
        rcases checkSenses_eq_error_iff.mp senses with ⟨row, other, first, rfl⟩
        exact .sense valid other first
      | ok _ =>
        rw [senses] at refused
        rcases checkRhs_eq_error_iff.mp refused with ⟨row, negative, first, rfl⟩
        exact .rhs valid (checkSenses_eq_ok_iff.mp senses) negative first
  · intro reason
    unfold check
    cases reason with
    | options invalid =>
      rw [invalid]
      rfl
    | sense valid other first =>
      rw [valid, checkSenses_eq_error_iff.mpr ⟨_, other, first, rfl⟩]
      rfl
    | rhs valid upper negative first =>
      rw [valid, checkSenses_eq_ok_iff.mpr upper]
      exact checkRhs_eq_error_iff.mpr ⟨_, negative, first, rfl⟩

theorem exists_solve_of_check (accepted : check p options = .ok ()) :
    ∃ solution, solve p options = .ok solution := by
  rcases Options.validate_eq_ok (check_eq_ok_iff.mp accepted).1 with ⟨positive, _, _⟩
  obtain ⟨termination, ending, _⟩ := (pass p options).runFrom_ending
    (p.canonical_tableau .plain options.epsilon) positive 0 options.maxIterations
  obtain ⟨solution, reported, _⟩ := Solution.exists_ofRun (fun _ => Termination.outcome) []
    (fun _ => none) ending (represents_final (p := p) positive).1.canonical.isColumn
  rw [solve_eq]
  exact ⟨solution, Failure.guarded_eq_ok_iff.mpr ⟨accepted, reported⟩⟩

theorem refusedFor_solve (p : Problem ℚ m n) (options : Options ℚ) :
    Failure.RefusedFor (solve p options) (Refuses p options) := by
  rw [solve_eq]
  refine Failure.refusedFor_guarded (fun cause => check_eq_error_iff) fun accepted => ?_
  rw [← solve_eq]
  exact exists_solve_of_check accepted

end Plain

/-! ## The methods with artificial columns -/

theorem BigM.refusedFor_solve (p : Problem ℚ m n) (options : Options ℚ) :
    Failure.RefusedFor (solve p options) fun cause => options.validate = .error cause := by
  rw [solve_eq]
  refine Failure.refusedFor_guarded (fun cause => Iff.rfl) fun valid => ?_
  rw [← solve_eq]
  exact (exists_concludes p valid).imp fun _ both => both.1

theorem TwoPhase.refusedFor_solve (p : Problem ℚ m n) (options : Options ℚ) :
    Failure.RefusedFor (solve p options) fun cause => options.validate = .error cause := by
  rw [solve_eq]
  refine Failure.refusedFor_guarded (fun cause => Iff.rfl) fun valid => ?_
  rw [← solve_eq]
  exact (exists_concludes p valid).imp fun _ both => both.1

/-! ## The comparison with the dual -/

namespace Duality

/-- The reasons of the comparison with the dual. -/
inductive Refuses (m : Nat) (options : Options ℚ) : Error ℚ → Prop where
  | options {cause : Error ℚ} (invalid : options.validate = .error cause) : Refuses m options cause
  | unconstrained (valid : options.validate = .ok ()) (empty : m = 0) :
      Refuses m options .noVariables

theorem dual_of_unconstrained (p : Problem ℚ 0 n) : p.dual = .error .noVariables :=
  dif_neg (Nat.lt_irrefl 0)

theorem refusedFor_analyze (p : Problem ℚ m n) (options : Options ℚ) :
    Failure.RefusedFor (analyze p options) (Refuses m options) := by
  cases valid : options.validate with
  | error cause =>
    have failed : analyze p options = .error (.error cause) := by
      unfold analyze
      rw [valid]
      rfl
    refine .of_refused failed fun other => ⟨fun reason => ?_, fun same => ?_⟩
    · cases reason with
      | options invalid => exact Except.error.inj (invalid.symm.trans valid)
      | unconstrained contrary _ => exact nomatch contrary.symm.trans valid
    · subst same
      exact .options valid
  | ok _ =>
    have settled : ∀ cause, ¬ options.validate = .error cause :=
      fun cause invalid => nomatch invalid.symm.trans valid
    rcases Nat.eq_zero_or_pos m with rfl | constrained
    · have failed : analyze p options = .error (.error .noVariables) := by
        unfold analyze
        rw [valid, dual_of_unconstrained]
        rfl
      refine .of_refused failed fun other => ⟨fun reason => ?_, fun same => ?_⟩
      · cases reason with
        | options invalid => exact absurd invalid (settled other)
        | unconstrained _ _ => rfl
      · subst same
        exact .unconstrained valid rfl
    · rcases exists_analyze p constrained valid with ⟨report, answered⟩
      refine .of_answered answered fun cause reason => ?_
      cases reason with
      | options invalid => exact settled cause invalid
      | unconstrained _ empty => exact constrained.ne' empty

end Duality
/-! ## Runs -/

theorem TwoPhase.driveOut_unbroken {p : Problem ℚ m n} {T : Tableau ℚ m p.width}
    (canonical : T.Canonical) (positive : 0 < T.epsilon) (pass : Pass p.width) (index : Nat)
    (rows : List (Fin m)) : (driveOut p pass index T rows).failure? = none := by
  obtain ⟨unbroken, _, _⟩ := driveOut_invariant pass (fun _ => True) (fun _ _ => True)
    (fun _ _ _ _ _ => trivial) (fun _ _ _ _ _ _ _ _ _ => trivial)
    (fun _ _ _ _ _ _ _ => trivial) index rows canonical positive trivial fun _ _ => trivial
  exact unbroken

/-- No run from the first tableau of a problem fails, whatever its objective,
its tolerance, the columns it may use and its cap, and no artificial column at
its end fails to be driven out. -/
theorem Problem.run_unbroken (p : Problem ℚ m n) (mode : ObjectiveMode ℚ) {epsilon : ℚ}
    (positive : 0 < epsilon) (pass : Pass p.width) (index cap : Nat) :
    (∃ termination,
        (pass.runFrom index (p.tableau mode epsilon) cap).ending = .ok termination) ∧
      ∀ later rows, (TwoPhase.driveOut p pass later
        (pass.runFrom index (p.tableau mode epsilon) cap).final rows).failure? = none := by
  obtain ⟨termination, ending, _⟩ :=
    pass.runFrom_ending (p.canonical_tableau mode epsilon) positive index cap
  obtain ⟨represents, same⟩ := p.represents_runFrom mode positive pass index cap _
    (pass.final_mem_tableaus index (p.tableau mode epsilon) cap)
  have tolerant := positive.trans_eq same.symm
  exact ⟨⟨termination, ending⟩, fun later rows =>
    TwoPhase.driveOut_unbroken represents.canonical tolerant pass later rows⟩

/-- **The solvers fail for the reasons they give, and for no others.**  The
methods with artificial columns refuse invalid options, the plain method and
the comparison with the dual have the reasons of their own, and neither a small
pivot element nor an index out of range ever ends a run. -/
theorem solvers_refuse (p : Problem ℚ m n) (options : Options ℚ) :
    Failure.RefusedFor (BigM.solve p options) (fun cause => options.validate = .error cause) ∧
      Failure.RefusedFor (TwoPhase.solve p options)
        (fun cause => options.validate = .error cause) ∧
      Failure.RefusedFor (Plain.solve p options) (Plain.Refuses p options) ∧
      Failure.RefusedFor (Duality.analyze p options) (Duality.Refuses m options) ∧
      ∀ (mode : ObjectiveMode ℚ) (epsilon : ℚ), 0 < epsilon →
        ∀ (pass : Pass p.width) (index cap : Nat),
          (∃ termination,
              (pass.runFrom index (p.tableau mode epsilon) cap).ending = .ok termination) ∧
            ∀ later rows, (TwoPhase.driveOut p pass later
              (pass.runFrom index (p.tableau mode epsilon) cap).final rows).failure? = none :=
  ⟨BigM.refusedFor_solve p options, TwoPhase.refusedFor_solve p options,
    Plain.refusedFor_solve p options, Duality.refusedFor_analyze p options,
    fun mode _ positive pass index cap => p.run_unbroken mode positive pass index cap⟩

/-- The plain method refuses the redundant problem for its first row. -/
theorem solvers_refuse_redundantProblem :
    (0 : ℚ) < 1 / 1000 ∧
      Plain.solve TwoPhase.redundantProblem Options.default =
        .error (.error (.unsupportedSense 0)) ∧
      (∀ failure, TwoPhase.solve TwoPhase.redundantProblem Options.default ≠ .error failure) ∧
      ∀ (pass : Pass TwoPhase.redundantProblem.width) (cap : Nat), ∃ termination,
        (pass.runFrom 0 (TwoPhase.redundantProblem.tableau .phaseOne (1 / 1000)) cap).ending =
          .ok termination := by
  have positive : (0 : ℚ) < 1 / 1000 := by decide +kernel
  have valid : Options.default.validate (K := ℚ) = .ok () := by decide +kernel
  obtain ⟨_, twoPhase, plain, _, runs⟩ := solvers_refuse TwoPhase.redundantProblem Options.default
  have lowerBound : TwoPhase.redundantProblem.senses[(0 : Fin 4)] ≠ .le := by decide
  refine ⟨positive, (plain _).mpr ⟨_, .sense valid lowerBound nofun, rfl⟩, ?_, ?_⟩
  · intro failure failed
    rcases (twoPhase failure).mp failed with ⟨cause, invalid, _⟩
    exact nomatch invalid.symm.trans valid
  · intro pass cap
    exact (runs .phaseOne (1 / 1000) positive pass 0 cap).1

end LinearProgram
