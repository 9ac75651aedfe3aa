import LinearProgram.Proofs.SingleRun
import LinearProgram.Proofs.Simplex.Cap
import LinearProgram.Proofs.TwoPhase.Correctness

namespace LinearProgram

/-!
# The cap on the number of pivots

Raising the cap of a method changes nothing in a report that does not complain
about it, and otherwise only adds pivots after the ones that were made.  This
is because a run under a larger cap resumes the run under the smaller one.  In
the method of two phases the pivots between the phases are made under no cap,
and a first phase that stops at the cap is not followed by them.
-/

variable {K : Type}

/-! ## Answers -/

/-- The first answer is the second one, cut short by a cap. -/
structure CutShort (short long : Except (Failure K) (Solution K)) : Prop where
  trace_prefix : ∀ first second, short = .ok first → long = .ok second →
    first.trace <+: second.trace
  settled : (∀ first, short = .ok first → first.outcome ≠ .iterationLimit) → long = short

namespace CutShort

variable {short long : Except (Failure K) (Solution K)}

theorem refl (answer : Except (Failure K) (Solution K)) : CutShort answer answer where
  trace_prefix := by
    intro first second reported again
    cases reported.symm.trans again
    exact List.prefix_refl first.trace
  settled := fun _ => rfl

theorem guarded (cut : CutShort short long) (check : Except (Error K) Unit) :
    CutShort (Failure.guarded check short) (Failure.guarded check long) := by
  cases check with
  | error cause => exact refl _
  | ok _ => exact cut

/-- An answer that complains about the cap only has to show the first pivots. -/
theorem of_limit {stopped : Solution K} (reported : short = .ok stopped)
    (limit : stopped.outcome = .iterationLimit)
    (starts : ∀ second, long = .ok second → stopped.trace <+: second.trace) :
    CutShort short long where
  trace_prefix := by
    intro first second same later
    cases reported.symm.trans same
    exact starts second later
  settled := fun other => absurd limit (other stopped reported)

end CutShort

variable [Scalar K] {m n : Nat}

/-! ## Runs -/

theorem Problem.isColumn_tableau (p : Problem K m n) (mode : ObjectiveMode K) (epsilon : K)
    (row : Fin m) : (p.tableau mode epsilon).basis[row].val < p.width := by
  rw [p.basis_tableau]
  exact (p.home row).isLt

namespace Solution

variable {p : Problem K m n} {outcome : Tableau K m p.width → Termination p.width → Outcome}
  (limits : ∀ T, outcome T .iterationLimit = .iterationLimit)
  (earlier : List (Step K m p.width)) (phases : Nat → Option PhaseCounts)
include limits

/-- The report on a run under a cap is cut short by the cap, if anything. -/
theorem cutShort_ofRun (pass : Pass p.width) (index : Nat) {T : Tableau K m p.width}
    (isColumn : ∀ row : Fin m, T.basis[row].val < p.width) (cap more : Nat) :
    CutShort (ofRun p outcome earlier phases (pass.runFrom index T cap))
      (ofRun p outcome earlier phases (pass.runFrom index T (cap + more))) := by
  rw [pass.runFrom_add]
  by_cases limit : (pass.runFrom index T cap).ending = .ok .iterationLimit
  · obtain ⟨stopped, reported, stated, trace⟩ := exists_ofRun outcome earlier phases limit
      (pass.isColumn_runFrom index cap isColumn)
    refine .of_limit reported (stated.trans (limits _)) fun second later => ?_
    rw [trace, trace_of_ofRun later, Pass.resume_of_limit limit, ← List.append_assoc]
    exact (List.prefix_append _ _).map _
  · rw [Pass.resume_of_ne_limit limit]
    exact CutShort.refl _

end Solution

/-! ## The three methods -/

/-- The same options with another cap. -/
def Options.withCap (options : Options K) (cap : Nat) : Options K :=
  { options with maxIterations := cap }

theorem Plain.cutShort_solve (p : Problem K m n) (options : Options K) (cap more : Nat) :
    CutShort (solve p (options.withCap cap)) (solve p (options.withCap (cap + more))) := by
  have capped : ∀ limit : Nat, report p (options.withCap limit) =
      Solution.ofRun p (fun _ => Termination.outcome) [] (fun _ => none)
        ((pass p options).runFrom 0 (startTableau p options) limit) := by
    intro limit
    exact congrArg _ ((pass p options).run_withCap limit 0 (startTableau p options))
  rw [solve_eq, solve_eq, capped, capped]
  apply CutShort.guarded
  exact Solution.cutShort_ofRun (fun _ => rfl) _ _ (pass p options) 0
    (p.isColumn_tableau .plain options.epsilon) cap more

theorem BigM.cutShort_solve (p : Problem K m n) (options : Options K) (cap more : Nat) :
    CutShort (solve p (options.withCap cap)) (solve p (options.withCap (cap + more))) := by
  have capped : ∀ limit : Nat, report p.normalized (options.withCap limit) =
      Solution.ofRun p.normalized (outcome p.normalized) [] (fun _ => none)
        ((pass p.normalized options).runFrom 0 (startTableau p.normalized options) limit) := by
    intro limit
    exact congrArg _ ((pass p.normalized options).run_withCap limit 0
      (startTableau p.normalized options))
  rw [solve_eq, solve_eq, capped, capped]
  apply CutShort.guarded
  exact Solution.cutShort_ofRun (fun _ => rfl) _ _ (pass p.normalized options) 0
    (p.normalized.isColumn_tableau (.bigM options.bigM) options.epsilon) cap more

namespace TwoPhase

section Capped

variable (p : Problem K m n) (options : Options K)

/-- Driving artificial columns out is subject to no cap. -/
theorem cleanupAfter_withCap (cap : Nat) (first : Run K m p.width) :
    cleanupAfter p (options.withCap cap) first = cleanupAfter p options first := by
  unfold cleanupAfter
  delta driveOut
  rfl

theorem secondRunAfter_withCap (cap : Nat) (first : Run K m p.width)
    (cleanup : Cleanup K m p.width) :
    secondRunAfter p (options.withCap cap) first cleanup =
      (secondPass p options).runFrom (first.iterations + cleanup.steps.length)
        (secondTableau p cleanup) cap :=
  (secondPass p options).run_withCap cap _ (secondTableau p cleanup)

end Capped

theorem isColumn_driveOut (p : Problem K m n) (pass : Pass p.width) (index : Nat)
    {T : Tableau K m p.width} (rows : List (Fin m))
    (isColumn : ∀ row : Fin m, T.basis[row].val < p.width) (row : Fin m) :
    (driveOut p pass index T rows).final.basis[row].val < p.width := by
  fun_induction driveOut p pass index T rows with
  | case2 index T own rows artificial nothing ih => exact ih isColumn
  | case4 index T own rows artificial column found step recorded ih =>
    exact ih ((Pass.records_of_pivot recorded).isColumn_next isColumn)
  | case5 index T own rows other ih => exact ih isColumn
  | _ => exact isColumn row

variable {p : Problem K m n} {options : Options K}

/-- However the method goes on, its report starts with the pivots of the first phase. -/
theorem firstSteps_prefix {first : Run K m p.width}
    (run : (firstPass p options).run 0 (firstTableau p options) = first) {solution : Solution K}
    (reported : report p (courseNormalized p options) = .ok solution) :
    first.steps.map (Step.report p.columnNames) <+: solution.trace := by
  rcases report_cases run reported with ⟨outcome, shown⟩ | ⟨outcome, _, _, rfl, rfl, shown⟩
  · rw [Solution.trace_of_ofTableau shown]
  · rw [Solution.trace_of_ofTableau shown, List.append_assoc]
    exact (List.prefix_append _ _).map _

/-- After an optimum of the first phase only the second phase is under the cap. -/
theorem cutShort_continueFrom (p : Problem K m n) (options : Options K) {first : Run K m p.width}
    (isColumn : ∀ row : Fin m, first.final.basis[row].val < p.width) (cap more : Nat) :
    CutShort (report p (continueFrom p (options.withCap cap) first))
      (report p (continueFrom p (options.withCap (cap + more)) first)) := by
  by_cases large : options.epsilon < -first.final.objectiveRhs
  · have course : ∀ limit : Nat, continueFrom p (options.withCap limit) first =
        .infeasible first (-first.final.objectiveRhs) :=
      fun limit => continueFrom_of_large large
    rw [course, course]
    exact CutShort.refl _
  · cases broken : (cleanupAfter p options first).failure? with
    | some failure =>
      have course : ∀ limit : Nat, continueFrom p (options.withCap limit) first =
          .broken first (cleanupAfter p options first) failure := by
        intro limit
        have small : ¬ (options.withCap limit).epsilon < -first.final.objectiveRhs := large
        rw [← cleanupAfter_withCap p options limit first] at broken ⊢
        exact continueFrom_of_broken small broken
      rw [course, course]
      exact CutShort.refl _
    | none =>
      have course : ∀ limit : Nat, continueFrom p (options.withCap limit) first =
          .completed first (cleanupAfter p options first)
            ((secondPass p options).runFrom
              (first.iterations + (cleanupAfter p options first).steps.length)
              (secondTableau p (cleanupAfter p options first)) limit) := by
        intro limit
        have small : ¬ (options.withCap limit).epsilon < -first.final.objectiveRhs := large
        rw [← secondRunAfter_withCap]
        rw [← cleanupAfter_withCap p options limit first] at broken ⊢
        exact continueFrom_of_unbroken small broken
      rw [course, course, report_completed, report_completed]
      refine Solution.cutShort_ofRun (fun T => ?_) _ _ (secondPass p options) _ ?_ cap more
      · rfl
      · exact isColumn_driveOut p (firstPass p options) _ _ isColumn

theorem cutShort_report (p : Problem K m n) (options : Options K) (cap more : Nat) :
    CutShort (report p (courseNormalized p (options.withCap cap)))
      (report p (courseNormalized p (options.withCap (cap + more)))) := by
  obtain ⟨first, under⟩ : ∃ first,
      (firstPass p options).runFrom 0 (firstTableau p options) cap = first := ⟨_, rfl⟩
  have run : (firstPass p (options.withCap cap)).run 0 (firstTableau p options) = first :=
    ((firstPass p options).run_withCap cap 0 (firstTableau p options)).trans under
  have longer : (firstPass p (options.withCap (cap + more))).run 0 (firstTableau p options) =
      (firstPass p options).resume 0 first more := by
    rw [← under, ← Pass.runFrom_add]
    exact (firstPass p options).run_withCap (cap + more) 0 (firstTableau p options)
  have isColumn : ∀ row : Fin m, first.final.basis[row].val < p.width := by
    rw [← under]
    exact (firstPass p options).isColumn_runFrom 0 cap
      (p.isColumn_tableau .phaseOne options.epsilon)
  by_cases limit : first.ending = .ok .iterationLimit
  · have other : first.ending ≠ .ok .optimal := limit ▸ nofun
    rw [courseNormalized_of_ne_optimal run other, report_stopped]
    obtain ⟨stopped, reported, stated, trace⟩ := Solution.exists_ofRun
      (fun _ => Termination.outcome) [] (fun count => some ⟨count, 0⟩) limit isColumn
    refine .of_limit reported stated fun second later => ?_
    have starts := firstSteps_prefix longer later
    rw [Pass.resume_of_limit limit, List.map_append] at starts
    rw [trace]
    exact (List.prefix_append _ _).trans starts
  · rw [Pass.resume_of_ne_limit limit] at longer
    by_cases optimum : first.ending = .ok .optimal
    · rw [courseNormalized_of_optimal run optimum, courseNormalized_of_optimal longer optimum]
      exact cutShort_continueFrom p options isColumn cap more
    · rw [courseNormalized_of_ne_optimal run optimum, courseNormalized_of_ne_optimal longer optimum]
      exact CutShort.refl _

theorem cutShort_solve (p : Problem K m n) (options : Options K) (cap more : Nat) :
    CutShort (solve p (options.withCap cap)) (solve p (options.withCap (cap + more))) := by
  rw [solve_eq, solve_eq]
  exact (cutShort_report p.normalized options cap more).guarded options.validate

end TwoPhase

/-- **A cap only cuts short.**  Each method under a smaller cap shows the first
pivots of the method under a larger one, and the same answer unless it
complains about the cap.  A run that stopped at its cap and is then resumed is
one run under the sum of the two caps. -/
theorem solvers_cutShort (p : Problem K m n) (options : Options K) {cap larger : Nat}
    (le : cap ≤ larger) :
    CutShort (Plain.solve p (options.withCap cap)) (Plain.solve p (options.withCap larger)) ∧
      CutShort (BigM.solve p (options.withCap cap)) (BigM.solve p (options.withCap larger)) ∧
      CutShort (TwoPhase.solve p (options.withCap cap))
        (TwoPhase.solve p (options.withCap larger)) ∧
      ∀ {rows N : Nat} (pass : Pass N) (T : Tableau K rows N) (index spent more : Nat),
        ((pass.withCap spent).run index T).ending = .ok .iterationLimit →
          Pass.Splits ((pass.withCap (spent + more)).run index T)
            ((pass.withCap spent).run index T)
            ((pass.withCap more).run (index + ((pass.withCap spent).run index T).iterations)
              ((pass.withCap spent).run index T).final) := by
  obtain ⟨more, rfl⟩ := Nat.exists_eq_add_of_le le
  exact ⟨Plain.cutShort_solve p options cap more, BigM.cutShort_solve p options cap more,
    TwoPhase.cutShort_solve p options cap more,
    fun pass T index spent more limit => pass.splits_of_limit index spent more rfl limit⟩

/-- The redundant problem under a cap that its first phase reaches and under
one that lets both phases end. -/
theorem redundantProblem_cutShort :
    let short := TwoPhase.solve TwoPhase.redundantProblem ((Options.default (K := ℚ)).withCap 2)
    let long := TwoPhase.solve TwoPhase.redundantProblem ((Options.default (K := ℚ)).withCap 3)
    let pass := TwoPhase.firstPass TwoPhase.redundantProblem.normalized (Options.default (K := ℚ))
    let start := TwoPhase.firstTableau TwoPhase.redundantProblem.normalized Options.default
    2 ≤ 3 ∧ short.toOption.map (fun first => (first.outcome, first.trace.length)) =
        some (.iterationLimit, 2) ∧
      long.toOption.map (fun second => (second.outcome, second.trace.length)) =
        some (.optimal, 4) ∧
      CutShort short long ∧
      ((pass.withCap 1).run 0 start).ending = .ok .iterationLimit ∧
      Pass.Splits ((pass.withCap 3).run 0 start) ((pass.withCap 1).run 0 start)
        ((pass.withCap 2).run 1 ((pass.withCap 1).run 0 start).final) := by
  intro short long pass start
  have le : 2 ≤ 3 := by decide
  have stopped : short.toOption.map (fun first => (first.outcome, first.trace.length)) =
      some (.iterationLimit, 2) := by decide +kernel
  have finished : long.toOption.map (fun second => (second.outcome, second.trace.length)) =
      some (.optimal, 4) := by decide +kernel
  have limit : ((pass.withCap 1).run 0 start).ending = .ok .iterationLimit := by decide +kernel
  have pivots : ((pass.withCap 1).run 0 start).iterations = 1 := by decide +kernel
  obtain ⟨_, _, cut, splits⟩ := solvers_cutShort TwoPhase.redundantProblem Options.default le
  have resumed := splits pass start 0 1 2 limit
  rw [pivots] at resumed
  exact ⟨le, stopped, finished, cut, limit, resumed⟩

end LinearProgram
