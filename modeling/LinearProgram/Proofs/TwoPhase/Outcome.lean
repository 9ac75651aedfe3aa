import LinearProgram.Proofs.Recession
import LinearProgram.Proofs.TwoPhase.Feasibility

namespace LinearProgram
namespace TwoPhase

open Problem

/-!
# Sharp courses tell the truth

On a sharp course the tolerance blurs nothing.  The first phase ends at an
optimum or at its cap.  If it keeps an artificial sum there is no feasible
point; otherwise the second phase moves between feasible points, and ends
where none is better, or at a ray along which the objective has no bound.
-/

variable {m n : Nat} {q : Problem ℚ m n} {options : Options ℚ}

/-! ## The first phase -/

/-- The artificial sum cannot fall for ever, so no column of a sharp tableau
leads out of the first phase along a ray. -/
theorem leaving?_ne_none_of_sharp {T : Tableau ℚ m q.width} (represents : q.Represents .phaseOne T)
    (tolerant : 0 ≤ T.epsilon) (sharp : T.Sharp) {allowed : Fin q.width → Bool}
    {column : Fin q.width} (entering : T.entering? allowed = some column) :
    T.leaving? column.castSucc ≠ none := by
  intro nothing
  have improving := Tableau.reducedCost_neg_of_entering? tolerant entering
  have level := represents.neg_card_mul_le_reducedCost (sharp.entry_nonpos nothing)
  rw [mul_zero, neg_zero] at level
  exact absurd improving (not_lt.mpr level)

/-- An artificial sum above the tolerance at a sharp optimum excludes feasible points. -/
theorem not_admits_of_sharp {T : Tableau ℚ m q.width} (represents : q.Represents .phaseOne T)
    (sharp : T.Sharp) (tolerant : 0 ≤ T.epsilon) {allowed : Fin q.width → Bool}
    (everything : ∀ j, allowed j = true) (optimal : T.entering? allowed = none)
    (large : T.epsilon < -T.objectiveRhs) (y : Fin n → ℚ) : ¬ q.Admits y := by
  intro admits
  have bound := represents.neg_objectiveRhs_le
    (fun j _ => neg_zero.le.trans (sharp.reducedCost_nonneg optimal (everything j))) admits
  rw [zero_mul] at bound
  exact absurd (large.trans_le bound) (not_lt.mpr tolerant)

/-! ## The second phase -/

/-- At a sharp optimum no feasible point is better than the basic solution. -/
theorem gain_le_of_sharp {T : Tableau ℚ m q.width} (represents : q.Represents .plain T)
    (sharp : T.Sharp) {allowed : Fin q.width → Bool}
    (ordinary : ∀ j, q.tags[j].isArtificial = false → allowed j = true)
    (optimal : T.entering? allowed = none) {y : Fin n → ℚ} (admits : q.Admits y) :
    q.gain y ≤ q.gain (q.decisionPart T.columnValue) := by
  have bound := represents.gain_le_add
    (fun j other => neg_zero.le.trans (sharp.reducedCost_nonneg optimal (ordinary j other))) admits
  rw [zero_mul, add_zero] at bound
  rw [represents.gain_columnValue]
  exact bound

/-- The ray of a column that is not artificial moves no artificial column whose
row is isolated. -/
theorem noArtificial_ray {T : Tableau ℚ m q.width} (isolated : ∀ row, q.Isolated T row)
    {column : Fin q.width} (other : q.tags[column].isArtificial = false) :
    q.NoArtificial (T.ray column) := by
  intro j artificial
  have apart : j ≠ column := by
    intro same
    rw [same, other] at artificial
    exact Bool.false_ne_true artificial
  have basic := noArtificial_spread (p := q) (T := T)
    (w := fun row => -T.entry row column.castSucc)
    (fun row kind => by rw [isolated row kind column other, neg_zero]) j artificial
  rw [Tableau.ray, if_neg apart, basic, add_zero]

/-- A sharp tableau without artificial part that stops at a ray leads to feasible
points without bound on their objective. -/
theorem unbounded_of_ray {T : Tableau ℚ m q.width} (represents : q.Represents .plain T)
    (within : q.Within 0 T) (isolated : ∀ row, q.Isolated T row) (sharp : T.Sharp)
    (tolerant : 0 ≤ T.epsilon) {allowed : Fin q.width → Bool} {column : Fin q.width}
    (other : q.tags[column].isArtificial = false) (entering : T.entering? allowed = some column)
    (nothing : T.leaving? column.castSucc = none) : q.Unbounded := by
  have improving := Tableau.reducedCost_neg_of_entering? tolerant entering
  have rising : 0 < q.gain (q.decisionPart (T.ray column)) := by
    rw [← sum_columnCost_plain, represents.sum_columnCost_ray]
    exact neg_pos.mpr improving
  have recedes := represents.recedes_ray (sharp.entry_nonpos nothing)
    (noArtificial_ray isolated other)
  exact recedes.unbounded (within.admits represents) rising

/-! ## Whole courses -/

theorem nonnegativeRhs_of_sharp (positive : 0 < options.epsilon)
    (feasible : ∀ row : Fin m, 0 ≤ q.rhs[row])
    (sharp : ∀ T ∈ (firstRun q options).tableaus (firstTableau q options), T.Sharp) :
    (firstRun q options).final.NonnegativeRhs :=
  nonnegativeRhs_firstRun positive feasible
    (fun T member => (sharp T member).fairTest (firstPass q options)) _ firstRun_final_mem

/-- A sharp first phase does not stop at a ray. -/
theorem not_stopsAt_unbounded_of_sharp (positive : 0 < options.epsilon)
    (sharp : ∀ T ∈ (firstRun q options).tableaus (firstTableau q options), T.Sharp)
    (column : Fin q.width) :
    ¬ (firstPass q options).StopsAt (firstRun q options).final (.unbounded column) := by
  intro stops
  rcases firstRun_final (p := q) positive with ⟨represents, epsilon⟩
  exact leaving?_ne_none_of_sharp represents (epsilon ▸ positive.le) (sharp _ firstRun_final_mem)
    stops.1 stops.2

/-- The search for replacements isolates every row of a sharp course.  The
induction is on the rows that have not been looked at. -/
theorem isolated_cleanup (positive : 0 < options.epsilon)
    (sharp : ∀ T ∈ cleanupTableaus q options, T.Sharp)
    (row : Fin m) : q.Isolated (cleanup q options).final row := by
  refine (cleanup_invariant positive Tableau.Sharp
    (fun rows T => ∀ own, own ∉ rows → q.Isolated T own) ?_ ?_ ?_
    (fun own unseen => absurd (List.mem_finRange own) unseen) sharp).2.1 row List.not_mem_nil
  · intro here rows T seen kind own unseen
    by_cases same : own = here
    · intro artificial
      rw [same, kind] at artificial
      exact absurd artificial Bool.false_ne_true
    · exact seen own (List.not_mem_cons_of_ne_of_not_mem same unseen)
  · intro here rows T seen clear canonical tolerant artificial nothing own unseen
    by_cases same : own = here
    · intro _ j other
      rw [same]
      exact clear.eq_zero_of_abs_le (abs_entry_le_of_replacement?_eq_none canonical.unitBasis
        tolerant.le artificial nothing other)
    · exact seen own (List.not_mem_cons_of_ne_of_not_mem same unseen)
  · intro here rows T column seen _ replaces own unseen
    by_cases same : own = here
    · intro basic
      exact absurd same (artificial_of_pivoted replaces.other basic).1
    · exact (seen own (List.not_mem_cons_of_ne_of_not_mem same unseen)).pivoted replaces.other
        replaces.nonzero

/-- Isolated rows are out of reach for the second phase. -/
theorem isolated_secondRun (positive : 0 < options.epsilon)
    (isolated : ∀ row, q.Isolated (cleanup q options).final row) :
    ∀ T ∈ (secondRun q options).tableaus (secondTableau q (cleanup q options)),
      ∀ row, q.Isolated T row := by
  refine secondRun_invariant positive (fun _ => True) _ ?_ ?_ fun _ _ => trivial
  · intro T row column before _ chosen own
    exact (before own).pivoted ((secondPass_allowed_iff column).mp chosen.allowed) chosen.nonzero
  · intro row artificial j other
    rw [secondTableau, Tableau.entry_loadObjective]
    exact isolated row artificial j other

section Completed

variable (positive : 0 < options.epsilon) (feasible : ∀ row : Fin m, 0 ≤ q.rhs[row])
  (small : -(firstRun q options).final.objectiveRhs ≤ options.epsilon)
  (sharp : ∀ T ∈ tableaus q options
    (.completed (firstRun q options) (cleanup q options) (secondRun q options)), T.Sharp)
include positive feasible small sharp

/-- A sharp first phase whose artificial sum is within the tolerance has the sum zero. -/
theorem objectiveRhs_of_sharp : (firstRun q options).final.objectiveRhs = 0 := by
  have sharpFirst : ∀ T ∈ (firstRun q options).tableaus (firstTableau q options), T.Sharp :=
    fun T member => sharp T (List.mem_append_left _ (List.mem_append_left _ member))
  rcases firstRun_final (p := q) positive with ⟨represents, epsilon⟩
  have nonnegative := nonnegativeRhs_of_sharp positive feasible sharpFirst
  have held : 0 ≤ -(firstRun q options).final.objectiveRhs := by
    rw [represents.neg_objectiveRhs_phaseOne]
    exact Finset.sum_nonneg fun row _ => nonnegative row
  apply (sharpFirst _ firstRun_final_mem).eq_zero_of_abs_le
  rw [epsilon]
  exact (abs_of_nonpos (neg_nonneg.mp held)).trans_le small

omit feasible small in
theorem isolated_of_sharp :
    ∀ T ∈ (secondRun q options).tableaus (secondTableau q (cleanup q options)),
      ∀ row, q.Isolated T row := by
  refine isolated_secondRun positive (isolated_cleanup positive fun T member => ?_)
  rcases List.mem_cons.mp member with same | later
  · rw [same]
    exact sharp _ (List.mem_append_left _ (List.mem_append_left _ firstRun_final_mem))
  · exact sharp T (List.mem_append_left _ (List.mem_append_right _ later))

theorem steady_of_sharp : Steady q options := by
  have sharpFirst : ∀ T ∈ (firstRun q options).tableaus (firstTableau q options), T.Sharp :=
    fun T member => sharp T (List.mem_append_left _ (List.mem_append_left _ member))
  constructor
  · exact fun T member => (sharpFirst T member).fairTest (firstPass q options)
  · intro T member row artificial _
    have within := within_of_nonnegativeRhs (firstRun_final positive).1
      (nonnegativeRhs_of_sharp positive feasible sharpFirst)
    rw [objectiveRhs_of_sharp positive feasible small sharp, neg_zero] at within
    exact rhs_eq_zero_of_within positive within T member row artificial
  · exact fun T member =>
      (sharp T (List.mem_append_right _ member)).fairTest (secondPass q options)
  · intro T member column entering row artificial
    have other := (secondPass_allowed_iff column).mp (Tableau.entering?_spec entering).1
    exact (isolated_of_sharp positive sharp T member row artificial column other).ge

theorem secondRun_final_of_sharp :
    q.Within 0 (secondRun q options).final ∧ (∀ row, q.Isolated (secondRun q options).final row) ∧
      (secondRun q options).final.Sharp := by
  have within := within_secondRun positive feasible
    (steady_of_sharp positive feasible small sharp) _ secondRun_final_mem
  rw [objectiveRhs_of_sharp positive feasible small sharp, neg_zero] at within
  exact ⟨within, isolated_of_sharp positive sharp _ secondRun_final_mem,
    sharp _ (List.mem_append_right _ secondRun_final_mem)⟩

end Completed

/-! ## Reports on sharp courses -/

section Reports

variable {p : Problem ℚ m n} (sharp : SharpCourse p options) {solution : Solution ℚ}
  (solved : solve p options = .ok solution)
include sharp solved

theorem final_of_optimal (optimum : solution.outcome = .optimal) :
    p.normalized.Within 0 (secondRun p.normalized options).final ∧
      (secondRun p.normalized options).final.Sharp := by
  have positive := epsilon_pos_of_solve solved
  rcases optimal_cases solved optimum with ⟨small, course, _⟩
  unfold SharpCourse at sharp
  rw [course] at sharp
  rcases secondRun_final_of_sharp positive p.normalized_rhs_nonneg small sharp with
    ⟨within, _, clear⟩
  exact ⟨within, clear⟩

theorem optimal_of_sharp (optimum : solution.outcome = .optimal) :
    p.Optimal (solution.decisionValues n) ∧
      solution.objective = some (p.objectiveValue (solution.decisionValues n)) := by
  have positive := epsilon_pos_of_solve solved
  rcases final_of_optimal sharp solved optimum with ⟨within, clear⟩
  rcases optimal_cases solved optimum with ⟨_, _, stops, values, objective⟩
  rcases secondRun_final (p := p.normalized) positive with ⟨represents, _⟩
  rw [values]
  refine ⟨within.optimal represents fun y admits => ?_, objective⟩
  exact gain_le_of_sharp represents clear (fun j => (secondPass_allowed_iff j).mpr) stops admits

theorem infeasible_of_sharp (none : solution.outcome = .infeasible) : p.Infeasible := by
  have positive := epsilon_pos_of_solve solved
  rcases infeasible_cases solved none with ⟨stops, large, course, _⟩
  rcases firstRun_final (p := p.normalized) positive with ⟨represents, epsilon⟩
  unfold SharpCourse at sharp
  rw [course] at sharp
  intro list feasible
  rcases feasible.exists_ofFn with ⟨y, rfl, admits⟩
  exact not_admits_of_sharp represents (sharp _ firstRun_final_mem) (epsilon ▸ positive.le)
    (fun _ => rfl) stops (epsilon ▸ large) y ((p.admits_normalized_iff y).mpr admits)

theorem unbounded_of_sharp (endless : solution.outcome = .unbounded) : p.Unbounded := by
  have positive := epsilon_pos_of_solve solved
  cases concludes_of_solve solved with
  | stopped termination short stops course reports =>
    rcases Termination.exists_eq_unbounded (reports.1.symm.trans endless) with ⟨column, rfl⟩
    unfold SharpCourse at sharp
    rw [course] at sharp
    exact absurd stops (not_stopsAt_unbounded_of_sharp positive sharp column)
  | infeasible stops large course reports => exact nomatch reports.1.symm.trans endless
  | completed termination small stops course reports =>
    rcases Termination.exists_eq_unbounded (reports.1.symm.trans endless) with ⟨column, rfl⟩
    unfold SharpCourse at sharp
    rw [course] at sharp
    rcases secondRun_final_of_sharp positive p.normalized_rhs_nonneg small sharp with
      ⟨within, isolated, clear⟩
    rcases secondRun_final (p := p.normalized) positive with ⟨represents, epsilon⟩
    have ordinary := (secondPass_allowed_iff column).mp (Tableau.entering?_spec stops.1).1
    exact p.unbounded_normalized_iff.mp (unbounded_of_ray represents within isolated clear
      (epsilon ▸ positive.le) ordinary stops.1 stops.2)

/-- On a sharp course the report is true of the problem. -/
theorem trueOf_of_sharp : solution.TrueOf p where
  optimal := optimal_of_sharp sharp solved
  infeasible := infeasible_of_sharp sharp solved
  unbounded := unbounded_of_sharp sharp solved

end Reports

end TwoPhase
end LinearProgram
