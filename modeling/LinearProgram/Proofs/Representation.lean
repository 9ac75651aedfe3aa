import LinearProgram.Proofs.Simplex.Run
import LinearProgram.Proofs.StandardForm
import LinearProgram.Proofs.Tableau.Feasibility

namespace LinearProgram

/-!
# Tableaus that stand for a problem

A tableau represents a problem with an objective when it is canonical, has the
solutions of the equations of the problem and expresses the objective at each
of them.  The first tableau does, and neither a pivot nor the loading of
another objective loses it.  All statements about what a solver reports are
read off from a tableau that represents the problem.
-/

variable {m n : Nat}

/-- The row that is chosen for the next pivot has the least ratio also among
the rows that the tolerance passes over. -/
def Pass.FairTest {N : Nat} (pass : Pass N) (T : Tableau ℚ m N) : Prop :=
  ∀ column row, T.entering? pass.allowed = some column → T.leaving? column.castSucc = some row →
    T.LeastRatio row column.castSucc

instance {N : Nat} (pass : Pass N) (T : Tableau ℚ m N) : Decidable (pass.FairTest T) :=
  inferInstanceAs (Decidable (∀ column row, T.entering? pass.allowed = some column →
    T.leaving? column.castSucc = some row → T.LeastRatio row column.castSucc))

theorem Tableau.Sharp.fairTest {N : Nat} {T : Tableau ℚ m N} (sharp : T.Sharp) (pass : Pass N) :
    pass.FairTest T :=
  fun _ _ _ leaving => sharp.clearPositives.leastRatio leaving

theorem Pass.Chooses.nonnegativeRhs {N : Nat} {pass : Pass N} {T : Tableau ℚ m N} {row : Fin m}
    {column : Fin N} (chosen : pass.Chooses T row column) (fair : pass.FairTest T)
    (nonnegative : T.NonnegativeRhs) : (T.pivoted row column.castSucc).NonnegativeRhs :=
  nonnegative.pivoted chosen.entry_pos (fair column row chosen.entering chosen.leaving)

namespace Problem

/-- A tableau that says the same as the first tableau of a problem. -/
structure Represents (p : Problem ℚ m n) (mode : ObjectiveMode ℚ) (T : Tableau ℚ m p.width) :
    Prop where
  canonical : T.Canonical
  solves_iff : ∀ v, T.Solves v ↔ p.Equations v
  prices : T.Prices (p.columnCost mode)

theorem represents_tableau (p : Problem ℚ m n) (mode : ObjectiveMode ℚ) (epsilon : ℚ) :
    p.Represents mode (p.tableau mode epsilon) where
  canonical := p.canonical_tableau mode epsilon
  solves_iff := p.solves_tableau_iff mode epsilon
  prices := p.prices_tableau mode epsilon

/-- Without a reduced cost far below zero outside of the artificial columns, the
objective of a feasible point is not far above the corner, whatever objective
the last row expresses. -/
theorem Admits.objectiveAt_lift_le {p : Problem ℚ m n} {T : Tableau ℚ m p.width} {y : Fin n → ℚ}
    (admits : p.Admits y) {slackness : ℚ}
    (reduced : ∀ j, p.tags[j].isArtificial = false → -slackness ≤ T.reducedCost j) :
    T.objectiveAt (p.lift y) ≤ T.objectiveRhs + slackness * ∑ j, p.lift y j := by
  have each : ∀ j, -(slackness * p.lift y j) ≤ T.reducedCost j * p.lift y j := by
    intro j
    cases artificial : p.tags[j].isArtificial with
    | true => rw [p.noArtificial_lift y j artificial, mul_zero, mul_zero, neg_zero]
    | false =>
      have bound := mul_le_mul_of_nonneg_right (reduced j artificial) (admits.lift_nonneg j)
      rwa [neg_mul] at bound
  have total : -(slackness * ∑ j, p.lift y j) ≤ ∑ j, T.reducedCost j * p.lift y j := by
    rw [Finset.mul_sum, ← Finset.sum_neg_distrib]
    exact Finset.sum_le_sum fun j _ => each j
  rw [Tableau.objectiveAt]
  linarith

namespace Represents

variable {p : Problem ℚ m n} {mode : ObjectiveMode ℚ} {T : Tableau ℚ m p.width}

theorem pivoted (represents : p.Represents mode T) {row : Fin m} {column : Fin p.width}
    (nonzero : T.entry row column.castSucc ≠ 0) :
    p.Represents mode (T.pivoted row column.castSucc) where
  canonical := represents.canonical.pivoted nonzero
  solves_iff v := (Tableau.solves_pivoted_iff nonzero v).trans (represents.solves_iff v)
  prices := represents.prices.pivoted nonzero

theorem loadObjective (represents : p.Represents mode T) (other : ObjectiveMode ℚ) :
    p.Represents other (T.loadObjective (p.costs other)) where
  canonical := represents.canonical.unitBasis.canonical_loadObjective (p.costs other)
  solves_iff v := (T.solves_loadObjective_iff (p.costs other) v).trans (represents.solves_iff v)
  prices := by
    have prices := represents.canonical.unitBasis.prices_loadObjective (p.costs other)
    simp only [costs_getElem] at prices
    exact prices

/-- Tableaus of one problem have the same solutions, whatever objectives they express. -/
theorem solves_of_solves (represents : p.Represents mode T) {otherMode : ObjectiveMode ℚ}
    {U : Tableau ℚ m p.width} (other : p.Represents otherMode U) (v : Fin p.width → ℚ)
    (solves : T.Solves v) : U.Solves v :=
  (other.solves_iff v).mpr ((represents.solves_iff v).mp solves)

theorem equations_columnValue (represents : p.Represents mode T) : p.Equations T.columnValue :=
  (represents.solves_iff _).mp represents.canonical.unitBasis.solves_columnValue

theorem objectiveAt_eq (represents : p.Represents mode T) {v : Fin p.width → ℚ}
    (equations : p.Equations v) : T.objectiveAt v = ∑ j, p.columnCost mode j * v j :=
  represents.prices v ((represents.solves_iff v).mpr equations)

/-- All tableaus of a run represent the problem if the first one does. -/
theorem runFrom (represents : p.Represents mode T) (positive : 0 < T.epsilon)
    (pass : Pass p.width) (index cap : Nat) :
    ∀ U ∈ (pass.runFrom index T cap).tableaus T, p.Represents mode U ∧ U.epsilon = T.epsilon := by
  refine Pass.runFrom_invariant represents.canonical positive (fun _ => True)
    (fun U => p.Represents mode U ∧ U.epsilon = T.epsilon) ?_ index cap ⟨represents, rfl⟩
    fun _ _ => trivial
  rintro U row column ⟨represents, same⟩ _ chosen
  exact ⟨represents.pivoted chosen.nonzero, same⟩

/-! ## The plain objective -/

theorem gain_eq_objectiveAt (represents : p.Represents .plain T) {v : Fin p.width → ℚ}
    (equations : p.Equations v) : p.gain (p.decisionPart v) = T.objectiveAt v := by
  rw [represents.objectiveAt_eq equations, sum_columnCost_plain]

/-- The objective at the basic solution is the corner of the tableau. -/
theorem gain_columnValue (represents : p.Represents .plain T) :
    p.gain (p.decisionPart T.columnValue) = T.objectiveRhs := by
  rw [represents.gain_eq_objectiveAt represents.equations_columnValue,
    represents.canonical.objectiveAt_columnValue]

/-- When no reduced cost outside of the artificial columns is far below zero,
no feasible point is far better than the corner of the tableau.  The bound
counts the variables and the distances from the bounds of the constraints. -/
theorem gain_le_add (represents : p.Represents .plain T) {slackness : ℚ}
    (reduced : ∀ j, p.tags[j].isArtificial = false → -slackness ≤ T.reducedCost j)
    {y : Fin n → ℚ} (admits : p.Admits y) :
    p.gain y ≤ T.objectiveRhs + slackness * ∑ j, p.lift y j := by
  have value := represents.gain_eq_objectiveAt admits.equations_lift
  rw [decisionPart_lift] at value
  rw [value]
  exact admits.objectiveAt_lift_le reduced

/-! ## The objective of the first phase -/

theorem objectiveAt_phaseOne_eq_zero (represents : p.Represents .phaseOne T)
    {v : Fin p.width → ℚ} (equations : p.Equations v) (noArtificial : p.NoArtificial v) :
    T.objectiveAt v = 0 := by
  rw [represents.objectiveAt_eq equations]
  refine Finset.sum_eq_zero fun j _ => ?_
  rw [columnCost_phaseOne]
  split
  · next artificial => rw [noArtificial j artificial, mul_zero]
  · exact zero_mul _

/-- When no reduced cost outside of the artificial columns is far below zero, an
artificial sum that is left excludes all feasible points but large ones. -/
theorem neg_objectiveRhs_le (represents : p.Represents .phaseOne T) {slackness : ℚ}
    (reduced : ∀ j, p.tags[j].isArtificial = false → -slackness ≤ T.reducedCost j)
    {y : Fin n → ℚ} (admits : p.Admits y) : -T.objectiveRhs ≤ slackness * ∑ j, p.lift y j := by
  have zero := represents.objectiveAt_phaseOne_eq_zero admits.equations_lift
    (p.noArtificial_lift y)
  have bound := admits.objectiveAt_lift_le reduced
  linarith

end Represents

/-- Every tableau of a run from the first tableau represents the problem. -/
theorem represents_runFrom (p : Problem ℚ m n) (mode : ObjectiveMode ℚ) {epsilon : ℚ}
    (positive : 0 < epsilon) (pass : Pass p.width) (index cap : Nat) :
    ∀ T ∈ (pass.runFrom index (p.tableau mode epsilon) cap).tableaus (p.tableau mode epsilon),
      p.Represents mode T ∧ T.epsilon = epsilon :=
  (p.represents_tableau mode epsilon).runFrom positive pass index cap

/-- Every tableau of a run from the first tableau is feasible, if the problem
has nonnegative right hand sides and the ratio tests are fair. -/
theorem nonnegativeRhs_runFrom (p : Problem ℚ m n) (mode : ObjectiveMode ℚ) {epsilon : ℚ}
    (positive : 0 < epsilon) (feasible : ∀ row : Fin m, 0 ≤ p.rhs[row]) (pass : Pass p.width)
    (index cap : Nat)
    (fair : ∀ T ∈ (pass.runFrom index (p.tableau mode epsilon) cap).tableaus
      (p.tableau mode epsilon), pass.FairTest T) :
    ∀ T ∈ (pass.runFrom index (p.tableau mode epsilon) cap).tableaus (p.tableau mode epsilon),
      T.NonnegativeRhs := by
  have start : (p.tableau mode epsilon).NonnegativeRhs := by
    intro row
    rw [rhs_tableau]
    exact feasible row
  exact Pass.runFrom_invariant (p.canonical_tableau mode epsilon) positive pass.FairTest
    Tableau.NonnegativeRhs
    (fun _ _ _ nonnegative fair chosen => chosen.nonnegativeRhs fair nonnegative) index cap start
    fair

end Problem
end LinearProgram
