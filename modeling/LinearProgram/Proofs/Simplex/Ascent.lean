import LinearProgram.Proofs.Simplex.Run
import LinearProgram.Proofs.Tableau.Feasibility

namespace LinearProgram

/-!
# Runs that climb

A pivot at a chosen place has a negative reduced cost in its column and a
positive element.  The corner of the tableau moves by the reduced cost times
the ratio of the pivot row, so it never falls while the right hand sides are
nonnegative, and it stays only where that ratio is zero.  The right hand sides
stay nonnegative as long as the tolerance hides no positive entry from the
ratio test.
-/

variable {m N : Nat}

/-- What holds between the two ends of every pivot links all tableaus of a run. -/
theorem Run.isChain_tableaus {Link : Tableau ℚ m N → Tableau ℚ m N → Prop}
    {start : Tableau ℚ m N} {run : Run ℚ m N}
    (linked : ∀ pivot ∈ run.pivots start, Link pivot.1 pivot.2.next) :
    (run.tableaus start).IsChain Link := by
  obtain ⟨ending, final, steps⟩ := run
  -- The list of tableaus begins with the one that the first step is made on.
  induction steps generalizing start with
  | nil => exact .singleton start
  | cons step rest ih =>
    exact .cons_cons (linked (start, step) List.mem_cons_self)
      (ih fun pivot member => linked pivot (List.mem_cons_of_mem _ member))

namespace Pass

variable {pass : Pass N} {T : Tableau ℚ m N}

/-! ## One pivot -/

namespace Picks

variable {row : Fin m} {column : Fin N} (picks : pass.Picks T row column)
  (tolerance : 0 ≤ T.epsilon)
include picks tolerance

theorem entry_pos : 0 < T.entry row column.castSucc :=
  Tableau.entry_pos_of_leaving? tolerance picks.2

theorem reducedCost_neg : T.reducedCost column < 0 :=
  Tableau.reducedCost_neg_of_entering? tolerance picks.1

/-- The corner moves by the reduced cost times the ratio of the pivot row. -/
theorem objectiveRhs_pivoted :
    (T.pivoted row column.castSucc).objectiveRhs =
      T.objectiveRhs + |T.reducedCost column| * T.ratio column.castSucc row := by
  rw [Tableau.objectiveRhs_pivoted (picks.entry_pos tolerance).ne',
    abs_of_neg (picks.reducedCost_neg tolerance), neg_mul, sub_eq_add_neg]
  rfl

theorem objectiveRhs_le (nonnegative : 0 ≤ T.rhs row) :
    T.objectiveRhs ≤ (T.pivoted row column.castSucc).objectiveRhs := by
  rw [picks.objectiveRhs_pivoted tolerance]
  have ratio : 0 ≤ T.ratio column.castSucc row :=
    div_nonneg nonnegative (picks.entry_pos tolerance).le
  exact le_add_of_nonneg_right (mul_nonneg (abs_nonneg _) ratio)

theorem objectiveRhs_lt (positive : 0 < T.rhs row) :
    T.objectiveRhs < (T.pivoted row column.castSucc).objectiveRhs := by
  rw [picks.objectiveRhs_pivoted tolerance]
  have ratio : 0 < T.ratio column.castSucc row := div_pos positive (picks.entry_pos tolerance)
  have cost := abs_pos.mpr (picks.reducedCost_neg tolerance).ne
  exact lt_add_of_pos_right _ (mul_pos cost ratio)

end Picks

/-- A pivot that takes the least ratio of its column and moves the corner up by
the reduced cost times that ratio, or leaves it in place if the right hand side
of the pivot row is zero. -/
structure Climbs (pass : Pass N) (T : Tableau ℚ m N) (step : Step ℚ m N) : Prop where
  picks : pass.Picks T step.row step.entering
  positive : 0 < T.entry step.row step.entering.castSucc
  least : T.LeastRatio step.row step.entering.castSucc
  gain : step.next.objectiveRhs =
    T.objectiveRhs + |T.reducedCost step.entering| * T.ratio step.entering.castSucc step.row
  rises : T.objectiveRhs ≤ step.next.objectiveRhs
  degenerate : step.next.objectiveRhs = T.objectiveRhs → T.rhs step.row = 0

theorem Records.climbs {number : Nat} {step : Step ℚ m N}
    (records : pass.Records number T step.row step.entering step)
    (picks : pass.Picks T step.row step.entering) (tolerance : 0 ≤ T.epsilon)
    (feasible : T.NonnegativeRhs) (clear : T.ClearPositives) : pass.Climbs T step where
  picks := picks
  positive := picks.entry_pos tolerance
  least := clear.leastRatio picks.2
  gain := records.next_eq ▸ picks.objectiveRhs_pivoted tolerance
  rises := records.next_eq ▸ picks.objectiveRhs_le tolerance (feasible step.row)
  degenerate := by
    intro stays
    by_contra different
    have positive := lt_of_le_of_ne (feasible step.row) (Ne.symm different)
    have climbs := picks.objectiveRhs_lt tolerance positive
    rw [← records.next_eq, stays] at climbs
    exact lt_irrefl _ climbs

/-! ## Whole runs -/

section Runs

variable (pass : Pass N) (index cap : Nat) (tolerance : 0 ≤ T.epsilon)
include tolerance

/-- Ratio tests that look at every positive entry keep all right hand sides
nonnegative, also where the tolerance is zero. -/
theorem nonnegativeRhs_runFrom (feasible : T.NonnegativeRhs)
    (clear : ∀ U ∈ (pass.runFrom index T cap).tableaus T, U.ClearPositives) :
    ∀ U ∈ (pass.runFrom index T cap).tableaus T, U.NonnegativeRhs := by
  refine pass.runFrom_invariant_of_picks (fun U => U.epsilon = T.epsilon ∧ U.ClearPositives)
    Tableau.NonnegativeRhs ?_ index cap feasible
    fun U member => ⟨pass.epsilon_runFrom index cap T U member, clear U member⟩
  rintro U row column feasible ⟨same, clear⟩ picks
  exact feasible.pivoted (picks.entry_pos (same ▸ tolerance)) (clear.leastRatio picks.2)

theorem canonical_runFrom (canonical : T.Canonical) :
    ∀ U ∈ (pass.runFrom index T cap).tableaus T, U.Canonical := by
  refine pass.runFrom_invariant_of_picks (fun U => U.epsilon = T.epsilon) Tableau.Canonical ?_
    index cap canonical (pass.epsilon_runFrom index cap T)
  intro U row column canonical same picks
  exact canonical.pivoted (picks.entry_pos (same ▸ tolerance)).ne'

/-- In a run without a degenerate pivot the corner rises all the time. -/
theorem rises_of_nondegenerate
    (nondegenerate : ∀ pivot ∈ (pass.runFrom index T cap).pivots T, 0 < pivot.1.rhs pivot.2.row) :
    ((pass.runFrom index T cap).tableaus T).Pairwise
      fun U V => U.objectiveRhs < V.objectiveRhs := by
  have rises : ∀ pivot ∈ (pass.runFrom index T cap).pivots T,
      pivot.1.objectiveRhs < pivot.2.next.objectiveRhs := by
    rintro ⟨U, step⟩ member
    rcases picks_of_mem_pivots member with ⟨picks, number, records⟩
    have same := pass.epsilon_runFrom index cap T U (Run.fst_mem_tableaus member)
    rw [records.next_eq]
    exact picks.objectiveRhs_lt (same ▸ tolerance) (nondegenerate _ member)
  have chain : ((pass.runFrom index T cap).tableaus T).IsChain
      fun U V => U.objectiveRhs < V.objectiveRhs := Run.isChain_tableaus rises
  exact chain.pairwise

end Runs

/-- **A run stays feasible and loses no ground.**  Let the right hand sides be
nonnegative and let the tolerance hide no positive entry of any tableau of the
run, whatever columns may enter.  Then all right hand sides stay nonnegative,
and each pivot adds the size of the reduced cost times the least ratio to the
corner, which never falls and stays in place only at a zero right hand side.
Canonical form is not needed for that, but it is kept as well. -/
theorem run_climbs (pass : Pass N) (index : Nat) (feasible : T.NonnegativeRhs)
    (tolerance : 0 ≤ T.epsilon) (clear : ∀ U ∈ (pass.run index T).tableaus T, U.ClearPositives) :
    (∀ U ∈ (pass.run index T).tableaus T, U.NonnegativeRhs) ∧
      (∀ pivot ∈ (pass.run index T).pivots T, pass.Climbs pivot.1 pivot.2) ∧
      ((pass.run index T).tableaus T).Pairwise (fun U V => U.objectiveRhs ≤ V.objectiveRhs) ∧
      (T.Canonical → ∀ U ∈ (pass.run index T).tableaus T, U.Canonical) := by
  have kept := pass.nonnegativeRhs_runFrom index pass.cap tolerance feasible clear
  have climbs : ∀ pivot ∈ (pass.run index T).pivots T, pass.Climbs pivot.1 pivot.2 := by
    rintro ⟨U, step⟩ member
    rcases picks_of_mem_pivots member with ⟨picks, number, records⟩
    have here := Run.fst_mem_tableaus member
    have same := pass.epsilon_runFrom index pass.cap T U here
    exact records.climbs picks (same ▸ tolerance) (kept U here) (clear U here)
  have chain : ((pass.run index T).tableaus T).IsChain fun U V =>
      U.objectiveRhs ≤ V.objectiveRhs :=
    Run.isChain_tableaus fun pivot member => (climbs pivot member).rises
  exact ⟨kept, climbs, chain.pairwise, pass.canonical_runFrom index pass.cap tolerance⟩

/-- A corner that the first pivot leaves in place and the second one moves. -/
def restingTableau : Tableau ℚ 2 4 where
  cells := #[#[-1, 1, 1, 0, 0].toVector, #[1, 0, 0, 1, 3].toVector,
    #[-1, -2, 0, 0, 0].toVector].toVector
  basis := #[2, 3].toVector
  epsilon := 0

/-- Ten pivots at most, in any columns. -/
def tenPivots : Pass 4 where
  allowed _ := true
  cap := 10
  phase := .single

theorem restingTableau_climbs :
    let run := tenPivots.run 0 restingTableau
    restingTableau.NonnegativeRhs ∧ 0 ≤ restingTableau.epsilon ∧
      (∀ U ∈ run.tableaus restingTableau, U.ClearPositives) ∧
      (run.tableaus restingTableau).map Tableau.objectiveRhs = [0, 0, 9] ∧
      (∀ U ∈ run.tableaus restingTableau, U.NonnegativeRhs) ∧
      (∀ pivot ∈ run.pivots restingTableau, tenPivots.Climbs pivot.1 pivot.2) ∧
      (run.tableaus restingTableau).Pairwise (fun U V => U.objectiveRhs ≤ V.objectiveRhs) ∧
      ∀ U ∈ run.tableaus restingTableau, U.Canonical := by
  have feasible : restingTableau.NonnegativeRhs := by
    unfold Tableau.NonnegativeRhs
    decide +kernel
  have tolerance : 0 ≤ restingTableau.epsilon := le_refl 0
  have clear : ∀ U ∈ (tenPivots.run 0 restingTableau).tableaus restingTableau,
      U.ClearPositives := by
    decide +kernel
  have canonical : restingTableau.Canonical := ⟨by decide, by decide +kernel, by decide⟩
  rcases tenPivots.run_climbs 0 feasible tolerance clear with ⟨kept, climbs, chain, still⟩
  exact ⟨feasible, tolerance, clear, by decide +kernel, kept, climbs, chain, still canonical⟩

end Pass
end LinearProgram
