import LinearProgram.Proofs.Simplex.Ascent
import LinearProgram.Proofs.Tableau.PathIndependence

namespace LinearProgram

/-!
# No cycling without degeneracy

No rule keeps a run from coming back to a basis where it has been.  But the
corner of a tableau that represents a problem is determined by the basic
columns, and a pivot in a row with a positive right hand side moves the corner
up.  A run of such pivots alone never comes back.  It ends by itself under any
cap that is not smaller than the number of ways to choose the basic columns.
-/

variable {m N : Nat}

namespace Tableau

/-- The sets of columns that a basis may consist of. -/
def basisSets (m N : Nat) : Finset (Finset (Fin (N + 1))) :=
  (Finset.univ.erase (Fin.last N)).powersetCard m

theorem card_basisSets (m N : Nat) : (basisSets m N).card = N.choose m := by
  rw [basisSets, Finset.card_powersetCard, Finset.card_erase_of_mem (Finset.mem_univ _),
    Finset.card_univ, Fintype.card_fin, Nat.add_sub_cancel]

theorem UnitBasis.basisSet_mem {T : Tableau ℚ m N} (unit : T.UnitBasis) :
    T.basisSet ∈ basisSets m N := by
  refine Finset.mem_powersetCard.mpr ⟨fun j member => ?_, ?_⟩
  · rcases mem_basisSet.mp member with ⟨row, basic⟩
    refine Finset.mem_erase.mpr ⟨?_, Finset.mem_univ j⟩
    rintro rfl
    exact (unit.isColumn row).ne (congrArg Fin.val basic)
  · have injective : Function.Injective fun row : Fin m => T.basis[row] := unit.distinct
    rw [basisSet, Finset.card_image_of_injective _ injective, Finset.card_univ, Fintype.card_fin]

/-- The tableaus that pivots lead to from a first one.  The right hand side may
be made basic too. -/
inductive Reachable {K : Type} [Scalar K] (start : Tableau K m N) : Tableau K m N → Prop where
  | start : Reachable start start
  | pivot {T next : Tableau K m N} {row : Fin m} {column : Fin (N + 1)} {element : K}
      (reached : Reachable start T) (made : T.pivot row column = .ok (element, next)) :
      Reachable start next

theorem Reachable.pivoted {start T : Tableau ℚ m N} (reached : start.Reachable T) {row : Fin m}
    {column : Fin (N + 1)} (large : T.epsilon ≤ |T.entry row column|) :
    start.Reachable (T.pivoted row column) :=
  reached.pivot (pivot_eq_ok large)

end Tableau

namespace Problem

variable {n : Nat} {p : Problem ℚ m n} {mode : ObjectiveMode ℚ} {T : Tableau ℚ m p.width}

/-! ## Tableaus that pivots lead to -/

/-- What a tableau says that pivots of any kind lead to from the first tableau
of a problem.  The right hand side itself may be basic in it. -/
structure Expresses (p : Problem ℚ m n) (mode : ObjectiveMode ℚ) (T : Tableau ℚ m p.width) :
    Prop where
  unit : T.UnitColumns
  priced : T.PricedOut
  solves_iff : ∀ v, T.Solves v ↔ p.Equations v
  prices : T.Prices (p.columnCost mode)

theorem Expresses.represents (expresses : p.Expresses mode T)
    (isColumn : ∀ row : Fin m, T.basis[row].val < p.width) : p.Represents mode T where
  canonical := Tableau.canonical_iff.mpr ⟨⟨isColumn, expresses.unit⟩, expresses.priced⟩
  solves_iff := expresses.solves_iff
  prices := expresses.prices

theorem Expresses.pivoted (expresses : p.Expresses mode T) {row : Fin m}
    {column : Fin (p.width + 1)} (nonzero : T.entry row column ≠ 0) :
    p.Expresses mode (T.pivoted row column) where
  unit := expresses.unit.pivoted nonzero
  priced := expresses.priced.pivoted expresses.unit nonzero
  solves_iff v := (Tableau.solves_pivoted_iff nonzero v).trans (expresses.solves_iff v)
  prices := expresses.prices.pivoted nonzero

theorem expresses_of_reachable {epsilon : ℚ} (positive : 0 < epsilon)
    (reached : (p.tableau mode epsilon).Reachable T) :
    p.Expresses mode T ∧ T.epsilon = epsilon := by
  induction reached with
  | start =>
    have represents := p.represents_tableau mode epsilon
    exact ⟨⟨represents.canonical.unitBasis.isUnit, represents.canonical.pricedOut,
      represents.solves_iff, represents.prices⟩, rfl⟩
  | pivot reached made ih =>
    rcases ih with ⟨expresses, same⟩
    have large := Tableau.le_abs_of_pivot made
    rw [(Tableau.pivoted_of_pivot made).2]
    exact ⟨expresses.pivoted (Tableau.entry_ne_zero_of_le_abs (same ▸ positive) large), same⟩

/-! ## Runs without degenerate pivots -/

section Run

variable (represents : p.Represents mode T) (positive : 0 < T.epsilon) (pass : Pass p.width)
  (index cap : Nat)
  (nondegenerate : ∀ pivot ∈ (pass.runFrom index T cap).pivots T, 0 < pivot.1.rhs pivot.2.row)
include represents positive nondegenerate

theorem Represents.nodup_basisSets :
    (((pass.runFrom index T cap).tableaus T).map Tableau.basisSet).Nodup := by
  have all := represents.runFrom positive pass index cap
  have rises := pass.rises_of_nondegenerate index cap positive.le nondegenerate
  refine List.pairwise_map.mpr (rises.imp_of_mem fun {U V} here there climbs same => ?_)
  exact climbs.ne ((all U here).1.objective_eq_of_basisSet_eq (all V there).1 same
    (Fin.last p.width)).symm

/-- A run cannot visit more bases than there are. -/
theorem Represents.iterations_lt :
    (pass.runFrom index T cap).iterations < p.width.choose m := by
  have different := represents.nodup_basisSets positive pass index cap nondegenerate
  have proper : (((pass.runFrom index T cap).tableaus T).map Tableau.basisSet).toFinset ⊆
      Tableau.basisSets m p.width := by
    intro basis member
    rcases List.mem_map.mp (List.mem_toFinset.mp member) with ⟨U, visited, rfl⟩
    exact (represents.runFrom positive pass index cap U visited).1.canonical.unitBasis.basisSet_mem
  have few := Finset.card_le_card proper
  rwa [List.toFinset_card_of_nodup different, List.length_map, Run.length_tableaus,
    Tableau.card_basisSets] at few

end Run

/-- A run cannot take the right hand side out of the basis by such a pivot, for
its row is the only one that does not have a zero there. -/
theorem Expresses.steps_eq_nil (expresses : p.Expresses mode T) {own : Fin m}
    (basic : T.basis[own] = Fin.last p.width) (pass : Pass p.width) (index cap : Nat)
    (nondegenerate : ∀ pivot ∈ (pass.runFrom index T cap).pivots T,
      0 < pivot.1.rhs pivot.2.row) :
    (pass.runFrom index T cap).steps = [] := by
  cases steps : (pass.runFrom index T cap).steps with
  | nil => rfl
  | cons step rest =>
    exfalso
    have first : (T, step) ∈ (pass.runFrom index T cap).pivots T := by
      rw [Run.pivots, Run.tableaus, steps]
      exact List.mem_cons_self
    rcases Pass.picks_of_mem_pivots first with ⟨_, number, records⟩
    have value : T.rhs step.row = if step.row = own then 1 else 0 := by
      rw [Tableau.rhs, ← basic]
      exact expresses.unit own step.row
    have positive : 0 < T.rhs step.row := nondegenerate (T, step) first
    rw [value] at positive
    split at positive
    · next here =>
      have same : T.basis[step.row] = T.basis[own] := congrArg (T.basis[·]) here
      exact Fin.castSucc_ne_last _ (records.leaves.symm.trans (same.trans basic))
    · exact lt_irrefl 0 positive

theorem choose_width_pos (p : Problem ℚ m n) : 0 < p.width.choose m := by
  have unit := (p.canonical_tableau .plain 0).unitBasis
  rw [← Tableau.card_basisSets]
  exact Finset.card_pos.mpr ⟨_, unit.basisSet_mem⟩

/-- **No cycling without degeneracy.**  Let a run start at any tableau that
pivots lead to from the first tableau of a problem, and let each of its pivots
be made in a row with a positive right hand side.  Then no two tableaus that it
passes through have the same basic columns.  If its cap is at least the number
of ways to choose as many columns as there are rows, it does not end at the
cap, and as long as no pivot before it made the right hand side basic, it ends
without an error. -/
theorem run_visits_no_basis_twice (p : Problem ℚ m n) (mode : ObjectiveMode ℚ) {epsilon : ℚ}
    (positive : 0 < epsilon) {start : Tableau ℚ m p.width}
    (reached : (p.tableau mode epsilon).Reachable start) (pass : Pass p.width) (index : Nat)
    (nondegenerate : ∀ pivot ∈ (pass.run index start).pivots start,
      0 < pivot.1.rhs pivot.2.row) :
    (((pass.run index start).tableaus start).map Tableau.basisSet).Nodup ∧
      (p.width.choose m ≤ pass.cap →
        (pass.run index start).ending ≠ .ok .iterationLimit) ∧
      ((∀ row : Fin m, start.basis[row].val < p.width) →
        ∃ termination, (pass.run index start).ending = .ok termination) := by
  rcases expresses_of_reachable positive reached with ⟨expresses, same⟩
  have tolerance : 0 < start.epsilon := same ▸ positive
  by_cases isColumn : ∀ row : Fin m, start.basis[row].val < p.width
  · have represents := expresses.represents isColumn
    refine ⟨represents.nodup_basisSets tolerance pass index pass.cap nondegenerate,
      fun enough limit => ?_, fun _ => ?_⟩
    · have few := represents.iterations_lt tolerance pass index pass.cap nondegenerate
      rw [Pass.iterations_of_limit limit] at few
      exact absurd enough (not_le.mpr few)
    · rcases pass.runFrom_ending represents.canonical tolerance index pass.cap with
        ⟨termination, ending, _⟩
      exact ⟨termination, ending⟩
  · -- With the right hand side in the basis there is no pivot at all.
    obtain ⟨own, outside⟩ := not_forall.mp isColumn
    have basic : start.basis[own] = Fin.last p.width :=
      Fin.ext (Nat.le_antisymm (Fin.is_le _) (not_lt.mp outside))
    have still := expresses.steps_eq_nil basic pass index pass.cap nondegenerate
    refine ⟨?_, fun enough limit => ?_, fun proper => absurd proper isColumn⟩
    · rw [Run.tableaus, Pass.run, still]
      exact List.nodup_singleton _
    · have spent := Pass.iterations_of_limit limit
      rw [Run.iterations, still] at spent
      exact absurd enough (not_le.mpr (spent ▸ p.choose_width_pos))

/-- As many pivots as there are bases, in any columns. -/
def twentyPivots : Pass threeSensesProblem.width where
  allowed _ := true
  cap := 20
  phase := .single

/-- The run starts after two pivots that bring the right hand side into the
basis and out of it again. -/
theorem roundTrip_visits_no_basis_twice :
    let start := ((threeSensesProblem.tableau (.bigM 100) (1 / 1000)).pivoted 1
      (Fin.last _)).pivoted 1 ⟨4, by decide⟩
    let run := twentyPivots.run 0 start
    (0 : ℚ) < 1 / 1000 ∧
      (threeSensesProblem.tableau (.bigM 100) (1 / 1000)).Reachable start ∧
      (∀ pivot ∈ run.pivots start, 0 < pivot.1.rhs pivot.2.row) ∧
      threeSensesProblem.width.choose 3 ≤ twentyPivots.cap ∧
      (run.tableaus start).map Tableau.basisNumbers = [[3, 4, 5], [3, 4, 0], [1, 4, 0]] ∧
      ((run.tableaus start).map Tableau.basisSet).Nodup ∧
      run.ending ≠ .ok .iterationLimit ∧ ∃ termination, run.ending = .ok termination := by
  intro start run
  have positive : (0 : ℚ) < 1 / 1000 := by decide +kernel
  have reached : (threeSensesProblem.tableau (.bigM 100) (1 / 1000)).Reachable start :=
    .pivoted (.pivoted .start (by decide +kernel)) (by decide +kernel)
  have nondegenerate : ∀ pivot ∈ run.pivots start, 0 < pivot.1.rhs pivot.2.row := by
    decide +kernel
  have enough : threeSensesProblem.width.choose 3 ≤ twentyPivots.cap := by decide
  rcases threeSensesProblem.run_visits_no_basis_twice (.bigM 100) positive reached
    twentyPivots 0 nondegenerate with ⟨nodup, unlimited, sound⟩
  exact ⟨positive, reached, nondegenerate, enough, by decide +kernel, nodup,
    unlimited enough, sound (by decide +kernel)⟩

end Problem
end LinearProgram
