import LinearProgram.Proofs.ArtificialSum
import LinearProgram.Proofs.Tableau.Attempts
import LinearProgram.Proofs.Tableau.SameBasis

namespace LinearProgram

/-!
# The way to a basis leaves no trace

Two sequences of pivots on the first tableau of a problem may meet at the same
basic columns after any numbers of steps.  The tableaus that they lead to then
have the same row of reduced costs and the same constraint rows, each where its
basic column is.  In particular a pivot is undone by the pivot that brings the
column back that has left.
-/

variable {m n N : Nat}

namespace Tableau

/-- The second tableau has the rows of the first one, in the order that a
permutation gives them, and the same row of reduced costs. -/
structure Rearranges (order : Equiv.Perm (Fin m)) (T U : Tableau ℚ m N) : Prop where
  basis : ∀ row : Fin m, U.basis[order row] = T.basis[row]
  entry : ∀ (row : Fin m) (j : Fin (N + 1)), U.entry (order row) j = T.entry row j
  objective : ∀ j : Fin (N + 1), U.cell (Fin.last m) j = T.cell (Fin.last m) j

/-- The basis is restored by the pivot that brings the leaving column back. -/
theorem basis_pivoted_pivoted (T : Tableau ℚ m N) (row : Fin m) (column : Fin (N + 1)) :
    ((T.pivoted row column).pivoted row T.basis[row]).basis = T.basis := by
  simp [pivoted]

/-- Tableaus with the same basic columns differ in the order of their rows. -/
theorem UnitBasis.exists_order {T U : Tableau ℚ m N} (unit : T.UnitBasis)
    (same : T.basisSet = U.basisSet) :
    ∃ order : Equiv.Perm (Fin m), ∀ row : Fin m, U.basis[order row] = T.basis[row] := by
  have each : ∀ row : Fin m, ∃ place : Fin m, U.basis[place] = T.basis[row] := fun row =>
    mem_basisSet.mp (same ▸ mem_basisSet.mpr ⟨row, rfl⟩)
  choose place found using each
  have injective : Function.Injective place := fun row other meet =>
    unit.distinct row other ((found row).symm.trans ((congrArg (U.basis[·]) meet).trans (found other)))
  exact ⟨Equiv.ofBijective place (Finite.injective_iff_bijective.mp injective), found⟩

/-- Rows that stand in the same order are the same. -/
theorem Rearranges.eq {order : Equiv.Perm (Fin m)} {T U : Tableau ℚ m N}
    (rearranges : T.Rearranges order U) (unit : U.UnitBasis) (basis : T.basis = U.basis)
    (epsilon : T.epsilon = U.epsilon) : T = U := by
  have still : ∀ row, order row = row := fun row =>
    unit.distinct _ _ ((rearranges.basis row).trans (by rw [basis]))
  refine eq_of_cell_eq basis epsilon fun i j => ?_
  refine Fin.lastCases (rearranges.objective j).symm (fun row => ?_) i
  have moved := rearranges.entry row j
  rw [still row] at moved
  exact moved.symm

end Tableau

namespace Problem

namespace Represents

variable {p : Problem ℚ m n} {mode : ObjectiveMode ℚ} {T U : Tableau ℚ m p.width}
  (first : p.Represents mode T) (second : p.Represents mode U) (same : T.basisSet = U.basisSet)
include first second same

/-- The basic columns determine the row of reduced costs. -/
theorem objective_eq_of_basisSet_eq (j : Fin (p.width + 1)) :
    U.cell (Fin.last m) j = T.cell (Fin.last m) j := by
  have unit := first.canonical.unitBasis
  have other := second.canonical.unitBasis
  have system := first.solves_of_solves second
  refine Fin.lastCases ?_ (fun column => ?_) j
  · change U.objectiveRhs = T.objectiveRhs
    rw [first.objectiveRhs_eq, second.objectiveRhs_eq,
      Tableau.columnValue_eq_of_basisSet_eq unit other system same]
  · change U.reducedCost column = T.reducedCost column
    rw [← neg_inj, ← first.sum_columnCost_ray, ← second.sum_columnCost_ray,
      Tableau.ray_eq_of_basisSet_eq unit other system same]

theorem exists_rearranges : ∃ order, T.Rearranges order U := by
  have unit := first.canonical.unitBasis
  rcases unit.exists_order same with ⟨order, basis⟩
  refine ⟨order, basis, fun row j => ?_, first.objective_eq_of_basisSet_eq second same⟩
  exact (Tableau.entry_eq_of_basisSet_eq unit second.canonical.unitBasis
    (first.solves_of_solves second) same (basis row).symm j).symm

end Represents

section Attempts

variable (p : Problem ℚ m n) (mode : ObjectiveMode ℚ) {epsilon : ℚ} (positive : 0 < epsilon)
include positive

theorem attempts_eq_of_basis_eq {first second : List (Fin m × Fin p.width)}
    (same : ((p.tableau mode epsilon).attempts first).basis =
      ((p.tableau mode epsilon).attempts second).basis) :
    (p.tableau mode epsilon).attempts first = (p.tableau mode epsilon).attempts second := by
  have left := p.represents_attempts mode positive first
  have right := p.represents_attempts mode positive second
  have columns : ((p.tableau mode epsilon).attempts first).basisSet =
      ((p.tableau mode epsilon).attempts second).basisSet := by
    simp only [Tableau.basisSet, same]
  rcases left.exists_rearranges right columns with ⟨order, rearranges⟩
  exact rearranges.eq right.canonical.unitBasis same
    (by rw [Tableau.epsilon_attempts, Tableau.epsilon_attempts])

/-- A pivot is undone by the pivot that brings the leaving column back into its row. -/
theorem eq_attempts_of_pivot_back {places : List (Fin m × Fin p.width)} {row : Fin m}
    {column : Fin p.width} {element other : ℚ} {next back : Tableau ℚ m p.width}
    (forth : ((p.tableau mode epsilon).attempts places).pivot row column.castSucc =
      .ok (element, next))
    (undone : next.pivot row ((p.tableau mode epsilon).attempts places).basis[row] =
      .ok (other, back)) :
    back = (p.tableau mode epsilon).attempts places := by
  have isColumn := (p.represents_attempts mode positive places).canonical.isColumn row
  obtain ⟨leaving, basic⟩ : ∃ leaving : Fin p.width,
      ((p.tableau mode epsilon).attempts places).basis[row] = leaving.castSucc :=
    ⟨⟨_, isColumn⟩, rfl⟩
  have restored : back.basis = ((p.tableau mode epsilon).attempts places).basis := by
    rw [(Tableau.pivoted_of_pivot undone).2, (Tableau.pivoted_of_pivot forth).2,
      Tableau.basis_pivoted_pivoted]
  rw [basic] at undone
  have way : (p.tableau mode epsilon).attempts (places ++ [(row, column), (row, leaving)]) =
      back := by
    rw [Tableau.attempts_append, Tableau.attempts_cons, Tableau.attempt_of_pivot forth,
      Tableau.attempts_cons, Tableau.attempt_of_pivot undone]
    rfl
  rw [← way] at restored ⊢
  exact p.attempts_eq_of_basis_eq mode positive restored

/-- **The basis determines the tableau.**  Where two sequences of pivots on the
first tableau of a problem end with the same basic columns, the row of reduced
costs is the same, and each constraint row of one tableau is the row of the
other one in which the same column is basic.  If the columns are basic in the
same rows, nothing differs, and a pivot followed by the one that brings the
leaving column back changes nothing. -/
theorem attempts_determined_by_basis :
    let after := (p.tableau mode epsilon).attempts
    (∀ first second, (after first).basisSet = (after second).basisSet →
        ∃ order, (after first).Rearranges order (after second)) ∧
      (∀ first second, (after first).basis = (after second).basis → after first = after second) ∧
      ∀ places row column element other next back,
        (after places).pivot row (Fin.castSucc column) = .ok (element, next) →
          next.pivot row (after places).basis[row] = .ok (other, back) → back = after places := by
  refine ⟨fun first second same => ?_, fun first second same => ?_, ?_⟩
  · exact (p.represents_attempts mode positive first).exists_rearranges
      (p.represents_attempts mode positive second) same
  · exact p.attempts_eq_of_basis_eq mode positive same
  · intro places row column element other next back forth undone
    exact p.eq_attempts_of_pivot_back mode positive forth undone

end Attempts

/-- Both decision variables enter, the first one in the first row. -/
def straightWay : List (Fin 3 × Fin threeSensesProblem.width) :=
  [(threeSensesRow 0, threeSensesColumn 0), (threeSensesRow 1, threeSensesColumn 1)]

/-- Both decision variables enter, the first one in the second row. -/
def crossedWay : List (Fin 3 × Fin threeSensesProblem.width) :=
  [(threeSensesRow 0, threeSensesColumn 1), (threeSensesRow 1, threeSensesColumn 0)]

/-- The two ways meet with two rows exchanged.  The crossed one leads on to the
very end of the straight one, and its first step beyond can be taken back. -/
theorem ways_determined_by_basis :
    let after := (threeSensesProblem.tableau .phaseOne (1 / 1000)).attempts
    let beyond : Fin threeSensesProblem.width := ⟨4, by decide⟩
    (0 : ℚ) < 1 / 1000 ∧ (after straightWay).basisNumbers = [0, 1, 5] ∧
      (after crossedWay).basisNumbers = [1, 0, 5] ∧
      (∃ order, (after straightWay).Rearranges order (after crossedWay)) ∧
      after straightWay = after (crossedWay ++
        [(0, beyond), (1, ⟨1, by decide⟩), (0, ⟨0, by decide⟩)]) ∧
      ∃ element next other,
        (after crossedWay).pivot 0 beyond.castSucc = .ok (element, next) ∧
          next.pivot 0 (after crossedWay).basis[0] = .ok (other, after crossedWay) := by
  intro after beyond
  have positive : (0 : ℚ) < 1 / 1000 := by decide +kernel
  rcases threeSensesProblem.attempts_determined_by_basis .phaseOne positive with
    ⟨meet, agree, restore⟩
  let next := (after crossedWay).pivoted 0 beyond.castSucc
  have forth : (after crossedWay).pivot 0 beyond.castSucc =
      .ok ((after crossedWay).entry 0 beyond.castSucc, next) :=
    Tableau.pivot_eq_ok (by decide +kernel)
  have undone : next.pivot 0 (after crossedWay).basis[0] =
      .ok (next.entry 0 (after crossedWay).basis[0],
        next.pivoted 0 (after crossedWay).basis[0]) :=
    Tableau.pivot_eq_ok (by decide +kernel)
  rw [restore crossedWay 0 beyond _ _ _ _ forth undone] at undone
  exact ⟨positive, by decide +kernel, by decide +kernel, meet _ _ (by decide +kernel),
    agree _ _ (by decide +kernel), _, _, _, forth, undone⟩

end Problem
end LinearProgram
