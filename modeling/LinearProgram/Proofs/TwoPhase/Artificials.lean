import LinearProgram.Proofs.Representation
import LinearProgram.Proofs.Simplex.Run
import LinearProgram.Solver.TwoPhase

namespace LinearProgram

/-!
# Artificial columns that are still basic

Between the phases every artificial column that is still basic is looked at
once.  It is replaced where its row has an entry in another column.  Otherwise
its row says nothing about the other columns, and it is out of reach for every
later pivot on a column that is not artificial.
-/

variable {m n : Nat} {p : Problem ℚ m n} {T : Tableau ℚ m p.width}

namespace Problem

theorem isArtificialColumn_castSucc (p : Problem ℚ m n) (j : Fin p.width) :
    p.isArtificialColumn j.castSucc = p.tags[j].isArtificial :=
  dif_pos j.isLt

/-- Where an artificial column is basic, the row has no entry in any other kind of column. -/
def Isolated (p : Problem ℚ m n) (T : Tableau ℚ m p.width) (row : Fin m) : Prop :=
  p.isArtificialColumn T.basis[row] = true →
    ∀ j : Fin p.width, p.tags[j].isArtificial = false → T.entry row j.castSucc = 0

/-- No right hand side is negative, and no basic artificial column has a value
above the bound. -/
structure Within (p : Problem ℚ m n) (bound : ℚ) (T : Tableau ℚ m p.width) : Prop where
  nonnegative : T.NonnegativeRhs
  artificial : ∀ row : Fin m, p.isArtificialColumn T.basis[row] = true → T.rhs row ≤ bound

/-- Values on the basis that leave artificial columns out have no artificial part. -/
theorem noArtificial_spread {w : Fin m → ℚ}
    (zero : ∀ row : Fin m, p.isArtificialColumn T.basis[row] = true → w row = 0) :
    p.NoArtificial (T.spread w) := by
  intro j artificial
  refine Finset.sum_eq_zero fun row _ => ?_
  split
  · next basic =>
    apply zero row
    rw [basic, isArtificialColumn_castSucc, artificial]
  · rfl

namespace Within

variable {bound : ℚ}

theorem mono (within : p.Within bound T) {larger : ℚ} (weaker : bound ≤ larger) :
    p.Within larger T :=
  ⟨within.nonnegative, fun row artificial => (within.artificial row artificial).trans weaker⟩

theorem columnValue_le (within : p.Within bound T) (allowed : 0 ≤ bound) {j : Fin p.width}
    (artificial : p.tags[j].isArtificial = true) : T.columnValue j ≤ bound := by
  unfold Tableau.columnValue
  cases found : T.basicRow? j.castSucc with
  | none => exact allowed
  | some row =>
    have chosen := List.find?_some found
    have basic : T.basis[row] = j.castSucc := of_decide_eq_true chosen
    apply within.artificial row
    rw [basic, isArtificialColumn_castSucc, artificial]

theorem rhs_eq_zero (within : p.Within 0 T) {row : Fin m}
    (artificial : p.isArtificialColumn T.basis[row] = true) : T.rhs row = 0 :=
  le_antisymm (within.artificial row artificial) (within.nonnegative row)

theorem noArtificial (within : p.Within 0 T) (unit : T.UnitBasis) :
    p.NoArtificial T.columnValue := fun j artificial =>
  le_antisymm (within.columnValue_le (le_refl 0) artificial)
    (within.nonnegative.columnValue_nonneg unit j)

/-- Under a bound of zero the basic solution is a feasible point. -/
theorem admits (within : p.Within 0 T) {mode : ObjectiveMode ℚ}
    (represents : p.Represents mode T) : p.Admits (p.decisionPart T.columnValue) :=
  p.admits_decisionPart represents.equations_columnValue
    (within.nonnegative.columnValue_nonneg represents.canonical.unitBasis)
    (within.noArtificial represents.canonical.unitBasis)

/-- A basic solution without artificial part is optimal where no feasible point is better. -/
theorem optimal {p : Problem ℚ m n} {T : Tableau ℚ m p.normalized.width}
    (within : p.normalized.Within 0 T) {mode : ObjectiveMode ℚ}
    (represents : p.normalized.Represents mode T)
    (best : ∀ y, p.normalized.Admits y →
      p.normalized.gain y ≤ p.normalized.gain (p.normalized.decisionPart T.columnValue)) :
    p.Optimal (List.ofFn (p.normalized.decisionPart T.columnValue)) := by
  have admits := within.admits represents
  rw [admits_normalized_iff, ← feasible_ofFn_iff] at admits
  refine ⟨admits, fun list feasible => ?_⟩
  rcases feasible.exists_ofFn with ⟨y, rfl, other⟩
  rw [merit_ofFn, merit_ofFn]
  exact best y ((p.admits_normalized_iff y).mpr other)

theorem loadObjective (within : p.Within bound T) (costs : Vector ℚ p.width) :
    p.Within bound (T.loadObjective costs) := by
  refine ⟨fun row => ?_, fun row artificial => ?_⟩
  · rw [Tableau.rhs_loadObjective]
    exact within.nonnegative row
  · rw [Tableau.rhs_loadObjective]
    exact within.artificial row artificial

/-- The basic solution misses no condition by more than the bound. -/
theorem isSatisfiedBy (within : p.Within bound T) {mode : ObjectiveMode ℚ}
    (represents : p.Represents mode T) (allowed : 0 ≤ bound) {tolerance : ℚ}
    (coarser : bound ≤ tolerance) :
    p.isSatisfiedBy (List.ofFn (p.decisionPart T.columnValue)) tolerance = true := by
  have nonnegative := within.nonnegative.columnValue_nonneg represents.canonical.unitBasis
  have reached := allowed.trans coarser
  refine (p.isSatisfiedBy_ofFn_iff _ reached).mpr ⟨fun k => ?_, fun row => ?_⟩
  · exact (neg_nonpos.mpr reached).trans (nonnegative (p.decisionColumn k))
  · exact (p.excess_decisionPart_le represents.equations_columnValue nonnegative allowed
      (fun j artificial => within.columnValue_le allowed artificial) row).trans coarser

end Within

/-! ## Pivots on other columns -/

theorem rhs_pivoted_of_rhs_eq_zero {row : Fin m} {column : Fin (p.width + 1)}
    (nonzero : T.entry row column ≠ 0) (zero : T.rhs row = 0) (own : Fin m) :
    (T.pivoted row column).rhs own = T.rhs own := by
  by_cases same : own = row
  · rw [same, Tableau.rhs_pivoted_self nonzero, zero, zero_div]
  · rw [Tableau.rhs_pivoted_of_ne nonzero same, zero, zero_div, mul_zero, sub_zero]

section Pivot

variable {row : Fin m} {column : Fin p.width} (other : p.tags[column].isArtificial = false)
include other

/-- A row whose basic column is artificial after the pivot is another row and
had this column before. -/
theorem artificial_of_pivoted {own : Fin m}
    (artificial : p.isArtificialColumn (T.pivoted row column.castSucc).basis[own] = true) :
    own ≠ row ∧ p.isArtificialColumn T.basis[own] = true := by
  rw [Tableau.basis_pivoted] at artificial
  split at artificial
  · rw [isArtificialColumn_castSucc, other] at artificial
    exact absurd artificial Bool.false_ne_true
  · next elsewhere => exact ⟨elsewhere, artificial⟩

/-- An isolated row is not touched by a pivot elsewhere on a column that is not artificial. -/
theorem Isolated.pivoted (nonzero : T.entry row column.castSucc ≠ 0) {own : Fin m}
    (isolated : p.Isolated T own) :
    p.Isolated (T.pivoted row column.castSucc) own := by
  intro artificial j kind
  rcases artificial_of_pivoted other artificial with ⟨elsewhere, before⟩
  rw [Tableau.entry_pivoted_of_ne nonzero _ elsewhere, isolated before j kind,
    isolated before column other, zero_mul, sub_zero]

/-- A pivot in a row at zero on a column that is not artificial raises no artificial column. -/
theorem Within.pivoted_of_rhs_eq_zero {bound : ℚ} (within : p.Within bound T)
    (nonzero : T.entry row column.castSucc ≠ 0) (zero : T.rhs row = 0) :
    p.Within bound (T.pivoted row column.castSucc) := by
  have still := Problem.rhs_pivoted_of_rhs_eq_zero nonzero zero
  refine ⟨fun own => ?_, fun own artificial => ?_⟩
  · rw [still]
    exact within.nonnegative own
  · rw [still]
    exact within.artificial own (artificial_of_pivoted other artificial).2

/-- A pivot on a column that is not artificial and has no negative entry where
artificial columns are basic raises none of them. -/
theorem Within.pivoted {bound : ℚ} (within : p.Within bound T)
    (feasible : (T.pivoted row column.castSucc).NonnegativeRhs)
    (positive : 0 < T.entry row column.castSucc)
    (kept : ∀ own : Fin m, p.isArtificialColumn T.basis[own] = true →
      0 ≤ T.entry own column.castSucc) :
    p.Within bound (T.pivoted row column.castSucc) := by
  refine ⟨feasible, fun own artificial => ?_⟩
  rcases artificial_of_pivoted other artificial with ⟨elsewhere, before⟩
  have step : 0 ≤ T.rhs row / T.entry row column.castSucc :=
    div_nonneg (within.nonnegative row) positive.le
  have lowered := mul_nonneg (kept own before) step
  have old := within.artificial own before
  rw [Tableau.rhs_pivoted_of_ne positive.ne' elsewhere]
  linarith

end Pivot

end Problem

namespace TwoPhase

open Problem

/-! ## The search for a replacement -/

theorem isBasic_iff (column : Fin (p.width + 1)) :
    T.isBasic column = true ↔ ∃ row : Fin m, T.basis[row] = column := by
  simp [Tableau.isBasic, Tableau.basicRow?]

theorem replacement?_spec {row : Fin m} {column : Fin p.width}
    (found : replacement? p T row = some column) :
    p.tags[column].isArtificial = false ∧ T.epsilon < |T.entry row column.castSucc| := by
  have chosen := List.find?_some found
  simp only [Bool.and_eq_true, Bool.not_eq_true', decide_eq_true_eq, Scalar.abs_rat] at chosen
  exact ⟨chosen.1.1, chosen.2⟩

/-- Without a replacement the entries of the row are within the tolerance in
every column that is neither artificial nor basic, and zero in basic ones. -/
theorem abs_entry_le_of_replacement?_eq_none {row : Fin m} (unit : T.UnitBasis)
    (positive : 0 ≤ T.epsilon) (artificial : p.isArtificialColumn T.basis[row] = true)
    (nothing : replacement? p T row = none) {j : Fin p.width}
    (other : p.tags[j].isArtificial = false) : |T.entry row j.castSucc| ≤ T.epsilon := by
  by_cases basic : ∃ own : Fin m, T.basis[own] = j.castSucc
  · rcases basic with ⟨own, same⟩
    have elsewhere : row ≠ own := by
      intro here
      rw [here, same, isArtificialColumn_castSucc, other] at artificial
      exact Bool.false_ne_true artificial
    rw [← same, unit.isUnit own row, if_neg elsewhere, abs_zero]
    exact positive
  · have refused := List.find?_eq_none.mp nothing j (List.mem_finRange j)
    have outside : T.isBasic j.castSucc = false := by
      rw [← Bool.not_eq_true, isBasic_iff]
      exact basic
    simp only [other, outside, Scalar.abs_rat, Bool.not_false, Bool.true_and, decide_eq_true_eq]
      at refused
    exact not_lt.mp refused

/-! ## The pass over the rows -/

/-- A pivot that drives an artificial column out of a row of a canonical tableau. -/
structure Replaces (p : Problem ℚ m n) (T : Tableau ℚ m p.width) (row : Fin m)
    (column : Fin p.width) : Prop where
  canonical : T.Canonical
  positive : 0 < T.epsilon
  artificial : p.isArtificialColumn T.basis[row] = true
  found : replacement? p T row = some column

namespace Replaces

variable {row : Fin m} {column : Fin p.width}

theorem other (replaces : Replaces p T row column) : p.tags[column].isArtificial = false :=
  (replacement?_spec replaces.found).1

theorem nonzero (replaces : Replaces p T row column) : T.entry row column.castSucc ≠ 0 :=
  abs_pos.mp (replaces.positive.trans (replacement?_spec replaces.found).2)

end Replaces

/-- What the replacements keep.  The invariant may speak about the rows that
are still to be looked at, and rely on a guard that all tableaus are known to
have. -/
theorem driveOut_invariant (pass : Pass p.width) (Guard : Tableau ℚ m p.width → Prop)
    (Inv : List (Fin m) → Tableau ℚ m p.width → Prop)
    (passed : ∀ row rows U, Inv (row :: rows) U → p.isArtificialColumn U.basis[row] = false →
      Inv rows U)
    (redundant : ∀ row rows U, Inv (row :: rows) U → Guard U → U.Canonical → 0 < U.epsilon →
      p.isArtificialColumn U.basis[row] = true → replacement? p U row = none → Inv rows U)
    (replaced : ∀ row rows U column, Inv (row :: rows) U → Guard U → Replaces p U row column →
      Inv rows (U.pivoted row column.castSucc))
    (index : Nat) (rows : List (Fin m)) (canonical : T.Canonical) (positive : 0 < T.epsilon)
    (start : Inv rows T)
    (guarded : ∀ U ∈ T :: (driveOut p pass index T rows).steps.map Step.next, Guard U) :
    (driveOut p pass index T rows).failure? = none ∧
      Inv [] (driveOut p pass index T rows).final ∧
      ∀ U ∈ T :: (driveOut p pass index T rows).steps.map Step.next, ∃ rest, Inv rest U := by
  induction rows generalizing index T with
  | nil => exact ⟨rfl, start, List.forall_mem_singleton.mpr ⟨[], start⟩⟩
  | cons row rows ih =>
    rw [driveOut] at guarded ⊢
    cases artificial : p.isArtificialColumn T.basis[row] with
    | false =>
      simp only [artificial, Bool.false_eq_true, if_false] at guarded ⊢
      exact ih index canonical positive (passed row rows T start artificial) guarded
    | true =>
      have here := guarded T List.mem_cons_self
      simp only [artificial, if_true] at guarded ⊢
      cases found : replacement? p T row with
      | none =>
        simp only [found] at guarded ⊢
        exact ih index canonical positive
          (redundant row rows T start here canonical positive artificial found) guarded
      | some column =>
        have replaces : Replaces p T row column := ⟨canonical, positive, artificial, found⟩
        have recorded := pass.pivot_eq_ok (canonical.isColumn row)
          (replacement?_spec found).2.le index
        simp only [found, recorded] at guarded ⊢
        obtain ⟨unbroken, finished, later⟩ := ih (index + 1)
          (canonical.pivoted replaces.nonzero) positive
          (replaced row rows T column start here replaces)
          fun U member => guarded U (List.mem_cons_of_mem T member)
        exact ⟨unbroken, finished, List.forall_mem_cons.mpr ⟨⟨row :: rows, start⟩, later⟩⟩

end TwoPhase
end LinearProgram
