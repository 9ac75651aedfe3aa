import LinearProgram.Proofs.Tableau.Choice

namespace LinearProgram

/-!
# The pivot rule

A choice is made in one pass over the numbers of the columns or of the rows.
The pass leaves some of them out, keeps a champion and replaces it only by a
smaller one, so the champion at the end is the first of the smallest
candidates.  Columns whose reduced cost is not negative enough are left out
too.  This changes nothing once there is a column to enter, since a column that
is left out is never among the smallest ones.
-/

/-- Of the candidates the one with the least key, and of several such the one
with the lowest number. -/
structure FirstLeast {k : Nat} (candidate : Fin k → Prop) (key : Fin k → ℚ) (chosen : Fin k) :
    Prop where
  isCandidate : candidate chosen
  least : ∀ other, candidate other → key chosen ≤ key other
  first : ∀ other, candidate other → key other = key chosen → chosen ≤ other

/-! ## The pass over the candidates -/

section Selection

variable {k : Nat}

/-- In an ordered list the places are ordered as the entries are. -/
theorem idxOf_le_idxOf_iff {numbers : List (Fin k)} (ordered : numbers.Pairwise (· < ·))
    {i j : Fin k} (left : i ∈ numbers) (right : j ∈ numbers) :
    numbers.idxOf i ≤ numbers.idxOf j ↔ i ≤ j := by
  have places := ordered.sortedLT.strictMono_get.le_iff_le
    (a := ⟨numbers.idxOf i, List.idxOf_lt_length_of_mem left⟩)
    (b := ⟨numbers.idxOf j, List.idxOf_lt_length_of_mem right⟩)
  simpa using places.symm

theorem firstSmallest?_filter_eq_some_iff (key : Fin k → ℚ) (accepts : Fin k → Bool)
    (chosen : Fin k) :
    firstSmallest? key ((List.finRange k).filter accepts) = some chosen ↔
      FirstLeast (fun number => accepts number = true) key chosen := by
  have ordered := (List.pairwise_lt_finRange k).filter accepts
  have listed : ∀ number, number ∈ (List.finRange k).filter accepts ↔ accepts number = true := by
    simp
  rw [firstSmallest?_eq_argmin, List.argmin_eq_some_iff]
  constructor
  · rintro ⟨member, least, first⟩
    refine ⟨(listed chosen).mp member, fun other accepted => least other ((listed other).mpr accepted),
      fun other accepted same => ?_⟩
    have present := (listed other).mpr accepted
    exact (idxOf_le_idxOf_iff ordered member present).mp (first other present same.le)
  · rintro ⟨accepted, least, first⟩
    have member := (listed chosen).mpr accepted
    refine ⟨member, fun other present => least other ((listed other).mp present),
      fun other present small => ?_⟩
    have equal := le_antisymm small (least other ((listed other).mp present))
    exact (idxOf_le_idxOf_iff ordered member present).mpr
      (first other ((listed other).mp present) equal)

/-- Candidates with large keys can be left out if others remain. -/
theorem firstLeast_and_lt_iff {candidate : Fin k → Prop} {key : Fin k → ℚ} {bound : ℚ}
    {chosen : Fin k} :
    FirstLeast (fun number => candidate number ∧ key number < bound) key chosen ↔
      (∃ number, candidate number ∧ key number < bound) ∧ FirstLeast candidate key chosen := by
  constructor
  · rintro ⟨⟨isCandidate, below⟩, least, first⟩
    refine ⟨⟨chosen, isCandidate, below⟩, isCandidate, fun other present => ?_,
      fun other present same => first other ⟨present, same.trans_lt below⟩ same⟩
    rcases lt_or_ge (key other) bound with small | large
    · exact least other ⟨present, small⟩
    · exact below.le.trans large
  · rintro ⟨⟨number, present, small⟩, isCandidate, least, first⟩
    exact ⟨⟨isCandidate, (least number present).trans_lt small⟩,
      fun other both => least other both.1, fun other both => first other both.1⟩

end Selection

namespace Tableau

variable {m N : Nat} (T : Tableau ℚ m N)

theorem entering?_eq_some_iff (allowed : Fin N → Bool) (column : Fin N) :
    T.entering? allowed = some column ↔
      (∃ other, allowed other = true ∧ T.reducedCost other < -T.epsilon) ∧
        FirstLeast (fun other => allowed other = true) T.reducedCost column := by
  rw [← firstLeast_and_lt_iff, entering?, improvingColumns, firstSmallest?_filter_eq_some_iff]
  simp only [Bool.and_eq_true, Bool.not_eq_true', decide_eq_false_iff_not, not_le]

theorem leaving?_eq_some_iff (column : Fin (N + 1)) (row : Fin m) :
    T.leaving? column = some row ↔
      FirstLeast (fun other => T.epsilon < T.entry other column)
        (fun other => T.rhs other / T.entry other column) row := by
  rw [leaving?, blockingRows, firstSmallest?_filter_eq_some_iff]
  simp only [Bool.not_eq_true', decide_eq_false_iff_not, not_le]
  rfl

/-- **The pivot rule.**  Whatever columns are allowed, no column enters just
when none of them has a reduced cost below minus the tolerance, and otherwise
the first of those with the least reduced cost enters.  For any column, no row
leaves just when no entry exceeds the tolerance, and otherwise the first row
with the least ratio leaves, of all rows with such an entry and no others.  The
signs of the tolerance and of the right hand sides do not matter. -/
theorem choices_are_first_least :
    (∀ allowed : Fin N → Bool,
      (T.entering? allowed = none ↔
        ∀ column, allowed column = true → -T.epsilon ≤ T.reducedCost column) ∧
      ∀ column, T.entering? allowed = some column ↔
        (∃ other, allowed other = true ∧ T.reducedCost other < -T.epsilon) ∧
          FirstLeast (fun other => allowed other = true) T.reducedCost column) ∧
    ∀ column : Fin (N + 1),
      (T.leaving? column = none ↔ ∀ row, T.entry row column ≤ T.epsilon) ∧
      ∀ row, T.leaving? column = some row ↔
        FirstLeast (fun other => T.epsilon < T.entry other column)
          (fun other => T.rhs other / T.entry other column) row :=
  ⟨fun allowed => ⟨T.entering?_eq_none_iff allowed, T.entering?_eq_some_iff allowed⟩,
    fun column => ⟨T.leaving?_eq_none_iff column, T.leaving?_eq_some_iff column⟩⟩

end Tableau
end LinearProgram
