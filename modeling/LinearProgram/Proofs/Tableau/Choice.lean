import LinearProgram.Proofs.Rational
import LinearProgram.Tableau.Pivot

namespace LinearProgram

/-!
# What the choice of a pivot says

The entering column and the leaving row are first smallest candidates.  Where
a choice is made, the chosen candidate is a candidate and no other one is
smaller.  Where none is made there is no candidate, which is a statement about
all columns or about all rows.
-/

section Selection

variable {α : Type} (key : α → ℚ)

/-- Keys that an order relates make the champion step down just when it is beaten. -/
theorem keepSmaller_eq_argAux :
    keepSmaller key = List.argAux fun challenger current => key challenger < key current := by
  funext champion challenger
  cases champion with
  | none => rfl
  | some current =>
    rcases le_or_gt (key current) (key challenger) with atMost | below
    · exact (if_pos atMost).trans (if_neg atMost.not_gt).symm
    · exact (if_neg below.not_ge).trans (if_pos below).symm

theorem firstSmallest?_eq_argmin (candidates : List α) :
    firstSmallest? key candidates = candidates.argmin key := by
  rw [firstSmallest?, keepSmaller_eq_argAux]
  rfl

theorem firstSmallest?_eq_none_iff (candidates : List α) :
    firstSmallest? key candidates = none ↔ candidates = [] := by
  rw [firstSmallest?_eq_argmin, List.argmin_eq_none]

theorem key_firstSmallest?_le {candidates : List α} {chosen : α}
    (found : firstSmallest? key candidates = some chosen) {candidate : α}
    (member : candidate ∈ candidates) : key chosen ≤ key candidate := by
  rw [firstSmallest?_eq_argmin] at found
  exact List.le_of_mem_argmin member found

end Selection

namespace Tableau

variable {m N : Nat} (T : Tableau ℚ m N)

/-! ## The entering column -/

theorem mem_improvingColumns (allowed : Fin N → Bool) (column : Fin N) :
    column ∈ T.improvingColumns allowed ↔
      allowed column = true ∧ T.reducedCost column < -T.epsilon := by
  simp [improvingColumns]

theorem entering?_eq_none_iff (allowed : Fin N → Bool) :
    T.entering? allowed = none ↔
      ∀ column, allowed column = true → -T.epsilon ≤ T.reducedCost column := by
  rw [entering?, firstSmallest?_eq_none_iff, List.eq_nil_iff_forall_not_mem]
  simp only [mem_improvingColumns, not_and, not_lt]

variable {T}

theorem entering?_spec {allowed : Fin N → Bool} {column : Fin N}
    (entering : T.entering? allowed = some column) :
    allowed column = true ∧ T.reducedCost column < -T.epsilon :=
  (T.mem_improvingColumns allowed column).mp (mem_of_firstSmallest? T.reducedCost _ entering)

theorem reducedCost_neg_of_entering? (tolerant : 0 ≤ T.epsilon) {allowed : Fin N → Bool}
    {column : Fin N} (entering : T.entering? allowed = some column) : T.reducedCost column < 0 :=
  (entering?_spec entering).2.trans_le (neg_nonpos.mpr tolerant)

/-! ## The leaving row -/

variable (T) in
theorem mem_blockingRows (column : Fin (N + 1)) (row : Fin m) :
    row ∈ T.blockingRows column ↔ T.epsilon < T.entry row column := by
  simp [blockingRows]

variable (T) in
theorem leaving?_eq_none_iff (column : Fin (N + 1)) :
    T.leaving? column = none ↔ ∀ row, T.entry row column ≤ T.epsilon := by
  rw [leaving?, firstSmallest?_eq_none_iff, List.eq_nil_iff_forall_not_mem]
  simp only [mem_blockingRows, not_lt]

theorem lt_entry_of_leaving? {column : Fin (N + 1)} {row : Fin m}
    (leaving : T.leaving? column = some row) : T.epsilon < T.entry row column :=
  (T.mem_blockingRows column row).mp (mem_of_firstSmallest? (T.ratio column) _ leaving)

theorem entry_pos_of_leaving? (tolerant : 0 ≤ T.epsilon) {column : Fin (N + 1)} {row : Fin m}
    (leaving : T.leaving? column = some row) : 0 < T.entry row column :=
  tolerant.trans_lt (lt_entry_of_leaving? leaving)

theorem ratio_le_of_leaving? {column : Fin (N + 1)} {row other : Fin m}
    (leaving : T.leaving? column = some row) (blocking : T.epsilon < T.entry other column) :
    T.ratio column row ≤ T.ratio column other :=
  key_firstSmallest?_le (T.ratio column) leaving ((T.mem_blockingRows column other).mpr blocking)

end Tableau
end LinearProgram
