import LinearProgram.Scalar

namespace LinearProgram

/-!
# The first smallest candidate

Both choices of the simplex method, of the column that enters the basis and of
the row that leaves it, take the first of the smallest candidates of a list.
-/

variable {K : Type} [Scalar K] {α : Type}

/-- The better of a champion and a challenger.  The champion stays unless its
key fails to be at most the key of the challenger. -/
def keepSmaller (key : α → K) (champion : Option α) (challenger : α) : Option α :=
  match champion with
  | some current => if key current ≤ key challenger then some current else some challenger
  | none => some challenger

/-- The first candidate with the smallest key. -/
def firstSmallest? (key : α → K) (candidates : List α) : Option α :=
  candidates.foldl (keepSmaller key) none

theorem keepSmaller_eq_or (key : α → K) (champion : Option α) (challenger : α) :
    keepSmaller key champion challenger = champion ∨
      keepSmaller key champion challenger = some challenger := by
  unfold keepSmaller
  split
  · split
    · exact Or.inl rfl
    · exact Or.inr rfl
  · exact Or.inr rfl

/-- A choice from a list that follows a champion is the champion or in the list. -/
theorem mem_of_foldl_keepSmaller (key : α → K) (candidates : List α) (champion : Option α)
    {chosen : α} (found : candidates.foldl (keepSmaller key) champion = some chosen) :
    champion = some chosen ∨ chosen ∈ candidates := by
  induction candidates generalizing champion with
  | nil => exact Or.inl found
  | cons challenger rest ih =>
    rcases ih (keepSmaller key champion challenger) found with kept | later
    · rcases keepSmaller_eq_or key champion challenger with same | taken
      · exact Or.inl (same ▸ kept)
      · rw [taken] at kept
        exact Or.inr (Option.some.inj kept ▸ List.mem_cons_self)
    · exact Or.inr (List.mem_cons_of_mem _ later)

/-- What is chosen is a candidate. -/
theorem mem_of_firstSmallest? (key : α → K) (candidates : List α) {chosen : α}
    (found : firstSmallest? key candidates = some chosen) : chosen ∈ candidates :=
  (mem_of_foldl_keepSmaller key candidates none found).resolve_left nofun

end LinearProgram
