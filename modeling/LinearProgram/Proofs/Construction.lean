import LinearProgram.Proofs.Point

namespace LinearProgram

/-!
# Problems from lists

Exact numbers are all finite, so lists make a problem as soon as their lengths
agree.  The constraints of the problem, listed again, are the rows it was
built from, and a point is feasible when it satisfies each of these rows.
-/

/-- A constraint as it stands in a list. -/
structure ListedRow (K : Type) where
  coefficients : List K
  sense : Sense
  rhs : K

namespace Problem

variable {m n : Nat}

/-- The constraints of a problem as a list. -/
def listedRows (p : Problem ℚ m n) : List (ListedRow ℚ) :=
  (List.finRange m).map fun row => ⟨p.coefficients[row].toList, p.senses[row], p.rhs[row]⟩

theorem feasible_iff_listedRows (p : Problem ℚ m n) (x : List ℚ) :
    p.Feasible x ↔ x.length = n ∧ (∀ value ∈ x, 0 ≤ value) ∧
      ∀ row ∈ p.listedRows, row.sense.Holds (Scalar.dot row.coefficients x) row.rhs := by
  have rows : (∀ row ∈ p.listedRows, row.sense.Holds (Scalar.dot row.coefficients x) row.rhs) ↔
      ∀ row : Fin m, p.senses[row].Holds (p.activity row x) p.rhs[row] := by
    simp only [listedRows, List.forall_mem_map, List.mem_finRange, forall_const, activity]
  rw [rows]
  exact ⟨fun feasible => ⟨feasible.length_eq, feasible.nonnegative, feasible.holds⟩,
    fun ⟨length, nonnegative, holds⟩ => ⟨length, nonnegative, holds⟩⟩

/-! ## The checks -/

theorem checkFinite_rat (part : Part) (entries : List ℚ) : checkFinite part entries = .ok () := by
  have finite : (entries.findIdx? fun entry => !Scalar.isFinite entry) = none :=
    List.findIdx?_eq_none_iff.mpr fun _ _ => rfl
  rw [checkFinite, finite]

theorem exists_exactly {α : Type} (part : Part) {length : Nat} {entries : List α}
    (fits : entries.length = length) :
    ∃ vector : Vector α length, exactly (K := ℚ) part length entries = .ok vector ∧
      vector.toList = entries ∧ ∀ i : Fin length, entries[i]? = some vector[i] :=
  ⟨_, dif_pos fits, rfl, fun i => by simp⟩

theorem exists_rectangle {length : Nat} {rows : List (List ℚ)}
    (regular : ∀ row ∈ rows, row.length = length) :
    ∃ grid : Grid ℚ rows.length length, rectangle length rows = .ok grid ∧
      ∀ i : Fin rows.length, grid[i].toList = rows[i] := by
  have none : (rows.find? fun row => row.length ≠ length) = none :=
    List.find?_eq_none.mpr fun row member => by simpa using regular row member
  unfold rectangle
  split
  · next row found => exact nomatch none.symm.trans found
  · exact ⟨_, rfl, fun i => by simp⟩

/-- Listed rows of the right length make a problem with these rows. -/
theorem exists_ofRows? {objective : List ℚ} {rows : List (ListedRow ℚ)} (direction : Direction)
    (positive : 0 < objective.length)
    (regular : ∀ row ∈ rows, row.coefficients.length = objective.length) :
    ∃ p, ofRows? objective (rows.map ListedRow.coefficients) (rows.map ListedRow.rhs)
        (rows.map ListedRow.sense) direction = .ok p ∧
      p.objective.toList = objective ∧ p.listedRows = rows ∧ p.direction = direction := by
  obtain ⟨rhs, rhsFits, _, rhsEntries⟩ := exists_exactly .rightHandSide
    (show (rows.map ListedRow.rhs).length = (rows.map ListedRow.coefficients).length by simp)
  obtain ⟨senses, sensesFit, _, sensesEntries⟩ := exists_exactly .senses
    (show (rows.map ListedRow.sense).length = (rows.map ListedRow.coefficients).length by simp)
  obtain ⟨coefficients, gridFits, gridRows⟩ :=
    exists_rectangle (List.forall_mem_map.mpr regular)
  refine ⟨⟨⟨objective.toArray, by simp⟩, coefficients, rhs, senses, direction,
    Vector.ofFn fun j => defaultName j, positive⟩, ?_, rfl, ?_, rfl⟩
  · rw [ofRows?, dif_pos positive, checkFinite_rat, rhsFits, checkFinite_rat, sensesFit, gridFits,
      checkFinite_rat]
    rfl
  · apply List.ext_getElem
    · simp [listedRows]
    · intro i small bound
      have place : i < (rows.map ListedRow.coefficients).length := by simpa using bound
      have coefficientRow : coefficients[i].toList = rows[i].coefficients := by
        simpa using gridRows ⟨i, place⟩
      have sense : rows[i].sense = senses[i] := by
        simpa [bound] using sensesEntries ⟨i, place⟩
      have side : rows[i].rhs = rhs[i] := by
        simpa [bound] using rhsEntries ⟨i, place⟩
      simp [listedRows, coefficientRow, ← sense, ← side]

/-- A problem can take any names, one for each variable. -/
theorem exists_withNames (p : Problem ℚ m n) {names : List String} (fits : names.length = n) :
    ∃ named, p.withNames names = .ok { p with names := named } ∧ named.toList = names := by
  rcases exists_exactly .variableNames fits with ⟨named, given, listed, _⟩
  refine ⟨named, ?_, listed⟩
  rw [withNames, given]
  rfl

end Problem
end LinearProgram
