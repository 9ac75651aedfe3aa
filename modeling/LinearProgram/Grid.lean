namespace LinearProgram

/-!
# Rectangles of numbers

A grid stores the entries of a matrix, row after row.  Its two sizes are part
of its type, so a bounded index always finds its entry and no operation on
grids can fail.
-/

/-- A bounded index always finds its entry in a vector, so none of its uses has to
prove anything. -/
instance instGetElemFin {α : Type} {n : Nat} : GetElem (Vector α n) (Fin n) α fun _ _ => True where
  getElem entries index _ := entries.get index

@[simp]
theorem getElem_fin {α : Type} {n : Nat} (entries : Vector α n) (index : Fin n) :
    entries[index] = entries[index.val] := rfl

/-- A rectangle of `m` rows with `n` entries each. -/
abbrev Grid (K : Type) (m n : Nat) := Vector (Vector K n) m

/-- The rows of a grid as lists. -/
def Grid.toLists {K : Type} {m n : Nat} (grid : Grid K m n) : List (List K) :=
  grid.toList.map Vector.toList

end LinearProgram
