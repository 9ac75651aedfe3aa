import LinearProgram.Tableau.Pivot

namespace LinearProgram

/-!
# A tableau by numbers

Callers from outside name rows and columns by plain numbers.  The operations
here take such numbers and say what lies outside of the table.  Cells are
numbered `0..m` by `0..N`, the row of reduced costs and the right hand side
included.
-/

namespace Tableau

variable {K : Type} {m N : Nat}

/-- The entry of a cell. -/
def cell? (T : Tableau K m N) (row column : Nat) : Option K := do
  return T.cell (← index? (m + 1) row) (← index? (N + 1) column)

/-- The right hand side of a row, which may be the row of reduced costs. -/
def rhs? (T : Tableau K m N) (row : Nat) : Option K :=
  T.cell? row N

/-- The reduced cost of a column, which may be the right hand side. -/
def reducedCost? (T : Tableau K m N) (column : Nat) : Option K :=
  T.cell? m column

/-- The tableau with another entry in one cell. -/
def setCell? (T : Tableau K m N) (row column : Nat) (value : K) : Option (Tableau K m N) := do
  let i ← index? (m + 1) row
  let j ← index? (N + 1) column
  return { T with cells := T.cells.set i (T.cells[i].set j value) }

/-- Whether a number is that of a basic column.  No number outside of the table is. -/
def isBasicAt (T : Tableau K m N) (column : Nat) : Bool :=
  (index? (N + 1) column).any T.isBasic

/-- The row that leaves when the column with the given number enters.  Without
rows there is nothing to look up, whatever the number. -/
def leavingAt? [Scalar K] (T : Tableau K m N) (column : Nat) : Option (Option (Fin m)) :=
  if m = 0 then some none
  else do return T.leaving? (← index? (N + 1) column)

/-- A pivot on the cell with the given numbers.  The row of reduced costs has
no basic column to replace: an element that is too small is refused there like
anywhere else, and any other is out of range. -/
def pivotAt [Scalar K] (T : Tableau K m N) (row column : Nat) :
    Except (Failure K) (K × Tableau K m N) := do
  let element ← Failure.ofOption (T.cell? row column)
  match index? m row, index? (N + 1) column with
  | some i, some j => Failure.lift (T.pivot i j)
  | _, _ =>
    if Scalar.abs element < T.epsilon then .error (.error (.degeneratePivot row column element))
    else .error .indexOutOfRange

end Tableau

end LinearProgram
