import LinearProgram.Selection
import LinearProgram.Tableau.Basic

namespace LinearProgram

/-!
# Changing the basis of a tableau

A pivot makes one column basic in one row by elimination, a new objective is
priced out against the basis, and two rules choose the next pivot: the column
with the most negative reduced cost, and the row with the least ratio of right
hand side to entry.  Ties go to the lower index.
-/

namespace Tableau

variable {K : Type} [Scalar K] {m N : Nat}

/-! ## Elimination -/

/-- The pivot row, divided by the pivot element. -/
def scaledRow (T : Tableau K m N) (row : Fin m) (column : Fin (N + 1)) : Vector K (N + 1) :=
  Vector.ofFn fun j => if j = column then 1 else T.entry row j / T.entry row column

/-- A row after its entry in the pivot column has been eliminated with the
scaled pivot row.  A row whose entry is zero already stays as it is. -/
def clearedRow (T : Tableau K m N) (column : Fin (N + 1)) (scaled : Vector K (N + 1))
    (i : Fin (m + 1)) : Vector K (N + 1) :=
  let factor := T.cell i column
  if Scalar.isZero factor then T.cells[i]
  else Vector.ofFn fun j => if j = column then 0 else T.cell i j - factor * scaled[j]

/-- All rows after the elimination of the pivot column. -/
def eliminated (T : Tableau K m N) (row : Fin m) (column : Fin (N + 1)) :
    Grid K (m + 1) (N + 1) :=
  let scaled := T.scaledRow row column
  Vector.ofFn fun i => if i = row.castSucc then scaled else T.clearedRow column scaled i

/-- The tableau in which a column has become basic in a row. -/
def pivoted (T : Tableau K m N) (row : Fin m) (column : Fin (N + 1)) : Tableau K m N :=
  { T with
    cells := T.eliminated row column
    basis := T.basis.set row column row.isLt }

/-- Makes a column basic in a row.  The result carries the pivot element as it
was.  An element that is smaller than the tolerance is refused. -/
def pivot (T : Tableau K m N) (row : Fin m) (column : Fin (N + 1)) :
    Except (Error K) (K × Tableau K m N) :=
  let element := T.entry row column
  if Scalar.abs element < T.epsilon then .error (.degeneratePivot row column element)
  else .ok (element, T.pivoted row column)

@[simp]
theorem epsilon_pivoted (T : Tableau K m N) (row : Fin m) (column : Fin (N + 1)) :
    (T.pivoted row column).epsilon = T.epsilon := rfl

theorem basis_pivoted (T : Tableau K m N) (row : Fin m) (column : Fin (N + 1)) (other : Fin m) :
    (T.pivoted row column).basis[other] = if other = row then column else T.basis[other] := by
  simp only [pivoted, getElem_fin, Vector.getElem_set, Fin.ext_iff, eq_comm (a := row.val)]

/-- The pivot row of a pivoted tableau. -/
theorem cell_pivoted_row (T : Tableau K m N) (row : Fin m) (column j : Fin (N + 1)) :
    (T.pivoted row column).cell row.castSucc j =
      if j = column then 1 else T.entry row j / T.entry row column := by
  have own : (⟨row.val, Nat.lt_succ_of_lt row.isLt⟩ : Fin (m + 1)) = row.castSucc := rfl
  simp [pivoted, eliminated, scaledRow, cell, own]

/-- The other rows of a pivoted tableau, the row of reduced costs included. -/
theorem cell_pivoted_of_ne (T : Tableau K m N) {row : Fin m} (column j : Fin (N + 1))
    {i : Fin (m + 1)} (different : i ≠ row.castSucc) :
    (T.pivoted row column).cell i j =
      if Scalar.isZero (T.cell i column) then T.cell i j
      else if j = column then 0
      else T.cell i j - T.cell i column * (T.entry row j / T.entry row column) := by
  have outside : i.val ≠ row.val := fun same => different (Fin.ext same)
  by_cases zero : Scalar.isZero (T.cell i column)
  · simp_all [pivoted, eliminated, clearedRow, cell, Fin.ext_iff]
  · by_cases pivotColumn : j = column
    · simp_all [pivoted, eliminated, clearedRow, cell, Fin.ext_iff]
    · simp_all [pivoted, eliminated, clearedRow, scaledRow, cell, Fin.ext_iff]

/-! ## Objectives -/

/-- The cost of a column; the right hand side has none. -/
def costOf (costs : Vector K N) (column : Fin (N + 1)) : K :=
  if h : column.val < N then costs[column] else 0

/-- The row of an objective whose costs have not met the basis yet. -/
def rawObjective (costs : Vector K N) : Vector K (N + 1) :=
  Vector.ofFn fun j => if h : j.val < N then -costs[j] else 0

/-- Adds a constraint row to an objective row so that the basic column of the
constraint row gets reduced cost zero.  A row whose basic column costs nothing
is passed over. -/
def priceOut (T : Tableau K m N) (costs : Vector K N) (z : Vector K (N + 1)) (row : Fin m) :
    Vector K (N + 1) :=
  let basic := T.basis[row]
  let cost := costOf costs basic
  if Scalar.isZero cost then z
  else Vector.ofFn fun j => if j = basic then 0 else z[j] + cost * T.entry row j

/-- The row of reduced costs of the objective to maximize. -/
def objectiveRow (T : Tableau K m N) (costs : Vector K N) : Vector K (N + 1) :=
  (List.finRange m).foldl (T.priceOut costs) (rawObjective costs)

/-- The same system with another objective to maximize. -/
def loadObjective (T : Tableau K m N) (costs : Vector K N) : Tableau K m N :=
  { T with cells := T.cells.set (Fin.last m) (T.objectiveRow costs) }

@[simp]
theorem basis_loadObjective (T : Tableau K m N) (costs : Vector K N) :
    (T.loadObjective costs).basis = T.basis := rfl

@[simp]
theorem epsilon_loadObjective (T : Tableau K m N) (costs : Vector K N) :
    (T.loadObjective costs).epsilon = T.epsilon := rfl

/-- A new objective leaves the constraint rows as they are. -/
@[simp]
theorem entry_loadObjective (T : Tableau K m N) (costs : Vector K N) (row : Fin m)
    (column : Fin (N + 1)) : (T.loadObjective costs).entry row column = T.entry row column := by
  have above : m ≠ row.val := Nat.ne_of_gt row.isLt
  simp [loadObjective, entry, cell, above]

/-! ## The choice of the next pivot -/

/-- The allowed columns whose reduced cost lies below minus the tolerance. -/
def improvingColumns (T : Tableau K m N) (allowed : Fin N → Bool) : List (Fin N) :=
  (List.finRange N).filter fun column =>
    allowed column && !decide (-T.epsilon ≤ T.reducedCost column)

/-- The column that enters: the most negative reduced cost, the lowest index
on ties, and none at an optimum. -/
def entering? (T : Tableau K m N) (allowed : Fin N → Bool) : Option (Fin N) :=
  firstSmallest? T.reducedCost (T.improvingColumns allowed)

/-- The rows whose entry in a column lies above the tolerance. -/
def blockingRows (T : Tableau K m N) (column : Fin (N + 1)) : List (Fin m) :=
  (List.finRange m).filter fun row => !decide (T.entry row column ≤ T.epsilon)

/-- How far a column can grow before the basic variable of a row reaches zero. -/
def ratio (T : Tableau K m N) (column : Fin (N + 1)) (row : Fin m) : K :=
  T.rhs row / T.entry row column

/-- The row that leaves: the least ratio, the lowest index on ties, and none
when the column can grow without bound. -/
def leaving? (T : Tableau K m N) (column : Fin (N + 1)) : Option (Fin m) :=
  firstSmallest? (T.ratio column) (T.blockingRows column)

end Tableau

end LinearProgram
