import LinearProgram.Grid
import LinearProgram.Error

namespace LinearProgram

/-!
# The simplex tableau

A tableau of `m` rows and `N` columns holds the system of constraints in its
rows `0..m` and the reduced costs of an objective in a last row.  Its last
column is the right hand side.  In each constraint row one column is basic;
when all is well the basic columns form an identity matrix and have reduced
cost zero, which is what `isCanonical` tests.

The basis may name the right hand side itself: pivoting there is possible and
leaves a tableau of the same shape.  Such a basis has no values for its
columns, so the operations that need them are partial.
-/

/-- A dense simplex tableau. -/
structure Tableau (K : Type) (m N : Nat) where
  /-- The constraint rows, then the row of reduced costs. -/
  cells : Grid K (m + 1) (N + 1)
  /-- The basic column of each constraint row. -/
  basis : Vector (Fin (N + 1)) m
  /-- The size up to which an entry counts as zero. -/
  epsilon : K
  deriving DecidableEq

namespace Tableau

variable {K : Type} {m N : Nat}

/-- A number as an index below a bound, if it is one. -/
def index? (bound number : Nat) : Option (Fin bound) :=
  if h : number < bound then some ⟨number, h⟩ else none

/-! ## Entries -/

/-- An entry of the tableau. -/
def cell (T : Tableau K m N) (i : Fin (m + 1)) (j : Fin (N + 1)) : K :=
  T.cells[i][j]

/-- The entry of a constraint row in a column. -/
def entry (T : Tableau K m N) (row : Fin m) (column : Fin (N + 1)) : K :=
  T.cell row.castSucc column

/-- The right hand side of a constraint row. -/
def rhs (T : Tableau K m N) (row : Fin m) : K :=
  T.entry row (Fin.last N)

/-- The reduced cost of a column. -/
def reducedCost (T : Tableau K m N) (column : Fin N) : K :=
  T.cell (Fin.last m) column.castSucc

/-- The value of the maximized objective at the basic solution. -/
def objectiveRhs (T : Tableau K m N) : K :=
  T.cell (Fin.last m) (Fin.last N)

/-! ## The basic solution -/

/-- The numbers of the basic columns, row by row. -/
def basisNumbers (T : Tableau K m N) : List Nat :=
  T.basis.toList.map Fin.val

/-- The last row in which a column is basic. -/
def basicRow? (T : Tableau K m N) (column : Fin (N + 1)) : Option (Fin m) :=
  (List.finRange m).reverse.find? fun row => T.basis[row] = column

/-- Whether a column is basic in some row. -/
def isBasic (T : Tableau K m N) (column : Fin (N + 1)) : Bool :=
  (T.basicRow? column).isSome

/-- The value of a column in the basic solution: the right hand side of its
row, or zero for a column that is not basic. -/
def columnValue [Scalar K] (T : Tableau K m N) (column : Fin N) : K :=
  match T.basicRow? column.castSucc with
  | some row => T.rhs row
  | none => 0

/-- The basic columns, unless the right hand side is one of them. -/
def basicColumns? (T : Tableau K m N) : Option (List (Fin N)) :=
  T.basis.toList.mapM fun (column : Fin (N + 1)) => index? N column

/-- The values of all columns, unless the right hand side is basic. -/
def columnValues? [Scalar K] (T : Tableau K m N) : Option (List K) :=
  T.basicColumns?.map fun _ => (List.finRange N).map T.columnValue

/-! ## Canonical form -/

/-- Whether a basic column differs from its unit vector by no more than the
tolerance in every row, the row of reduced costs included. -/
def isUnitColumn [Scalar K] (T : Tableau K m N) (row : Fin m) : Bool :=
  (List.finRange (m + 1)).all fun i =>
    let expected : K := if i = row.castSucc then 1 else 0
    !(decide (T.epsilon < Scalar.abs (T.cell i T.basis[row] - expected)))

/-- Whether the basic columns are pairwise different unit vectors with reduced
cost zero, up to the tolerance. -/
def isCanonical [Scalar K] (T : Tableau K m N) : Bool :=
  (List.finRange m).all T.isUnitColumn && decide T.basis.toList.Nodup

end Tableau

end LinearProgram
