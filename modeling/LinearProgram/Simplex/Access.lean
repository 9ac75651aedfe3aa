import LinearProgram.Simplex.Run
import LinearProgram.Tableau.Access

namespace LinearProgram

/-!
# Recorded pivots by numbers

The counterpart of a recorded pivot for callers that name the row and the
column by plain numbers.
-/

namespace Pass

variable {K : Type} [Scalar K] {m N : Nat}

/-- Makes a column basic in a row and records it.  The row is looked up before
the pivot element is, so a row without a basic column is out of range. -/
def pivotAt (pass : Pass N) (T : Tableau K m N) (index row column : Nat) :
    Except (Failure K) (Step K m N) := do
  let i ← Failure.ofOption (Tableau.index? m row)
  let j ← Failure.ofOption (Tableau.index? (N + 1) column)
  pass.pivot T index i j

end Pass

end LinearProgram
