import LinearProgram.Tableau.Pivot

namespace LinearProgram

/-!
# Recorded pivots

A pass is a stretch of pivoting under fixed circumstances.  Each of its pivots
is recorded as a `Step`, together with the tableau that it leads to.
-/

/-- The part of a solution process that a pivot belongs to. -/
inductive Phase where
  /-- The only run of a process that has one. -/
  | single
  /-- The search for a feasible basis. -/
  | one
  /-- The optimization from a feasible basis. -/
  | two
  deriving DecidableEq, Repr

/-- The record of one pivot. -/
structure Step (K : Type) (m N : Nat) where
  /-- The number of earlier pivots of the process. -/
  index : Nat
  phase : Phase
  /-- The column that became basic. -/
  entering : Fin N
  /-- The row in which it became basic. -/
  row : Fin m
  /-- The column that was basic there before. -/
  leaving : Fin N
  /-- The pivot element before the elimination. -/
  element : K
  /-- The tableau after the pivot. -/
  next : Tableau K m N
  deriving DecidableEq

/-- The circumstances of a stretch of pivoting on tableaus with `N` columns. -/
structure Pass (N : Nat) where
  /-- The columns that may enter the basis. -/
  allowed : Fin N → Bool
  /-- The number of pivots after which a run gives up. -/
  cap : Nat
  phase : Phase

namespace Pass

variable {K : Type} [Scalar K] {m N : Nat}

/-- Makes a column basic in a row and records it as the step with the given
index.  Neither of the two columns concerned can be the right hand side. -/
def pivot (pass : Pass N) (T : Tableau K m N) (index : Nat) (row : Fin m)
    (column : Fin (N + 1)) : Except (Failure K) (Step K m N) := do
  let (element, next) ← Failure.lift (T.pivot row column)
  return {
    index
    phase := pass.phase
    entering := ← Failure.ofOption (Tableau.index? N column)
    row
    leaving := ← Failure.ofOption (Tableau.index? N T.basis[row])
    element
    next }

end Pass

end LinearProgram
