import LinearProgram.Problem.Basic
import LinearProgram.Split

namespace LinearProgram

/-!
# The dual of a problem

The dual has one quantity for each constraint and one constraint for each
variable.  It exchanges the objective with the right hand side, transposes the
coefficients and optimizes in the opposite direction.

A constraint has the natural sense if it bounds the improvement of the
objective: an upper bound when maximizing, a lower bound when minimizing.  The
quantity of a constraint is nonnegative for the natural sense, nonpositive for
the opposite one and of any sign for an equation; it is split into nonnegative
columns accordingly.  A constraint of the dual whose right hand side would be
negative changes its sign.
-/

/-- The sense of the constraints that bound an objective in its direction. -/
def Direction.naturalSense : Direction → Sense
  | maximize => .le
  | minimize => .ge

/-- How the dual quantity of a constraint is held by columns. -/
def Direction.dualSplit (direction : Direction) (sense : Sense) : Split :=
  if sense = direction.naturalSense then .direct
  else if sense = direction.naturalSense.flipped then .negated
  else .difference

namespace Problem

variable {K : Type} {m n : Nat}

/-- How the dual quantities are held by columns. -/
def dualSplits (p : Problem K m n) : Vector Split m :=
  p.senses.map p.direction.dualSplit

/-- The columns of the dual. -/
def dualColumns (p : Problem K m n) : List (SplitColumn m) :=
  Split.layout p.dualSplits

/-- The number of columns of the dual. -/
def dualWidth (p : Problem K m n) : Nat :=
  p.dualColumns.length

/-- How the dual quantities are recovered from the columns of the dual. -/
def dualRecoveries (p : Problem K m n) : List Recovery :=
  Split.recoveries p.dualSplits

/-- The name of the dual quantity of a constraint, counted from one. -/
def dualName (row : Nat) : String :=
  "y" ++ toString (row + 1)

variable [Scalar K]

/-- The sense of the constraint of the dual that belongs to a cost. -/
def dualSense (p : Problem K m n) (cost : K) : Sense :=
  if cost < 0 then p.direction.naturalSense else p.direction.naturalSense.flipped

/-- The dual of a problem.  A problem without constraints has none, since its
dual would have no variables. -/
def dual (p : Problem K m n) : Except (Error K) (Problem K n p.dualWidth) :=
  if positive : 0 < p.dualWidth then
    let columns : Vector (SplitColumn m) p.dualWidth := ⟨p.dualColumns.toArray, rfl⟩
    .ok {
      objective := columns.map fun column => signed column.negated p.rhs[column.source]
      coefficients := Vector.ofFn fun j => columns.map fun column =>
        signed (p.objective[j] < 0) (signed column.negated p.coefficients[column.source][j])
      rhs := p.objective.map fun cost => signed (cost < 0) cost
      senses := p.objective.map p.dualSense
      direction := p.direction.opposite
      names := columns.map fun column => dualName column.source ++ column.suffix
      variables_pos := positive }
  else .error .noVariables

end Problem

end LinearProgram
