import LinearProgram.Problem.Basic

namespace LinearProgram

/-!
# Points of a problem

A point is a list of numbers, one for each variable.  This module gives its
objective value and the largest amount by which it misses a constraint or a
sign condition.  Points come from outside, so a list may be too short or too
long.  The objective runs over the entries that both sides have.  The
violation of a list that does not reach every coefficient of a row is
undefined, and entries past the last variable count for their sign only.
-/

/-- The amount by which a left side misses a right side.  It is not positive
where the relation holds. -/
def Sense.excess {K : Type} [Scalar K] (sense : Sense) (left right : K) : K :=
  match sense with
  | .le => left - right
  | .ge => right - left
  | .eq => Scalar.abs (left - right)

namespace Problem

variable {K : Type} [Scalar K] {m n : Nat}

/-- The value of the objective, in the direction of the problem itself. -/
def objectiveValue (p : Problem K m n) (x : List K) : K :=
  Scalar.dot p.objective.toList x

/-- The left side of a constraint. -/
def activity (p : Problem K m n) (row : Fin m) (x : List K) : K :=
  Scalar.dot p.coefficients[row].toList x

/-- The amount by which a point misses one constraint. -/
def rowViolation (p : Problem K m n) (row : Fin m) (x : List K) : K :=
  p.senses[row].excess (p.activity row x) p.rhs[row]

/-- The amounts by which a point misses its sign conditions and then the
constraints, in order. -/
def violations (p : Problem K m n) (x : List K) : List K :=
  x.map (- ·) ++ (List.finRange m).map fun row => p.rowViolation row x

/-- The largest amount by which a point misses a condition, or zero when it
misses none. -/
def worstViolation (p : Problem K m n) (x : List K) : K :=
  (p.violations x).foldl Scalar.larger 0

/-- The largest violation, where every coefficient of a constraint finds its
entry in the point. -/
def maxViolation? (p : Problem K m n) (x : List K) : Option K :=
  if m = 0 ∨ n ≤ x.length then some (p.worstViolation x) else none

/-- Whether a list is a point of the problem and misses no condition by more
than the tolerance. -/
def isSatisfiedBy (p : Problem K m n) (x : List K) (tolerance : K) : Bool :=
  x.length = n && p.worstViolation x ≤ tolerance

end Problem

end LinearProgram
