import LinearProgram.Problem.Violation

namespace LinearProgram

/-!
# Feasible and optimal points

The meaning of a problem.  A feasible point has one nonnegative entry for each
variable and satisfies every constraint.  A problem has an optimum, has
feasible points without bound on their objective, or has no feasible point,
and each of these is a statement about all of its points.
-/

/-- Whether two sides are related as a sense says. -/
def Sense.Holds {K : Type} [Scalar K] (sense : Sense) (left right : K) : Prop :=
  match sense with
  | .le => left ≤ right
  | .ge => right ≤ left
  | .eq => left = right

namespace Problem

variable {K : Type} [Scalar K] {m n : Nat}

/-- A point that satisfies every condition of a problem. -/
structure Feasible (p : Problem K m n) (x : List K) : Prop where
  length_eq : x.length = n
  nonnegative : ∀ value ∈ x, 0 ≤ value
  holds : ∀ row : Fin m, p.senses[row].Holds (p.activity row x) p.rhs[row]

/-- The objective in the direction in which larger is better. -/
def merit (p : Problem K m n) (x : List K) : K :=
  p.direction.orient (p.objectiveValue x)

/-- A feasible point whose objective no feasible point improves. -/
structure Optimal (p : Problem K m n) (x : List K) : Prop where
  feasible : p.Feasible x
  best : ∀ y, p.Feasible y → p.merit y ≤ p.merit x

/-- There is no feasible point. -/
def Infeasible (p : Problem K m n) : Prop :=
  ∀ x, ¬ p.Feasible x

/-- Feasible points have arbitrarily good objectives. -/
def Unbounded (p : Problem K m n) : Prop :=
  (∃ x, p.Feasible x) ∧ ∀ bound, ∃ x, p.Feasible x ∧ bound < p.merit x

end Problem

end LinearProgram
