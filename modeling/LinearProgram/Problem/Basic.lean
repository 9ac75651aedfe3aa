import LinearProgram.Grid
import LinearProgram.Error

namespace LinearProgram

/-!
# Linear programs

A problem asks for the best value of a linear objective over the nonnegative
points that satisfy finitely many linear rows.  It is built from lists by
`Problem.ofRows?`, which is the one place where data from outside are checked.
Past that point the sizes are part of the type, and every problem has at least
one decision variable.
-/

/-- How the two sides of a constraint are related. -/
inductive Sense where
  | le
  | ge
  | eq
  deriving DecidableEq, Repr

/-- The relation between the two sides after both have changed their sign. -/
def Sense.flipped : Sense → Sense
  | .le => .ge
  | .ge => .le
  | .eq => .eq

/-- Whether a large or a small objective is better. -/
inductive Direction where
  | maximize
  | minimize
  deriving DecidableEq, Repr

namespace Direction

/-- The direction in which the negated objective is optimized. -/
def opposite : Direction → Direction
  | maximize => minimize
  | minimize => maximize

/-- The number whose increase is an improvement in the given direction. -/
def orient {K : Type} [Scalar K] : Direction → K → K
  | maximize, value => value
  | minimize, value => -value

end Direction

/-- A linear program of `m` constraints on `n` nonnegative decision variables. -/
structure Problem (K : Type) (m n : Nat) where
  /-- The coefficient of each variable in the objective. -/
  objective : Vector K n
  /-- The coefficient of each variable in each constraint. -/
  coefficients : Grid K m n
  /-- The constant side of each constraint. -/
  rhs : Vector K m
  /-- The relation of each constraint. -/
  senses : Vector Sense m
  /-- Whether the objective is maximized or minimized. -/
  direction : Direction
  /-- The names of the variables. -/
  names : Vector String n
  /-- There is a variable to decide on. -/
  variables_pos : 0 < n
  deriving DecidableEq

namespace Problem

variable {K : Type} [Scalar K] {m n : Nat}

/-! ## Construction from data -/

/-- The entries of a list that must have a given length. -/
def exactly {α : Type} (part : Part) (length : Nat) (entries : List α) :
    Except (Error K) (Vector α length) :=
  if h : entries.length = length then .ok ⟨entries.toArray, by simpa using h⟩
  else .error (.dimensionMismatch part length entries.length)

/-- The grid of a list of rows that must all have the same length.  The first
row of another length is reported. -/
def rectangle (length : Nat) (rows : List (List K)) :
    Except (Error K) (Grid K rows.length length) :=
  match h : rows.find? fun row => row.length ≠ length with
  | some row => .error (.dimensionMismatch .constraintRow length row.length)
  | none => .ok (Vector.ofFn fun i => ⟨rows[i].toArray, by
      simpa using List.find?_eq_none.mp h rows[i] (List.getElem_mem _)⟩)

/-- Refuses a list of numbers at its first infinite or undefined entry. -/
def checkFinite (part : Part) (entries : List K) : Except (Error K) Unit :=
  match entries.findIdx? fun entry => !Scalar.isFinite entry with
  | some index => .error (.nonFinite part index)
  | none => .ok ()

/-- The name of the variable at an index when the problem gives none. -/
def defaultName (index : Nat) : String :=
  "x" ++ toString (index + 1)

/-- The problem with the given objective, rows, right hand sides and senses.
Of several faults the first is reported, in the order in which the parts are
listed; the entries of a matrix are counted row after row. -/
def ofRows? (objective : List K) (rows : List (List K)) (rhs : List K) (senses : List Sense)
    (direction : Direction) : Except (Error K) (Problem K rows.length objective.length) :=
  if positive : 0 < objective.length then do
    checkFinite .objective objective
    let rhsVector ← exactly .rightHandSide rows.length rhs
    checkFinite .rightHandSide rhs
    let senseVector ← exactly .senses rows.length senses
    let coefficients ← rectangle objective.length rows
    checkFinite .constraintMatrix rows.flatten
    return {
      objective := ⟨objective.toArray, by simp⟩
      coefficients
      rhs := rhsVector
      senses := senseVector
      direction
      names := Vector.ofFn fun j => defaultName j
      variables_pos := positive }
  else .error .noVariables

/-- The same problem with other names for its variables. -/
def withNames (p : Problem K m n) (names : List String) : Except (Error K) (Problem K m n) := do
  return { p with names := ← exactly .variableNames n names }

/-- The problem with the given data, and with the given names where there are any. -/
def ofData? (objective : List K) (rows : List (List K)) (rhs : List K) (senses : List Sense)
    (direction : Direction) (names : Option (List String)) :
    Except (Error K) (Problem K rows.length objective.length) := do
  let p ← ofRows? objective rows rhs senses direction
  match names with
  | some names => p.withNames names
  | none => return p

/-- The problem with the given data all of whose constraints are upper bounds. -/
def ofUpperBounds? (objective : List K) (rows : List (List K)) (rhs : List K)
    (direction : Direction) (names : Option (List String)) :
    Except (Error K) (Problem K rows.length objective.length) :=
  ofData? objective rows rhs (List.replicate rhs.length .le) direction names

/-! ## Equivalent problems -/

/-- The problem of optimizing the negated objective in the opposite direction. -/
def negated (p : Problem K m n) : Problem K m n :=
  { p with
    objective := p.objective.map (- ·)
    direction := p.direction.opposite }

/-- The problem in which every row with a negative right hand side has changed
its sign, so that all right hand sides are nonnegative. -/
def normalized (p : Problem K m n) : Problem K m n :=
  { p with
    coefficients := Vector.ofFn fun i =>
      if 0 ≤ p.rhs[i] then p.coefficients[i] else p.coefficients[i].map (- ·)
    rhs := Vector.ofFn fun i => if 0 ≤ p.rhs[i] then p.rhs[i] else -p.rhs[i]
    senses := Vector.ofFn fun i =>
      if 0 ≤ p.rhs[i] then p.senses[i] else p.senses[i].flipped }

end Problem

end LinearProgram
