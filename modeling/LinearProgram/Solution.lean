import LinearProgram.Problem.Violation
import LinearProgram.StandardForm
import LinearProgram.Simplex.Run

namespace LinearProgram

/-!
# Solutions

What a solver reports, in plain numbers and names, so that the reports on
different problems can be compared.  Names and values are listed in the order
of the columns, decision variables first.  Values and an objective are given
for an optimum only; the last tableau and the recorded pivots are given always.
-/

/-- The numbers of pivots in the two phases of a process. -/
structure PhaseCounts where
  phaseOne : Nat
  phaseTwo : Nat
  deriving DecidableEq, Repr

/-- The report of one pivot, in plain numbers and names. -/
structure StepReport (K : Type) where
  /-- The number of earlier pivots of the process. -/
  index : Nat
  phase : Phase
  /-- The column that became basic. -/
  entering : Nat
  enteringName : String
  /-- The row in which it became basic. -/
  leavingRow : Nat
  /-- The column that was basic there before. -/
  leaving : Nat
  leavingName : String
  /-- The pivot element before the elimination. -/
  pivot : K
  /-- The basic columns after the pivot. -/
  basis : List Nat
  /-- The tableau after the pivot. -/
  tableau : List (List K)
  deriving DecidableEq, Repr

/-- The report of a recorded pivot over columns with the given names. -/
def Step.report {K : Type} {m N : Nat} (names : Vector String N) (step : Step K m N) :
    StepReport K where
  index := step.index
  phase := step.phase
  entering := step.entering
  enteringName := names[step.entering]
  leavingRow := step.row
  leaving := step.leaving
  leavingName := names[step.leaving]
  pivot := step.element
  basis := step.next.basisNumbers
  tableau := step.next.cells.toLists

/-- The report of a solution process. -/
structure Solution (K : Type) where
  outcome : Outcome
  /-- The objective at the optimum, in the direction of the problem. -/
  objective : Option K
  /-- The name and the value of every column at the optimum. -/
  values : List (String × K)
  /-- The names of the basic columns, row by row. -/
  basis : List String
  columnNames : List String
  /-- The tableau at the end. -/
  tableau : List (List K)
  trace : List (StepReport K)
  phases : Option PhaseCounts
  deriving DecidableEq, Repr

namespace Solution

variable {K : Type}

/-- The number of pivots. -/
def iterations (solution : Solution K) : Nat :=
  solution.trace.length

/-- Whether the process found an optimum. -/
def isOptimal (solution : Solution K) : Bool :=
  solution.outcome = .optimal

/-- The value of the first column with the given name. -/
def value? (solution : Solution K) (name : String) : Option K :=
  (solution.values.find? fun entry => entry.1 = name).map Prod.snd

/-- The values of the first columns. -/
def decisionValues (solution : Solution K) (count : Nat) : List K :=
  (solution.values.take count).map Prod.snd

variable [Scalar K] {m n : Nat}

/-- The report on a process that stopped at a tableau of a problem. -/
def ofTableau (p : Problem K m n) (T : Tableau K m p.width) (outcome : Outcome)
    (steps : List (Step K m p.width)) (phases : Option PhaseCounts) :
    Except (Failure K) (Solution K) := do
  let names := p.columnNames
  let columns ← Failure.ofOption T.basicColumns?
  let columnValues ← Failure.ofOption T.columnValues?
  let optimal := outcome = .optimal
  return {
    outcome
    objective := if optimal then some (p.objectiveValue (columnValues.take n)) else none
    values := if optimal then names.toList.zip columnValues else []
    basis := columns.map fun column => names[column]
    columnNames := names.toList
    tableau := T.cells.toLists
    trace := steps.map (Step.report names)
    phases }

end Solution

end LinearProgram
