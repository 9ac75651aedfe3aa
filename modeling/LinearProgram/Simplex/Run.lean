import LinearProgram.Simplex.Step

namespace LinearProgram

/-!
# Runs of the simplex method

A run pivots until no allowed column improves the objective, until a column
can grow without bound, or until it has made as many pivots as it may.  It
tests for an optimum first, for the cap second and for a leaving row last, so
a run that is optimal after its last allowed pivot is reported as optimal.

A run keeps its steps and its last tableau however it ends.
-/

/-- What a solution process says about a problem. -/
inductive Outcome where
  | optimal
  | unbounded
  | infeasible
  | iterationLimit
  deriving DecidableEq, Repr

/-- How a run over `N` columns ends. -/
inductive Termination (N : Nat) where
  /-- No allowed column improves the objective. -/
  | optimal
  /-- The column improves the objective and can grow without bound. -/
  | unbounded (entering : Fin N)
  /-- The allowed number of pivots is used up. -/
  | iterationLimit
  deriving DecidableEq, Repr

/-- What the end of a run says about the problem it was run on. -/
def Termination.outcome {N : Nat} : Termination N → Outcome
  | optimal => .optimal
  | unbounded _ => .unbounded
  | iterationLimit => .iterationLimit

/-- A finished run. -/
structure Run (K : Type) (m N : Nat) where
  /-- How the run ended. -/
  ending : Except (Failure K) (Termination N)
  /-- The tableau at the end. -/
  final : Tableau K m N
  /-- The pivots, in order. -/
  steps : List (Step K m N)

namespace Run

variable {K : Type} {m N : Nat}

/-- A run that ends where it is. -/
def ended (ending : Except (Failure K) (Termination N)) (T : Tableau K m N) : Run K m N where
  ending
  final := T
  steps := []

/-- A run with one more pivot in front. -/
def after (step : Step K m N) (run : Run K m N) : Run K m N :=
  { run with steps := step :: run.steps }

/-- The number of pivots. -/
def iterations (run : Run K m N) : Nat :=
  run.steps.length

/-- The tableaus that a run from the given one passes through. -/
def tableaus (start : Tableau K m N) (run : Run K m N) : List (Tableau K m N) :=
  start :: run.steps.map Step.next

end Run

namespace Pass

variable {K : Type} [Scalar K] {m N : Nat}

/-- The run from a tableau with at most the given number of pivots, whose
steps are counted from the given index. -/
def runFrom (pass : Pass N) (index : Nat) (T : Tableau K m N) : Nat → Run K m N
  | 0 =>
    match T.entering? pass.allowed with
    | none => .ended (.ok .optimal) T
    | some _ => .ended (.ok .iterationLimit) T
  | remaining + 1 =>
    match T.entering? pass.allowed with
    | none => .ended (.ok .optimal) T
    | some column =>
      match T.leaving? column.castSucc with
      | none => .ended (.ok (.unbounded column)) T
      | some row =>
        match pass.pivot T index row column.castSucc with
        | .error failure => .ended (.error failure) T
        | .ok step => .after step (pass.runFrom (index + 1) step.next remaining)

/-- The run from a tableau under the cap of the pass. -/
def run (pass : Pass N) (index : Nat) (T : Tableau K m N) : Run K m N :=
  pass.runFrom index T pass.cap

end Pass

end LinearProgram
