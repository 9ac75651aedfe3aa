import LinearProgram.Options
import LinearProgram.Solution

namespace LinearProgram

/-!
# The method of two phases

The first phase minimizes the sum of the artificial columns.  If the sum stays
above the tolerance, the problem has no feasible point.  Otherwise the
artificial columns that are still basic are driven out, one pivot each, and
the second phase optimizes the objective of the problem from the basis that is
left.  A row in which no other column can replace the artificial one follows
from the other rows and stays as it is.

Each phase has the whole cap for itself, and the pivots that drive columns out
are counted in the first phase.
-/

namespace TwoPhase

variable {K : Type} [Scalar K] {m n : Nat}

/-! ## Driving artificial columns out -/

/-- What happened to a row whose basic column was artificial after the first phase. -/
inductive Replacement (K : Type) (m N : Nat) where
  /-- Another column became basic. -/
  | pivoted (step : Step K m N)
  /-- No other column has an entry in the row. -/
  | redundant (row : Fin m)

/-- The step of a replacement that pivoted. -/
def Replacement.step? {N : Nat} : Replacement K m N → Option (Step K m N)
  | pivoted step => some step
  | redundant _ => none

/-- The rows of a tableau after the artificial columns were driven out. -/
structure Cleanup (K : Type) (m N : Nat) where
  /-- The failure that stopped the pivots, if there was one. -/
  failure? : Option (Failure K)
  /-- The tableau at the end. -/
  final : Tableau K m N
  /-- What happened to each row concerned, in order. -/
  replacements : List (Replacement K m N)

namespace Cleanup

variable {N : Nat}

/-- A row that needed a replacement, in front of the later ones. -/
def after (replacement : Replacement K m N) (cleanup : Cleanup K m N) : Cleanup K m N :=
  { cleanup with replacements := replacement :: cleanup.replacements }

/-- The recorded pivots. -/
def steps (cleanup : Cleanup K m N) : List (Step K m N) :=
  cleanup.replacements.filterMap Replacement.step?

end Cleanup

/-- The first column that is neither artificial nor basic and whose entry in
the row is larger than the tolerance in size. -/
def replacement? (p : Problem K m n) (T : Tableau K m p.width) (row : Fin m) :
    Option (Fin p.width) :=
  let tags := p.tags
  (List.finRange p.width).find? fun column =>
    !tags[column].isArtificial && !T.isBasic column.castSucc &&
      decide (T.epsilon < Scalar.abs (T.entry row column.castSucc))

/-- Drives the artificial columns out of the given rows, in order. -/
def driveOut (p : Problem K m n) (pass : Pass p.width) (index : Nat) (T : Tableau K m p.width) :
    List (Fin m) → Cleanup K m p.width
  | [] => ⟨none, T, []⟩
  | row :: rows =>
    if p.isArtificialColumn T.basis[row] then
      match replacement? p T row with
      | none => .after (.redundant row) (driveOut p pass index T rows)
      | some column =>
        match pass.pivot T index row column.castSucc with
        | .error failure => ⟨some failure, T, []⟩
        | .ok step => .after (.pivoted step) (driveOut p pass (index + 1) step.next rows)
    else driveOut p pass index T rows

/-! ## The course of the method -/

/-- The course of the method on tableaus of `m` rows and `N` columns. -/
inductive Course (K : Type) (m N : Nat) where
  /-- The first phase did not end at an optimum. -/
  | stopped (first : Run K m N)
  /-- The artificial columns keep a sum above the tolerance. -/
  | infeasible (first : Run K m N) (artificialSum : K)
  /-- Driving artificial columns out failed. -/
  | broken (first : Run K m N) (cleanup : Cleanup K m N) (failure : Failure K)
  /-- The second phase was run. -/
  | completed (first : Run K m N) (cleanup : Cleanup K m N) (second : Run K m N)

/-- The pass of the first phase. -/
def firstPass (p : Problem K m n) (options : Options K) : Pass p.width :=
  p.pass .anyColumn options.maxIterations .one

/-- The pass of the second phase. -/
def secondPass (p : Problem K m n) (options : Options K) : Pass p.width :=
  p.pass .skipArtificial options.maxIterations .two

/-- The tableau that the first phase starts from. -/
def firstTableau (p : Problem K m n) (options : Options K) : Tableau K m p.width :=
  p.tableau .phaseOne options.epsilon

/-- The tableau that the second phase starts from. -/
def secondTableau (p : Problem K m n) (cleanup : Cleanup K m p.width) : Tableau K m p.width :=
  cleanup.final.loadObjective (p.costs .plain)

/-- The course of the method after a first phase that ended at an optimum. -/
def continueFrom (p : Problem K m n) (options : Options K) (first : Run K m p.width) :
    Course K m p.width :=
  let artificialSum := -first.final.objectiveRhs
  if options.epsilon < artificialSum then .infeasible first artificialSum
  else
    let cleanup := driveOut p (firstPass p options) first.iterations first.final (List.finRange m)
    match cleanup.failure? with
    | some failure => .broken first cleanup failure
    | none =>
      let index := first.iterations + cleanup.steps.length
      .completed first cleanup ((secondPass p options).run index (secondTableau p cleanup))

/-- The course of the method on a problem whose right hand sides are nonnegative. -/
def courseNormalized (p : Problem K m n) (options : Options K) : Course K m p.width :=
  let first := (firstPass p options).run 0 (firstTableau p options)
  match first.ending with
  | .ok .optimal => continueFrom p options first
  | _ => .stopped first

/-- The tableaus that a course of the method passes through. -/
def tableaus (p : Problem K m n) (options : Options K) (course : Course K m p.width) :
    List (Tableau K m p.width) :=
  match course with
  | .stopped first => first.tableaus (firstTableau p options)
  | .infeasible first _ => first.tableaus (firstTableau p options)
  | .broken first cleanup _ =>
    first.tableaus (firstTableau p options) ++ cleanup.steps.map Step.next
  | .completed first cleanup second =>
    first.tableaus (firstTableau p options) ++ cleanup.steps.map Step.next ++
      second.tableaus (secondTableau p cleanup)

/-- The report on a course of the method. -/
def report (p : Problem K m n) (course : Course K m p.width) :
    Except (Failure K) (Solution K) :=
  match course with
  | .stopped first => do
    let termination ← first.ending
    Solution.ofTableau p first.final termination.outcome first.steps
      (some ⟨first.iterations, 0⟩)
  | .infeasible first _ =>
    Solution.ofTableau p first.final .infeasible first.steps (some ⟨first.iterations, 0⟩)
  | .broken _ _ failure => .error failure
  | .completed first cleanup second => do
    let termination ← second.ending
    Solution.ofTableau p second.final termination.outcome
      (first.steps ++ cleanup.steps ++ second.steps)
      (some ⟨first.iterations + cleanup.steps.length, second.iterations⟩)

/-- Solves a problem by the method of two phases. -/
def solve (p : Problem K m n) (options : Options K) : Except (Failure K) (Solution K) := do
  Failure.lift options.validate
  report p.normalized (courseNormalized p.normalized options)

end TwoPhase

end LinearProgram
