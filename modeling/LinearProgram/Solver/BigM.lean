import LinearProgram.Options
import LinearProgram.Solution

namespace LinearProgram

/-!
# The method of penalties

Artificial columns start in the basis under a penalty and may not come back
once they have left.  An optimum that still holds one of them at a positive
value means that the problem has no feasible point.  Other outcomes are those
of the penalized problem.
-/

namespace BigM

variable {K : Type} [Scalar K] {m n : Nat}

/-- The pass of the method. -/
def pass (p : Problem K m n) (options : Options K) : Pass p.width :=
  p.pass .skipArtificial options.maxIterations .single

/-- The tableau that the method starts from. -/
def startTableau (p : Problem K m n) (options : Options K) : Tableau K m p.width :=
  p.tableau (.bigM options.bigM) options.epsilon

/-- The run of the method on a problem whose right hand sides are nonnegative. -/
def runNormalized (p : Problem K m n) (options : Options K) : Run K m p.width :=
  (pass p options).run 0 (startTableau p options)

/-- The first row whose basic column is artificial with a value above the tolerance. -/
def positiveArtificial? (p : Problem K m n) (T : Tableau K m p.width) : Option (Fin m) :=
  (List.finRange m).find? fun row =>
    p.isArtificialColumn T.basis[row] && decide (T.epsilon < T.rhs row)

/-- What a run of the method says about the problem. -/
def outcome (p : Problem K m n) (T : Tableau K m p.width) (termination : Termination p.width) :
    Outcome :=
  match termination with
  | .optimal => if (positiveArtificial? p T).isSome then .infeasible else .optimal
  | other => other.outcome

/-- Solves a problem by the method of penalties. -/
def solve (p : Problem K m n) (options : Options K) : Except (Failure K) (Solution K) := do
  Failure.lift options.validate
  let q := p.normalized
  let run := runNormalized q options
  let termination ← run.ending
  Solution.ofTableau q run.final (outcome q run.final termination) run.steps none

end BigM

end LinearProgram
