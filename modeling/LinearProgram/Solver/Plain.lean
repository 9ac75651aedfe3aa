import LinearProgram.Options
import LinearProgram.Solution

namespace LinearProgram

/-!
# The plain simplex method

Problems whose rows are all upper bounds with nonnegative right hand sides
start from the basis of their slack columns.
-/

namespace Plain

variable {K : Type} [Scalar K] {m n : Nat}

/-- Refuses a problem at its first row that is not an upper bound. -/
def checkSenses (p : Problem K m n) : Except (Error K) Unit :=
  match (List.finRange m).find? fun row => p.senses[row] ≠ .le with
  | some row => .error (.unsupportedSense row)
  | none => .ok ()

/-- Refuses a problem at its first negative right hand side. -/
def checkRhs (p : Problem K m n) : Except (Error K) Unit :=
  match (List.finRange m).find? fun row => p.rhs[row] < 0 with
  | some row => .error (.negativeRhs row)
  | none => .ok ()

/-- The pass of the method. -/
def pass (p : Problem K m n) (options : Options K) : Pass p.width :=
  p.pass .anyColumn options.maxIterations .single

/-- The tableau that the method starts from. -/
def startTableau (p : Problem K m n) (options : Options K) : Tableau K m p.width :=
  p.tableau .plain options.epsilon

/-- The run of the method on a problem it accepts. -/
def run (p : Problem K m n) (options : Options K) : Except (Error K) (Run K m p.width) := do
  options.validate
  checkSenses p
  checkRhs p
  return (pass p options).run 0 (startTableau p options)

/-- Solves a problem by the plain simplex method. -/
def solve (p : Problem K m n) (options : Options K) : Except (Failure K) (Solution K) := do
  let run ← Failure.lift (Plain.run p options)
  let termination ← run.ending
  Solution.ofTableau p run.final termination.outcome run.steps none

end Plain

end LinearProgram
