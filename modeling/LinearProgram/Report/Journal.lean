import LinearProgram.Decimal.Text
import LinearProgram.Duality.Analysis
import LinearProgram.Solver.BigM
import LinearProgram.Solver.Plain

namespace LinearProgram

/-!
# The journal of a solution process

A journal tells the course of a process in order: its size, its pivots, the
events between the phases and how it ended.  It is derived from the recorded
course, so keeping a journal has no influence on the process.
-/

/-- How closely an entry of a journal follows the process. -/
inductive Level where
  /-- A stage of the process. -/
  | debug
  /-- A single pivot. -/
  | trace
  deriving DecidableEq, Repr

/-- The name of a level. -/
def Level.name : Level → String
  | .debug => "DEBUG"
  | .trace => "TRACE"

/-- An entry of a journal. -/
structure JournalEntry where
  level : Level
  message : String
  deriving DecidableEq, Repr

namespace JournalEntry

/-- The line of an entry. -/
def line (entry : JournalEntry) : String :=
  entry.level.name ++ " " ++ entry.message

/-- An entry about a stage of the process. -/
def stage (message : String) : JournalEntry := ⟨.debug, message⟩

end JournalEntry

/-! ## Words -/

/-- The name of a phase. -/
def Phase.name : Phase → String
  | .single => "Single"
  | .one => "One"
  | .two => "Two"

/-- The name of an outcome. -/
def Outcome.name : Outcome → String
  | .optimal => "Optimal"
  | .unbounded => "Unbounded"
  | .infeasible => "Infeasible"
  | .iterationLimit => "IterationLimit"

/-- The description of the end of a run. -/
def Termination.description {N : Nat} : Termination N → String
  | .optimal => "Optimal"
  | .unbounded entering => "Unbounded \x7b entering: " ++ toString entering.val ++ " \x7d"
  | .iterationLimit => "IterationLimit"

/-- The description of an objective that may be missing. -/
def describeObjective : Option Float → String
  | some value => "Some(" ++ Decimal.text Decimal.pointed value ++ ")"
  | none => "None"

namespace Journal

/-- The size of a tableau. -/
def size (rows columns : Nat) : String :=
  toString rows ++ " rows, " ++ toString columns ++ " columns"

/-- The entry of a pivot. -/
def ofStep (step : StepReport Float) : JournalEntry where
  level := .trace
  message := step.phase.name ++ " pivot " ++ toString step.index ++ ": " ++ step.enteringName ++
    " enters, " ++ step.leavingName ++ " leaves (pivot " ++
    Decimal.text Decimal.plain step.pivot ++ ")"

/-- The entry about a run that has used up its pivots. -/
def capReached {N : Nat} (pass : Pass N) : JournalEntry :=
  .stage (pass.phase.name ++ ": iteration cap of " ++ toString pass.cap ++ " reached")

/-- The entries of a run. -/
def ofRun {m N : Nat} (names : Vector String N) (pass : Pass N) (run : Run Float m N) :
    List JournalEntry :=
  run.steps.map (fun step => ofStep (step.report names)) ++
    match run.ending with
    | .ok .iterationLimit => [capReached pass]
    | _ => []

/-- An entry about the end of a run, unless the run failed. -/
def ofEnding {m N : Nat} (run : Run Float m N) (describe : Termination N → String) :
    List JournalEntry :=
  match run.ending with
  | .ok termination => [.stage (describe termination)]
  | .error _ => []

variable {m n : Nat}

/-! ## Solvers -/

/-- The journal of the plain simplex method. -/
def plain (p : Problem Float m n) (options : Options Float) : List JournalEntry :=
  match Plain.run p options with
  | .error _ => []
  | .ok run =>
    .stage ("simplex: " ++ size m p.width) ::
      ofRun p.columnNames (Plain.pass p options) run ++
      ofEnding run fun termination => "simplex: " ++ termination.description ++ " after " ++
        toString run.iterations ++ " iterations"

/-- The entry about a row whose artificial column keeps a positive value. -/
def positiveArtificial (p : Problem Float m n) (T : Tableau Float m p.width) :
    List JournalEntry :=
  match BigM.positiveArtificial? p T with
  | some row => [.stage ("big-M: artificial in row " ++ toString row.val ++ " stays at " ++
      Decimal.text Decimal.plain (T.rhs row))]
  | none => []

/-- The end of the journal of the method of penalties. -/
def bigMEnding (p : Problem Float m n) (run : Run Float m p.width) : List JournalEntry :=
  match run.ending with
  | .error _ => []
  | .ok termination =>
    (if termination.outcome = .optimal then positiveArtificial p run.final else []) ++
      [.stage ("big-M: " ++ (BigM.outcome p run.final termination).name ++ " after " ++
        toString run.iterations ++ " iterations")]

/-- The journal of the method of penalties. -/
def bigM (p : Problem Float m n) (options : Options Float) : List JournalEntry :=
  match options.validate with
  | .error _ => []
  | .ok _ =>
    let q := p.normalized
    let run := BigM.runNormalized q options
    .stage ("big-M: " ++ size m q.width ++ ", M = " ++
        Decimal.text Decimal.scientific options.bigM) ::
      ofRun q.columnNames (BigM.pass q options) run ++ bigMEnding q run

/-- The entry about a row whose basic column was artificial. -/
def ofReplacement {N : Nat} (names : Vector String N) :
    TwoPhase.Replacement Float m N → JournalEntry
  | .pivoted step => ofStep (step.report names)
  | .redundant row => .stage ("two-phase: row " ++ toString row.val ++ " is redundant")

/-- The entries of the course of the method of two phases. -/
def ofCourse (p : Problem Float m n) (options : Options Float)
    (course : TwoPhase.Course Float m p.width) : List JournalEntry :=
  let names := p.columnNames
  let ofFirst := ofRun names (TwoPhase.firstPass p options)
  match course with
  | .stopped first =>
    ofFirst first ++ ofEnding first fun termination =>
      "two-phase: phase 1 stopped with " ++ termination.description
  | .infeasible first artificialSum =>
    ofFirst first ++ [.stage ("two-phase: infeasible, artificial sum " ++
      Decimal.text Decimal.plain artificialSum)]
  | .broken first cleanup _ => ofFirst first ++ cleanup.replacements.map (ofReplacement names)
  | .completed first cleanup second =>
    ofFirst first ++ cleanup.replacements.map (ofReplacement names) ++
      ofRun names (TwoPhase.secondPass p options) second ++
      ofEnding second fun termination => "two-phase: " ++ termination.description ++ " after " ++
        toString (first.iterations + cleanup.steps.length) ++ " + " ++
        toString second.iterations ++ " iterations"

/-- The journal of the method of two phases. -/
def twoPhase (p : Problem Float m n) (options : Options Float) : List JournalEntry :=
  match options.validate with
  | .error _ => []
  | .ok _ =>
    .stage ("two-phase: " ++ size m p.normalized.width) ::
      ofCourse p.normalized options (TwoPhase.courseNormalized p.normalized options)

/-! ## Duality -/

/-- The comparison of a problem with its dual. -/
def comparison {p : Problem Float m n} (report : DualityReport p) : JournalEntry :=
  .stage ("duality: primal " ++ report.primal.outcome.name ++ " " ++
    describeObjective report.primal.objective ++ ", dual " ++ report.dual.outcome.name ++ " " ++
    describeObjective report.dual.objective ++ ", gap " ++
    Decimal.text Decimal.plain report.distance)

/-- The journal of the comparison of a problem with its dual. -/
def duality (p : Problem Float m n) (options : Options Float) : List JournalEntry :=
  match p.dual, Duality.analyze p options with
  | .ok dual, .ok report => twoPhase p options ++ twoPhase dual options ++ [comparison report]
  | _, _ => []

end Journal

end LinearProgram
