import LinearProgram.Model.Basic

namespace LinearProgram

/-!
# From models to problems

A model is lowered to a problem by giving each free variable two nonnegative
columns.  The result says how the variables are recovered from the columns.
-/

/-- How a variable is held by columns. -/
def VariableKind.split : VariableKind → Split
  | free => .difference
  | nonnegative => .direct

/-- A problem in place of a model. -/
structure Lowering (K : Type) where
  numConstraints : Nat
  numVariables : Nat
  problem : Problem K numConstraints numVariables
  /-- How each variable of the model is recovered from the columns of the problem. -/
  recoveries : List Recovery

namespace Model

variable {K : Type}

/-- How the variables are held by columns. -/
def splits (model : Model K) : Vector Split model.declarations.length :=
  Vector.ofFn fun index => model.declarations[index].2.split

/-- The columns of the variables. -/
def columns (model : Model K) : List (SplitColumn model.declarations.length) :=
  Split.layout model.splits

/-- The names of the columns. -/
def columnNames (model : Model K) : List String :=
  model.columns.map fun column => model.declarations[column.source].1 ++ column.suffix

variable [Scalar K]

/-- The coefficient of a form in a column.  A variable that the form does not
mention has coefficient zero in all its columns. -/
def columnCoefficient {k : Nat} (form : LinearForm K) (column : SplitColumn k) : K :=
  match form.coefficient? column.source with
  | some coefficient => signed column.negated coefficient
  | none => 0

/-- The coefficients of a form in the columns, if the model declares every
variable that the form mentions. -/
def lowerForm (model : Model K) (form : LinearForm K) : Except (Error K) (List K) :=
  match form.undeclared? model.declarations.length with
  | some index => .error (.unknownVariable index)
  | none => .ok (model.columns.map (columnCoefficient form))

/-- The problem of a model.  The constraints are lowered in order and the
objective after them; the numbers are checked last. -/
def lower (model : Model K) : Except (Error K) (Lowering K) := do
  let rows ← model.constraints.mapM fun constraint => model.lowerForm constraint.form
  let objective ← model.lowerForm model.objective.form
  let bare ← Problem.ofRows? objective rows (model.constraints.map Constraint.value)
    (model.constraints.map Constraint.sense) model.objective.direction
  let problem ← bare.withNames model.columnNames
  return { numConstraints := _, numVariables := _, problem, recoveries := Split.recoveries model.splits }

end Model

end LinearProgram
