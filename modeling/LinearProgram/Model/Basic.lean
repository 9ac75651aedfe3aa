import LinearProgram.Problem.Basic
import LinearProgram.Split

namespace LinearProgram

/-!
# Models

A model is a linear program in the words of its author: it has variables,
some of them free to take any sign, and its constraints and its objective are
sums of terms, in which a variable may appear several times.
-/

/-- Whether a variable may take negative values. -/
inductive VariableKind where
  | free
  | nonnegative
  deriving DecidableEq, Repr

/-- A sum of terms.  Each variable stands in the list once, with the sum of
the coefficients that were added for it. -/
structure LinearForm (K : Type) where
  terms : List (Nat × K) := []
  deriving DecidableEq, Repr

namespace LinearForm

variable {K : Type} [Scalar K]

/-- A list of terms with one more coefficient for a variable. -/
def addTo (index : Nat) (coefficient : K) : List (Nat × K) → List (Nat × K)
  | [] => [(index, 0 + coefficient)]
  | (other, total) :: rest =>
    if other = index then (other, total + coefficient) :: rest
    else (other, total) :: addTo index coefficient rest

/-- The form with one more coefficient for a variable. -/
def add (form : LinearForm K) (index : Nat) (coefficient : K) : LinearForm K where
  terms := addTo index coefficient form.terms

/-- The coefficient of a variable, if the form mentions it. -/
def coefficient? (form : LinearForm K) (index : Nat) : Option K :=
  (form.terms.find? fun term => term.1 = index).map Prod.snd

/-- The first variable of the form that is not among the first `count` ones. -/
def undeclared? (form : LinearForm K) (count : Nat) : Option Nat :=
  (form.terms.find? fun term => count ≤ term.1).map Prod.fst

end LinearForm

/-- A constraint of a model. -/
structure Constraint (K : Type) where
  form : LinearForm K
  sense : Sense
  value : K
  deriving DecidableEq, Repr

/-- The objective of a model. -/
structure Objective (K : Type) where
  form : LinearForm K
  direction : Direction
  deriving DecidableEq, Repr

/-- A linear program over named variables. -/
structure Model (K : Type) where
  declarations : List (String × VariableKind)
  constraints : List (Constraint K)
  objective : Objective K
  deriving DecidableEq, Repr

/-- The constraint without terms that says that zero equals zero. -/
def Constraint.empty {K : Type} [Scalar K] : Constraint K := ⟨{}, .eq, 0⟩

/-- The objective without terms, to be maximized. -/
def Objective.empty {K : Type} : Objective K := ⟨{}, .maximize⟩

namespace Model

variable {K : Type}

/-- The model without variables and constraints. -/
def empty : Model K := ⟨[], [], .empty⟩

/-- The model with one more variable, whose number is that of the variables before it. -/
def declare (model : Model K) (name : String) (kind : VariableKind) : Model K :=
  { model with declarations := model.declarations ++ [(name, kind)] }

/-- The model with one more constraint. -/
def constrain (model : Model K) (constraint : Constraint K) : Model K :=
  { model with constraints := model.constraints ++ [constraint] }

/-- The model with another objective. -/
def withObjective (model : Model K) (objective : Objective K) : Model K :=
  { model with objective }

end Model

end LinearProgram
