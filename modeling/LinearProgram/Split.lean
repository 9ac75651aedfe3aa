import LinearProgram.Grid
import LinearProgram.Scalar

namespace LinearProgram

/-!
# Quantities of any sign in nonnegative columns

The variables of a problem are nonnegative.  A quantity of another sign is
held by one column with its negation, or by two columns whose difference it
is.  A list of such arrangements lays out the columns side by side and says
how the quantities are recovered from them.
-/

/-- How a quantity is held by columns. -/
inductive Split where
  /-- One column holds the quantity. -/
  | direct
  /-- One column holds the negation of the quantity. -/
  | negated
  /-- The quantity is the difference of two columns. -/
  | difference
  deriving DecidableEq, Repr

/-- A number, or its negation. -/
def signed {K : Type} [Neg K] (negated : Bool) (value : K) : K :=
  if negated then -value else value

/-- A column that holds a quantity, or a part of it. -/
structure SplitColumn (k : Nat) where
  /-- The quantity. -/
  source : Fin k
  /-- Whether the column counts against the quantity. -/
  negated : Bool
  /-- What is added to the name of the quantity. -/
  suffix : String
  deriving DecidableEq, Repr

/-- The columns of one quantity. -/
def Split.columns {k : Nat} (split : Split) (source : Fin k) : List (SplitColumn k) :=
  match split with
  | direct => [⟨source, false, ""⟩]
  | negated => [⟨source, true, "-"⟩]
  | difference => [⟨source, false, "+"⟩, ⟨source, true, "-"⟩]

/-- The columns of all quantities, in order. -/
def Split.layout {k : Nat} (splits : Vector Split k) : List (SplitColumn k) :=
  (List.finRange k).flatMap fun source => splits[source].columns source

/-! ## Recovery -/

/-- How a quantity is read off from numbered columns. -/
inductive Recovery where
  /-- The value of the column. -/
  | direct (column : Nat)
  /-- The negated value of the column. -/
  | negated (column : Nat)
  /-- The first column minus the second. -/
  | difference (positive negative : Nat)
  deriving DecidableEq, Repr

/-- How a quantity is read off when its columns start at the given number. -/
def Split.recovery (split : Split) (start : Nat) : Recovery :=
  match split with
  | direct => .direct start
  | negated => .negated start
  | difference => .difference start (start + 1)

/-- The number of columns of a quantity. -/
def Split.width : Split → Nat
  | direct => 1
  | negated => 1
  | difference => 2

/-- How quantities are read off when their columns start at the given number
and follow each other. -/
def Split.recoveriesFrom (start : Nat) : List Split → List Recovery
  | [] => []
  | split :: splits => split.recovery start :: recoveriesFrom (start + split.width) splits

/-- How quantities are read off from the columns of their layout. -/
def Split.recoveries {k : Nat} (splits : Vector Split k) : List Recovery :=
  recoveriesFrom 0 splits.toList

namespace Recovery

variable {K : Type} [Scalar K]

/-- The quantity that the columns hold, if the columns are there. -/
def value? (recovery : Recovery) (columns : List K) : Option K :=
  match recovery with
  | direct column => columns[column]?
  | negated column => columns[column]?.map (- ·)
  | difference positive negative => do return (← columns[positive]?) - (← columns[negative]?)

end Recovery

/-- The quantities that the columns hold, if the columns are all there. -/
def recover? {K : Type} [Scalar K] (recoveries : List Recovery) (columns : List K) :
    Option (List K) :=
  recoveries.mapM fun recovery => recovery.value? columns

end LinearProgram
