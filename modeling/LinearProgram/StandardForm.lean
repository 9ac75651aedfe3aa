import LinearProgram.Problem.Basic
import LinearProgram.Simplex.Step

namespace LinearProgram

/-!
# Standard form

A problem becomes a tableau by turning each constraint into an equation.  A
row with an upper bound gets a slack column.  A row with a lower bound gets a
surplus column and then an artificial column.  An equation gets an artificial
column.  The slack or the artificial column of a row starts in the basis, so
the first basis is an identity matrix.  The decision columns come first, then
the columns of the rows in order.
-/

/-- What a column of a tableau with `m` rows and `n` decision variables stands for. -/
inductive ColumnTag (m n : Nat) where
  /-- A decision variable of the problem. -/
  | decision (k : Fin n)
  /-- The distance of a left side below its upper bound. -/
  | slack (row : Fin m)
  /-- The distance of a left side above its lower bound. -/
  | surplus (row : Fin m)
  /-- The amount by which a row is still unsatisfied. -/
  | artificial (row : Fin m)
  deriving DecidableEq, Repr

namespace ColumnTag

variable {m n : Nat}

/-- Whether a column was added only to have a first basis. -/
def isArtificial : ColumnTag m n → Bool
  | artificial _ => true
  | _ => false

/-- The name of a column: that of its decision variable, or a letter and the
number of its row, counted from one. -/
def name (names : Vector String n) : ColumnTag m n → String
  | decision k => names[k]
  | slack row => "s" ++ toString (row.val + 1)
  | surplus row => "e" ++ toString (row.val + 1)
  | artificial row => "a" ++ toString (row.val + 1)

end ColumnTag

/-- Which columns may enter a basis. -/
inductive EntryRule where
  | anyColumn
  | skipArtificial
  deriving DecidableEq, Repr

/-- Whether a rule lets a column enter. -/
def EntryRule.allows {m n : Nat} (rule : EntryRule) (tag : ColumnTag m n) : Bool :=
  match rule with
  | anyColumn => true
  | skipArtificial => !tag.isArtificial

/-- The objective that a fresh tableau is given. -/
inductive ObjectiveMode (K : Type) where
  /-- The objective of the problem. -/
  | plain
  /-- The objective of the problem, less a penalty on every artificial column. -/
  | bigM (penalty : K)
  /-- The negated sum of the artificial columns. -/
  | phaseOne
  deriving DecidableEq, Repr

namespace Problem

variable {K : Type} {m n : Nat}

/-! ## Columns -/

/-- The columns that a constraint adds. -/
def rowTags (p : Problem K m n) (row : Fin m) : List (ColumnTag m n) :=
  match p.senses[row] with
  | .le => [.slack row]
  | .ge => [.surplus row, .artificial row]
  | .eq => [.artificial row]

/-- All columns, in order. -/
def tagList (p : Problem K m n) : List (ColumnTag m n) :=
  (List.finRange n).map .decision ++ (List.finRange m).flatMap p.rowTags

/-- The number of columns. -/
def width (p : Problem K m n) : Nat :=
  p.tagList.length

/-- What each column stands for. -/
def tags (p : Problem K m n) : Vector (ColumnTag m n) p.width :=
  ⟨p.tagList.toArray, rfl⟩

/-- Whether a column of a tableau is artificial.  The right hand side is not. -/
def isArtificialColumn (p : Problem K m n) (column : Fin (p.width + 1)) : Bool :=
  if h : column.val < p.width then p.tags[column.val].isArtificial else false

/-- The names of the columns. -/
def columnNames (p : Problem K m n) : Vector String p.width :=
  p.tags.map (ColumnTag.name p.names)

/-- The column that a row starts with in the basis. -/
def homeTag (p : Problem K m n) (row : Fin m) : ColumnTag m n :=
  match p.senses[row] with
  | .le => .slack row
  | .ge => .artificial row
  | .eq => .artificial row

theorem homeTag_mem_rowTags (p : Problem K m n) (row : Fin m) :
    p.homeTag row ∈ p.rowTags row := by
  unfold homeTag rowTags
  cases p.senses[row] <;> simp

theorem homeTag_mem_tagList (p : Problem K m n) (row : Fin m) : p.homeTag row ∈ p.tagList :=
  List.mem_append_right _
    (List.mem_flatMap.mpr ⟨row, List.mem_finRange row, p.homeTag_mem_rowTags row⟩)

/-- The place of the column that a row starts with in the basis. -/
def home (p : Problem K m n) (row : Fin m) : Fin p.width :=
  ⟨p.tagList.idxOf (p.homeTag row), List.idxOf_lt_length_of_mem (p.homeTag_mem_tagList row)⟩

@[simp]
theorem tags_home (p : Problem K m n) (row : Fin m) : p.tags[p.home row] = p.homeTag row :=
  List.getElem_idxOf (List.idxOf_lt_length_of_mem (p.homeTag_mem_tagList row))

/-- The first basis. -/
def initialBasis (p : Problem K m n) : Vector (Fin p.width) m :=
  Vector.ofFn p.home

/-- The pass on the tableaus of a problem with the given rule, cap and phase. -/
def pass (p : Problem K m n) (rule : EntryRule) (cap : Nat) (phase : Phase) : Pass p.width :=
  let tags := p.tags
  { allowed := fun column => rule.allows tags[column]
    cap
    phase }

variable [Scalar K]

/-! ## Numbers -/

/-- The cost of a column under the objective to maximize. -/
def cost (p : Problem K m n) (mode : ObjectiveMode K) (tag : ColumnTag m n) : K :=
  match mode, tag with
  | .phaseOne, .artificial _ => -1
  | .phaseOne, _ => 0
  | _, .decision k => p.direction.orient p.objective[k]
  | .bigM penalty, .artificial _ => -penalty
  | _, _ => 0

/-- The cost of every column under the objective to maximize. -/
def costs (p : Problem K m n) (mode : ObjectiveMode K) : Vector K p.width :=
  p.tags.map (p.cost mode)

/-- The coefficient of a column in the equation of a constraint. -/
def equationEntry (p : Problem K m n) (row : Fin m) (tag : ColumnTag m n) : K :=
  match tag with
  | .decision k => p.coefficients[row][k]
  | .slack own => if own = row then 1 else 0
  | .surplus own => if own = row then -1 else 0
  | .artificial own => if own = row then 1 else 0

/-- The equation of a constraint: its coefficients, then its right hand side. -/
def equation (p : Problem K m n) (row : Fin m) : Vector K (p.width + 1) :=
  (p.tags.map (p.equationEntry row)).push p.rhs[row]

/-- The equations of all constraints over an objective row of zeros. -/
def equations (p : Problem K m n) : Grid K (m + 1) (p.width + 1) :=
  (Vector.ofFn p.equation).push (Vector.replicate (p.width + 1) 0)

/-- The first tableau of a problem. -/
def tableau (p : Problem K m n) (mode : ObjectiveMode K) (epsilon : K) : Tableau K m p.width :=
  let bare : Tableau K m p.width := {
    cells := p.equations
    basis := p.initialBasis.map Fin.castSucc
    epsilon }
  bare.loadObjective (p.costs mode)

end Problem

end LinearProgram
