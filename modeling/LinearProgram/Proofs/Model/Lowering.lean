import LinearProgram.Proofs.Construction
import LinearProgram.Proofs.Model.LinearForm
import LinearProgram.Proofs.Split
import LinearProgram.Model.Lowering

namespace LinearProgram

/-!
# The problem of a model

The columns of a variable carry its coefficients with the signs with which
they hold it.  A form has therefore the same value in the columns as in the
quantities that they hold, and the rows of the problem say about the columns
what the constraints of the model say about these quantities.  A model that
mentions a variable it does not declare has no problem; one of these variables
is reported.
-/

/-! ## Passes over a list that can fail -/

section Pass

variable {E α β : Type} {pass : α → Except E β} {items : List α}

theorem mapM_eq_ok {result : α → β} (every : ∀ item ∈ items, pass item = .ok (result item)) :
    items.mapM pass = .ok (items.map result) := by
  induction items with
  | nil => rfl
  | cons first rest ih =>
    have later := ih fun item member => every item (List.mem_cons_of_mem first member)
    rw [List.mapM_cons, every first List.mem_cons_self, later]
    rfl

/-- A pass that fails at some item reports what one of its items reports. -/
theorem exists_mapM_eq_error (failing : ∃ item ∈ items, ∃ cause, pass item = .error cause) :
    ∃ item ∈ items, ∃ cause, pass item = .error cause ∧ items.mapM pass = .error cause := by
  induction items with
  | nil => exact nomatch failing
  | cons first rest ih =>
    cases own : pass first with
    | error cause =>
      refine ⟨first, List.mem_cons_self, cause, own, ?_⟩
      rw [List.mapM_cons, own]
      rfl
    | ok result =>
      have inRest : ∃ item ∈ rest, ∃ cause, pass item = .error cause := by
        rcases (List.exists_mem_cons_iff _ _ _).mp failing with ⟨cause, failed⟩ | later
        · exact nomatch own.symm.trans failed
        · exact later
      rcases ih inRest with ⟨item, member, cause, failed, stopped⟩
      refine ⟨item, List.mem_cons_of_mem first member, cause, failed, ?_⟩
      rw [List.mapM_cons, own, stopped]
      rfl

end Pass

namespace Model

/-! ## Undeclared variables -/

section Declared

variable {K : Type} (model : Model K)

/-- A constraint or the objective has a coefficient for the variable. -/
def Mentions (index : Nat) : Prop :=
  (∃ constraint ∈ model.constraints, constraint.form.Mentions index) ∨
    model.objective.form.Mentions index

variable [Scalar K]

/-- A form is lowered, unless it mentions an undeclared variable. -/
theorem lowerForm_cases (form : LinearForm K) :
    (∃ index, form.Mentions index ∧ model.declarations.length ≤ index ∧
        model.lowerForm form = .error (.unknownVariable index)) ∨
      (∀ index, form.Mentions index → index < model.declarations.length) ∧
        model.lowerForm form = .ok (model.columns.map (columnCoefficient form)) := by
  unfold lowerForm
  cases found : form.undeclared? model.declarations.length with
  | some index =>
    rcases LinearForm.mentions_of_undeclared? found with ⟨mentioned, undeclared⟩
    exact Or.inl ⟨index, mentioned, undeclared, rfl⟩
  | none =>
    exact Or.inr ⟨(form.undeclared?_eq_none_iff model.declarations.length).mp found, rfl⟩

theorem lowerForm_eq_ok {form : LinearForm K}
    (declared : ∀ index, form.Mentions index → index < model.declarations.length) :
    model.lowerForm form = .ok (model.columns.map (columnCoefficient form)) := by
  rcases model.lowerForm_cases form with ⟨index, mentioned, undeclared, _⟩ | ⟨_, lowered⟩
  · exact absurd (declared index mentioned) (not_lt.mpr undeclared)
  · exact lowered

theorem exists_lowerForm_eq_error {form : LinearForm K} {index : Nat}
    (mentioned : form.Mentions index) (undeclared : model.declarations.length ≤ index) :
    ∃ other, form.Mentions other ∧ model.declarations.length ≤ other ∧
      model.lowerForm form = .error (.unknownVariable other) := by
  rcases model.lowerForm_cases form with failed | ⟨declared, _⟩
  · exact failed
  · exact absurd (declared index mentioned) (not_lt.mpr undeclared)

/-- A model that mentions an undeclared variable is refused for one of them. -/
theorem exists_lower_eq_error {index : Nat} (mentioned : model.Mentions index)
    (undeclared : model.declarations.length ≤ index) :
    ∃ other, model.Mentions other ∧ model.declarations.length ≤ other ∧
      model.lower = .error (.unknownVariable other) := by
  by_cases failing : ∃ constraint ∈ model.constraints,
      ∃ cause, model.lowerForm constraint.form = .error cause
  · rcases exists_mapM_eq_error failing with ⟨constraint, member, cause, failed, stopped⟩
    rcases model.lowerForm_cases constraint.form with ⟨other, own, beyond, reported⟩ | ⟨_, lowered⟩
    · obtain rfl := Except.error.inj (failed.symm.trans reported)
      refine ⟨other, Or.inl ⟨constraint, member, own⟩, beyond, ?_⟩
      rw [lower, stopped]
      rfl
    · exact nomatch lowered.symm.trans failed
  · -- The objective is lowered only after all constraints, so it must be what mentions the variable.
    have accepted : ∀ constraint ∈ model.constraints, model.lowerForm constraint.form =
        .ok (model.columns.map (columnCoefficient constraint.form)) := by
      intro constraint member
      rcases model.lowerForm_cases constraint.form with ⟨_, _, _, reported⟩ | ⟨_, lowered⟩
      · exact absurd ⟨constraint, member, _, reported⟩ failing
      · exact lowered
    rcases mentioned with ⟨constraint, member, own⟩ | own
    · rcases model.exists_lowerForm_eq_error own undeclared with ⟨_, _, _, reported⟩
      exact absurd ⟨constraint, member, _, reported⟩ failing
    · rcases model.exists_lowerForm_eq_error own undeclared with ⟨other, named, beyond, reported⟩
      refine ⟨other, Or.inr named, beyond, ?_⟩
      rw [lower, mapM_eq_ok accepted, reported]
      rfl

end Declared

/-! ## Rows of columns -/

variable (model : Model ℚ)

/-- A constraint in the columns of the model. -/
def columnRow (constraint : Constraint ℚ) : ListedRow ℚ :=
  ⟨model.columns.map (columnCoefficient constraint.form), constraint.sense, constraint.value⟩

/-- What the problem of a model consists of. -/
structure IsLowering (lowering : Lowering ℚ) : Prop where
  numVariables_eq : lowering.numVariables = model.columns.length
  objective_eq : lowering.problem.objective.toList =
    model.columns.map (columnCoefficient model.objective.form)
  rows_eq : lowering.problem.listedRows = model.constraints.map model.columnRow
  direction_eq : lowering.problem.direction = model.objective.direction
  names_eq : lowering.problem.names.toList = model.columnNames
  recoveries_eq : lowering.recoveries = Split.recoveries model.splits

variable {model}

/-- A model with variables that mentions no other variables has a problem. -/
theorem exists_isLowering
    (declared : ∀ index, model.Mentions index → index < model.declarations.length)
    (present : 0 < model.declarations.length) :
    ∃ lowering, model.lower = .ok lowering ∧ model.IsLowering lowering := by
  have rows : (model.constraints.mapM fun constraint => model.lowerForm constraint.form) =
      .ok ((model.constraints.map model.columnRow).map ListedRow.coefficients) := by
    rw [List.map_map]
    exact mapM_eq_ok fun constraint member => model.lowerForm_eq_ok fun index mentioned =>
      declared index (Or.inl ⟨constraint, member, mentioned⟩)
  have values : model.constraints.map Constraint.value =
      (model.constraints.map model.columnRow).map ListedRow.rhs := by
    rw [List.map_map]
    rfl
  have senses : model.constraints.map Constraint.sense =
      (model.constraints.map model.columnRow).map ListedRow.sense := by
    rw [List.map_map]
    rfl
  have objective := model.lowerForm_eq_ok fun index mentioned => declared index (Or.inr mentioned)
  have someColumn : 0 < (model.columns.map (columnCoefficient model.objective.form)).length := by
    rw [List.length_map]
    exact Split.length_layout_pos model.splits present
  have regular : ∀ row ∈ model.constraints.map model.columnRow, row.coefficients.length =
      (model.columns.map (columnCoefficient model.objective.form)).length := by
    refine List.forall_mem_map.mpr fun constraint _ => ?_
    rw [columnRow, List.length_map, List.length_map]
  obtain ⟨bare, built, bareObjective, bareRows, bareDirection⟩ :=
    Problem.exists_ofRows? model.objective.direction someColumn regular
  have fits : model.columnNames.length =
      (model.columns.map (columnCoefficient model.objective.form)).length := by
    rw [columnNames, List.length_map, List.length_map]
  obtain ⟨named, renamed, names⟩ := bare.exists_withNames fits
  refine ⟨⟨_, _, { bare with names := named }, Split.recoveries model.splits⟩, ?_,
    List.length_map _, bareObjective, bareRows, bareDirection, names, rfl⟩
  rw [lower, rows, objective, values, senses]
  simp only [bind, Except.bind, built, renamed]
  rfl

/-! ## Points -/

theorem columnCoefficient_eq_signed {k : Nat} (form : LinearForm ℚ) (column : SplitColumn k) :
    columnCoefficient form column = signed column.negated (form.coefficient column.source) := by
  unfold columnCoefficient LinearForm.coefficient
  cases form.coefficient? column.source with
  | some coefficient => rfl
  | none =>
    cases column.negated
    · rfl
    · exact neg_zero.symm

/-- A form has the same value in columns as in the quantities that they hold. -/
theorem dot_columnCoefficients (form : LinearForm ℚ)
    (w : Fin (Split.layout model.splits).length → ℚ) :
    Scalar.dot (model.columns.map (columnCoefficient form)) (List.ofFn w) =
      form.value (Split.quantities model.splits w) := by
  rw [columns, ← Split.ofFn_column, Scalar.dot_ofFn_ofFn]
  simp only [columnCoefficient_eq_signed, signed_mul]
  exact Split.sum_mul_signed model.splits (fun source => form.coefficient source) w

namespace IsLowering

variable {lowering : Lowering ℚ} (lowered : model.IsLowering lowering)
include lowered

theorem objectiveValue_ofFn (w : Fin (Split.layout model.splits).length → ℚ) :
    lowering.problem.objectiveValue (List.ofFn w) =
      model.objective.form.value (Split.quantities model.splits w) := by
  rw [Problem.objectiveValue, lowered.objective_eq, dot_columnCoefficients]

/-- Columns are a feasible point when they are nonnegative and the quantities
that they hold satisfy the constraints. -/
theorem feasible_ofFn_iff (w : Fin (Split.layout model.splits).length → ℚ) :
    lowering.problem.Feasible (List.ofFn w) ↔ (∀ j, 0 ≤ w j) ∧
      ∀ constraint ∈ model.constraints, constraint.sense.Holds
        (constraint.form.value (Split.quantities model.splits w)) constraint.value := by
  have length : (List.ofFn w).length = lowering.numVariables := by
    rw [List.length_ofFn, lowered.numVariables_eq, columns]
  rw [Problem.feasible_iff_listedRows, lowered.rows_eq, List.forall_mem_map, and_iff_right length]
  simp only [columnRow, dot_columnCoefficients, List.forall_mem_ofFn_iff]

theorem recover?_ofFn (w : Fin (Split.layout model.splits).length → ℚ) :
    recover? lowering.recoveries (List.ofFn w) =
      some (List.ofFn (Split.quantities model.splits w)) := by
  rw [lowered.recoveries_eq, Split.recover?_ofFn]

theorem flatMap_columns : lowering.recoveries.flatMap Recovery.columns =
    List.range lowering.numVariables := by
  rw [lowered.recoveries_eq, lowered.numVariables_eq, Split.flatMap_columns_recoveries, columns]

end IsLowering

end Model
end LinearProgram
