import LinearProgram.Proofs.Model.Lowering

namespace LinearProgram

/-!
# Lowering preserves meaning

An author declares variables, writes constraints and an objective as sums of
terms, and thinks of assignments of numbers to the variables.  The problem
that such a model is lowered to has other variables, its columns.  Recovery
leads from its feasible points to the assignments that the author means, and
each of these is recovered from some feasible point with the same objective.
-/

/-- A constraint in the words of its author. -/
structure WrittenConstraint (K : Type) where
  terms : List (Nat × K)
  sense : Sense
  value : K

/-- A linear program in the words of its author, who may write several terms
about one variable. -/
structure Formulation (K : Type) where
  declarations : List (String × VariableKind)
  constraints : List (WrittenConstraint K)
  objective : List (Nat × K)
  direction : Direction

/-- The constraint after its terms have been added. -/
def WrittenConstraint.constraint {K : Type} [Scalar K] (written : WrittenConstraint K) :
    Constraint K :=
  ⟨.ofTerms written.terms, written.sense, written.value⟩

namespace Formulation

/-! ## Calls -/

section Calls

variable {K : Type} (f : Formulation K)

/-- A term of a constraint or of the objective is about the variable. -/
def Mentions (index : Nat) : Prop :=
  (∃ written ∈ f.constraints, ∃ term ∈ written.terms, term.1 = index) ∨
    ∃ term ∈ f.objective, term.1 = index

/-- Every term is about a declared variable. -/
def Declared : Prop :=
  ∀ index, f.Mentions index → index < f.declarations.length

theorem declared_iff : f.Declared ↔
    (∀ written ∈ f.constraints, ∀ term ∈ written.terms, term.1 < f.declarations.length) ∧
      ∀ term ∈ f.objective, term.1 < f.declarations.length := by
  constructor
  · intro declared
    exact ⟨fun written member term inside =>
        declared term.1 (Or.inl ⟨written, member, term, inside, rfl⟩),
      fun term inside => declared term.1 (Or.inr ⟨term, inside, rfl⟩)⟩
  · rintro ⟨constraints, objective⟩ index (⟨written, member, term, inside, rfl⟩ | ⟨term, inside, rfl⟩)
    · exact constraints written member term inside
    · exact objective term inside

instance : Decidable f.Declared :=
  decidable_of_iff _ f.declared_iff.symm

theorem foldl_declare (declarations : List (String × VariableKind)) (model : Model K) :
    declarations.foldl (fun (model : Model K) entry => model.declare entry.1 entry.2) model =
      { model with declarations := model.declarations ++ declarations } := by
  induction declarations generalizing model with
  | nil => rw [List.foldl_nil, List.append_nil]
  | cons first rest ih =>
    rw [List.foldl_cons, ih, Model.declare]
    simp only [List.append_assoc, List.singleton_append]

variable [Scalar K]

/-- The model that is built by one call for each declaration, for each
constraint and for the objective. -/
def model : Model K :=
  let declared := f.declarations.foldl
    (fun (model : Model K) entry => model.declare entry.1 entry.2) .empty
  let constrained := f.constraints.foldl
    (fun (model : Model K) written => model.constrain written.constraint) declared
  constrained.withObjective ⟨.ofTerms f.objective, f.direction⟩

/-- What the model contains after all calls. -/
def contents : Model K where
  declarations := f.declarations
  constraints := f.constraints.map WrittenConstraint.constraint
  objective := ⟨.ofTerms f.objective, f.direction⟩

theorem foldl_constrain (constraints : List (WrittenConstraint K)) (model : Model K) :
    constraints.foldl (fun (model : Model K) written => model.constrain written.constraint) model =
      { model with
        constraints := model.constraints ++ constraints.map WrittenConstraint.constraint } := by
  induction constraints generalizing model with
  | nil => rw [List.foldl_nil, List.map_nil, List.append_nil]
  | cons first rest ih =>
    rw [List.foldl_cons, ih, Model.constrain]
    simp only [List.append_assoc, List.singleton_append, List.map_cons]

theorem model_eq_contents : f.model = f.contents := by
  rw [model, foldl_declare, foldl_constrain]
  rfl

/-- The model mentions the variables of the written terms. -/
theorem mentions_contents_iff (index : Nat) : f.contents.Mentions index ↔ f.Mentions index := by
  refine or_congr ?_ (LinearForm.mentions_ofTerms_iff f.objective index)
  rw [contents]
  simp only [List.mem_map, exists_exists_and_eq_and]
  exact exists_congr fun written => and_congr_right fun _ =>
    LinearForm.mentions_ofTerms_iff written.terms index

end Calls

/-! ## Assignments -/

variable (f : Formulation ℚ)

/-- An assignment that satisfies the formulation. -/
structure Admits (v : List ℚ) : Prop where
  length_eq : v.length = f.declarations.length
  nonnegative : ∀ index : Fin f.declarations.length,
    f.declarations[index].2 = .nonnegative → 0 ≤ v.getD index 0
  holds : ∀ written ∈ f.constraints,
    written.sense.Holds (LinearForm.writtenValue written.terms v) written.value

/-- The objective of an assignment. -/
def objectiveValue (v : List ℚ) : ℚ :=
  LinearForm.writtenValue f.objective v

theorem allows_split_iff (kind : VariableKind) (value : ℚ) :
    kind.split.Allows value ↔ (kind = .nonnegative → 0 ≤ value) := by
  cases kind with
  | free => exact iff_of_true trivial fun free => nomatch free
  | nonnegative => exact ⟨fun above _ => above, fun above => above rfl⟩

variable {f}

/-- An assignment, given for each variable of the model, satisfies the
formulation when the columns can hold it and it satisfies the constraints. -/
theorem admits_ofFn_iff (declared : f.Declared) (y : Fin f.contents.declarations.length → ℚ) :
    f.Admits (List.ofFn y) ↔
      (∀ source : Fin f.contents.declarations.length,
        f.contents.splits[source].Allows (y source)) ∧
      ∀ constraint ∈ f.contents.constraints,
        constraint.sense.Holds (constraint.form.value y) constraint.value := by
  have signs : (∀ source : Fin f.contents.declarations.length,
        f.contents.splits[source].Allows (y source)) ↔
      ∀ index : Fin f.declarations.length,
        f.declarations[index].2 = .nonnegative → 0 ≤ (List.ofFn y).getD index 0 := by
    refine forall_congr' fun index => ?_
    have split : f.contents.splits[index] = f.declarations[index].2.split := by
      exact Vector.getElem_ofFn _
    have entry : (List.ofFn y).getD index 0 = y index := by simp
    rw [split, entry]
    exact allows_split_iff f.declarations[index].2 (y index)
  have rows : (∀ constraint ∈ f.contents.constraints,
        constraint.sense.Holds (constraint.form.value y) constraint.value) ↔
      ∀ written ∈ f.constraints,
        written.sense.Holds (LinearForm.writtenValue written.terms (List.ofFn y)) written.value := by
    refine List.forall_mem_map.trans (forall₂_congr fun written member => ?_)
    have own : ∀ term ∈ written.terms, term.1 < f.contents.declarations.length :=
      (f.declared_iff.mp declared).1 written member
    rw [WrittenConstraint.constraint, LinearForm.value_ofTerms own]
  rw [signs, rows]
  exact ⟨fun admits => ⟨admits.nonnegative, admits.holds⟩,
    fun ⟨nonnegative, holds⟩ => ⟨List.length_ofFn, nonnegative, holds⟩⟩

theorem objectiveValue_ofFn (declared : f.Declared)
    (y : Fin f.contents.declarations.length → ℚ) :
    f.objectiveValue (List.ofFn y) = f.contents.objective.form.value y :=
  (LinearForm.value_ofTerms (f.declared_iff.mp declared).2 y).symm

/-! ## Feasible points and assignments -/

/-- What the problem of a model means for the formulation behind the model. -/
structure PreservedBy (f : Formulation ℚ) (lowering : Lowering ℚ) : Prop where
  direction_eq : lowering.problem.direction = f.direction
  /-- The recoveries read all columns in order, each once. -/
  columns_eq : lowering.recoveries.flatMap Recovery.columns = List.range lowering.numVariables
  /-- A feasible point holds an assignment that the author admits. -/
  sound : ∀ u, lowering.problem.Feasible u → ∃ v, recover? lowering.recoveries u = some v ∧
    f.Admits v ∧ lowering.problem.objectiveValue u = f.objectiveValue v
  /-- Each assignment that the author admits is held by a feasible point. -/
  complete : ∀ v, f.Admits v → ∃ u, lowering.problem.Feasible u ∧
    recover? lowering.recoveries u = some v ∧
    lowering.problem.objectiveValue u = f.objectiveValue v

theorem preservedBy_of_isLowering (declared : f.Declared) {lowering : Lowering ℚ}
    (lowered : f.contents.IsLowering lowering) : f.PreservedBy lowering where
  direction_eq := lowered.direction_eq
  columns_eq := lowered.flatMap_columns
  sound := by
    intro u feasible
    have length := feasible.length_eq.trans lowered.numVariables_eq
    rcases exists_eq_ofFn length with ⟨w, rfl⟩
    rcases (lowered.feasible_ofFn_iff w).mp feasible with ⟨nonnegative, rows⟩
    refine ⟨_, lowered.recover?_ofFn w, (admits_ofFn_iff declared _).mpr ⟨?_, rows⟩, ?_⟩
    · exact Split.allows_quantities f.contents.splits nonnegative
    · rw [objectiveValue_ofFn declared]
      exact lowered.objectiveValue_ofFn w
  complete := by
    intro v admits
    have length : v.length = f.contents.declarations.length := admits.length_eq
    rcases exists_eq_ofFn length with ⟨y, rfl⟩
    rcases (admits_ofFn_iff declared y).mp admits with ⟨allowed, rows⟩
    have held := Split.quantities_columnValues f.contents.splits allowed
    refine ⟨List.ofFn (Split.columnValues f.contents.splits y), ?_, ?_, ?_⟩
    · rw [lowered.feasible_ofFn_iff, held]
      exact ⟨Split.columnValues_nonneg f.contents.splits y, rows⟩
    · rw [lowered.recover?_ofFn, held]
    · rw [lowered.objectiveValue_ofFn, held]
      exact (objectiveValue_ofFn declared y).symm

/-- **Lowering preserves meaning.**  A formulation with variables, whose terms
are about these, is lowered to a problem with the same meaning.  If a term is
about another variable, whatever its coefficient, such a variable is reported. -/
theorem lower_model_preserves (f : Formulation ℚ) :
    (f.Declared → 0 < f.declarations.length →
      ∃ lowering, f.model.lower = .ok lowering ∧ f.PreservedBy lowering) ∧
    ((∃ index, f.Mentions index ∧ f.declarations.length ≤ index) →
      ∃ index, f.Mentions index ∧ f.declarations.length ≤ index ∧
        f.model.lower = .error (.unknownVariable index)) := by
  rw [f.model_eq_contents]
  constructor
  · intro declared present
    have onlyDeclared : ∀ index, f.contents.Mentions index →
        index < f.contents.declarations.length :=
      fun index mentioned => declared index ((f.mentions_contents_iff index).mp mentioned)
    rcases Model.exists_isLowering onlyDeclared present with ⟨lowering, lowered, consists⟩
    exact ⟨lowering, lowered, preservedBy_of_isLowering declared consists⟩
  · rintro ⟨index, mentioned, undeclared⟩
    rcases f.contents.exists_lower_eq_error ((f.mentions_contents_iff index).mpr mentioned)
      undeclared with ⟨other, named, beyond, reported⟩
    exact ⟨other, (f.mentions_contents_iff other).mp named, beyond, reported⟩

/-- A free variable between two others; a constraint and the objective each
come back to a variable. -/
def mixedFormulation : Formulation ℚ where
  declarations := [("x", .nonnegative), ("y", .free), ("z", .nonnegative)]
  constraints := [⟨[(0, 1), (1, 2), (0, -3)], .le, 5⟩, ⟨[(2, -1), (1, 1)], .ge, -4⟩,
    ⟨[(0, 1), (2, 1)], .eq, 3⟩]
  objective := [(1, 1), (2, 2), (1, 1)]
  direction := .maximize

/-- A term without weight about a variable that is not declared. -/
def strayFormulation : Formulation ℚ where
  declarations := [("x", .free)]
  constraints := [⟨[(0, 1), (7, 0)], .le, 1⟩]
  objective := [(0, 1)]
  direction := .minimize

/-- The free variable is held by the second and the third column, and the
stray term makes its variable the reported one. -/
theorem mixedFormulation_preserved :
    (mixedFormulation.Declared ∧ 0 < mixedFormulation.declarations.length ∧
      (mixedFormulation.model.lower.toOption.map fun lowering =>
        (lowering.problem.coefficients.toLists, lowering.recoveries)) =
        some ([[-2, 2, -2, 0], [0, 1, -1, -1], [1, 0, 0, 1]],
          [.direct 0, .difference 1 2, .direct 3]) ∧
      ∃ lowering, mixedFormulation.model.lower = .ok lowering ∧
        mixedFormulation.PreservedBy lowering) ∧
    (strayFormulation.Mentions 7 ∧ strayFormulation.declarations.length ≤ 7 ∧
      ∃ index, strayFormulation.Mentions index ∧ strayFormulation.declarations.length ≤ index ∧
        strayFormulation.model.lower = .error (.unknownVariable index)) := by
  have declared : mixedFormulation.Declared := by decide
  have present : 0 < mixedFormulation.declarations.length := by decide
  have rows : (mixedFormulation.model.lower.toOption.map fun lowering =>
      (lowering.problem.coefficients.toLists, lowering.recoveries)) =
      some ([[-2, 2, -2, 0], [0, 1, -1, -1], [1, 0, 0, 1]],
        [.direct 0, .difference 1 2, .direct 3]) := by
    decide +kernel
  have stray : strayFormulation.Mentions 7 :=
    Or.inl ⟨_, List.mem_cons_self, (7, 0), by decide, rfl⟩
  have undeclared : strayFormulation.declarations.length ≤ 7 := by decide
  exact ⟨⟨declared, present, rows, (lower_model_preserves mixedFormulation).1 declared present⟩,
    stray, undeclared, (lower_model_preserves strayFormulation).2 ⟨7, stray, undeclared⟩⟩

end Formulation
end LinearProgram
