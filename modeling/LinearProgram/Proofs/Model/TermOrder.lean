import LinearProgram.Proofs.Model.Formulation
import LinearProgram.Proofs.Model.Scatter

namespace LinearProgram

/-!
# The order of terms

The terms of a form are a map from variables to coefficients, and a model says
nothing about the order in which such a map is gone through.  The rows of the
problem do not depend on it, because the columns of different variables are
different cells.  Where a form mentions several undeclared variables, the first
of them in the order is the one that is reported, and this is all that the
order can change.

The calls that build a form can be made in another order too, as long as those
about the same variable keep theirs.  The map is then the same whatever the
arithmetic does, since no other sums are formed.
-/

variable {K : Type}

/-! ## Answers that agree but for the reported variable -/

/-- Both answers are the same, or each reports a variable.  The two variables
may differ, but only as the given relation permits. -/
inductive SameAnswer {α : Type} (confusable : Nat → Nat → Prop) :
    Except (Error K) α → Except (Error K) α → Prop where
  | same (answer : Except (Error K) α) : SameAnswer confusable answer answer
  | reported {index other : Nat} (confused : confusable index other) :
    SameAnswer confusable (.error (.unknownVariable index)) (.error (.unknownVariable other))

namespace SameAnswer

variable {α β : Type} {confusable : Nat → Nat → Prop} {left right : Except (Error K) α}

theorem eq (answers : SameAnswer confusable left right)
    (clear : ∀ index other, confusable index other → index = other) : left = right := by
  cases answers with
  | same => rfl
  | reported confused => rw [clear _ _ confused]

theorem bind {next after : α → Except (Error K) β} (answers : SameAnswer confusable left right)
    (later : ∀ value, SameAnswer confusable (next value) (after value)) :
    SameAnswer confusable (left >>= next) (right >>= after) := by
  cases answers with
  | same =>
    cases left with
    | error cause => exact .same _
    | ok value => exact later value
  | reported confused => exact .reported confused

/-- A pass over two lists stops at the same place in both. -/
theorem mapM {ι κ : Type} {pass : ι → Except (Error K) α} {otherPass : κ → Except (Error K) α}
    {items : List ι} {others : List κ}
    (every : List.Forall₂ (fun item other => SameAnswer confusable (pass item) (otherPass other))
      items others) :
    SameAnswer confusable (items.mapM pass) (others.mapM otherPass) := by
  induction every with
  | nil => exact .same _
  | cons first _ ih =>
    rw [List.mapM_cons, List.mapM_cons]
    exact first.bind fun _ => ih.bind fun _ => .same _

end SameAnswer

/-! ## Orders of a model -/

/-- The same constraint with the terms in another order. -/
structure Constraint.Rearranges (constraint order : Constraint K) : Prop where
  terms : constraint.form.terms.Perm order.form.terms
  sense : constraint.sense = order.sense
  value : constraint.value = order.value

theorem Constraint.Rearranges.trans {constraint order last : Constraint K}
    (first : constraint.Rearranges order) (second : order.Rearranges last) :
    constraint.Rearranges last :=
  ⟨first.terms.trans second.terms, first.sense.trans second.sense, first.value.trans second.value⟩

theorem forall₂_trans {α : Type} {R : α → α → Prop} (trans : ∀ a b c, R a b → R b c → R a c)
    {left middle right : List α} (first : List.Forall₂ R left middle)
    (second : List.Forall₂ R middle right) : List.Forall₂ R left right := by
  induction first generalizing right with
  | nil => exact second
  | cons here _ ih =>
    cases second with
    | cons there later => exact .cons (trans _ _ _ here there) (ih later)

namespace Model

/-- The forms of the constraints and of the objective. -/
def forms (model : Model K) : List (LinearForm K) :=
  model.constraints.map Constraint.form ++ [model.objective.form]

/-- No form has two terms about one variable. -/
def Distinct (model : Model K) : Prop :=
  ∀ form ∈ model.forms, form.Distinct

instance (model : Model K) : Decidable model.Distinct :=
  inferInstanceAs (Decidable (∀ form ∈ model.forms, form.Distinct))

/-- The same model with the terms of each form in another order. -/
structure Rearranges (model order : Model K) : Prop where
  declarations : order.declarations = model.declarations
  constraints : List.Forall₂ Constraint.Rearranges model.constraints order.constraints
  terms : model.objective.form.terms.Perm order.objective.form.terms
  direction : order.objective.direction = model.objective.direction

theorem form_mem_forms {model : Model K} {constraint : Constraint K}
    (member : constraint ∈ model.constraints) : constraint.form ∈ model.forms :=
  List.mem_append_left _ (List.mem_map_of_mem member)

theorem objective_mem_forms (model : Model K) : model.objective.form ∈ model.forms :=
  List.mem_append_right _ List.mem_cons_self

/-- One form mentions both variables, and neither of them is declared. -/
def Confusable (model : Model K) (index other : Nat) : Prop :=
  ∃ form ∈ model.forms, form.Mentions index ∧ form.Mentions other ∧
    model.declarations.length ≤ index ∧ model.declarations.length ≤ other

/-- No form mentions two undeclared variables. -/
def OneStray (model : Model K) : Prop :=
  ∀ index other, model.Confusable index other → index = other

theorem Rearranges.refl (model : Model K) : model.Rearranges model where
  declarations := rfl
  constraints := List.forall₂_same.mpr fun _ _ => ⟨.refl _, rfl, rfl⟩
  terms := .refl _
  direction := rfl

namespace Rearranges

variable {model order : Model K} (rearranges : model.Rearranges order)
include rearranges

theorem trans {last : Model K} (later : order.Rearranges last) : model.Rearranges last where
  declarations := later.declarations.trans rearranges.declarations
  constraints := forall₂_trans (fun _ _ _ first second => first.trans second)
    rearranges.constraints later.constraints
  terms := rearranges.terms.trans later.terms
  direction := later.direction.trans rearranges.direction

theorem forms : List.Forall₂ (fun form other : LinearForm K => form.terms.Perm other.terms)
    model.forms order.forms := by
  refine List.rel_append (List.rel_map (fun _ _ same => ?_) rearranges.constraints)
    (.cons rearranges.terms .nil)
  exact same.terms

theorem distinct (distinct : model.Distinct) : order.Distinct := by
  have paired := (List.forall₂_and_left _ _).mpr ⟨distinct, rearranges.forms⟩
  have orders : List.Forall₂ (fun other form : LinearForm K =>
      other.Distinct ∧ form.terms.Perm other.terms) order.forms model.forms :=
    (paired.imp fun _ _ same => ⟨(same.2.map Prod.fst).nodup_iff.mp same.1, same.2⟩).flip
  exact ((List.forall₂_and_left _ _).mp orders).1

end Rearranges

theorem mentions_iff_forms (model : Model K) (index : Nat) :
    model.Mentions index ↔ ∃ form ∈ model.forms, form.Mentions index := by
  simp [Mentions, forms, or_and_right, exists_or]

/-- A model without undeclared variables leaves nothing to confuse. -/
theorem OneStray.of_declared {model : Model K}
    (declared : ∀ index, model.Mentions index → index < model.declarations.length) :
    model.OneStray := by
  rintro index other ⟨form, member, own, _, undeclared, _⟩
  have mentioned := (model.mentions_iff_forms index).mpr ⟨form, member, own⟩
  exact absurd (declared index mentioned) (not_lt.mpr undeclared)

variable [Scalar K]

/-- The problem of a model whose forms become rows in the given way. -/
def lowerWith (model : Model K) (row : LinearForm K → Except (Error K) (List K)) :
    Except (Error K) (Lowering K) := do
  let rows ← model.constraints.mapM fun constraint => row constraint.form
  let objective ← row model.objective.form
  let bare ← Problem.ofRows? objective rows (model.constraints.map Constraint.value)
    (model.constraints.map Constraint.sense) model.objective.direction
  let problem ← bare.withNames model.columnNames
  return { numConstraints := _, numVariables := _, problem, recoveries := Split.recoveries model.splits }

theorem lower_eq_lowerWith (model : Model K) : model.lower = model.lowerWith model.lowerForm := rfl

/-- The problem of a model whose rows are filled term by term, in the order of
the terms. -/
def scatterLower (model : Model K) : Except (Error K) (Lowering K) :=
  model.lowerWith model.scatterForm

theorem lowerWith_congr {model : Model K} {row other : LinearForm K → Except (Error K) (List K)}
    (same : ∀ form ∈ model.forms, row form = other form) :
    model.lowerWith row = model.lowerWith other := by
  have rows : (model.constraints.mapM fun constraint => row constraint.form) =
      model.constraints.mapM fun constraint => other constraint.form := by
    have every : ∀ constraint ∈ model.constraints,
        SameAnswer (fun _ _ => False) (row constraint.form) (other constraint.form) := by
      intro constraint member
      rw [same _ (form_mem_forms member)]
      exact .same _
    exact (SameAnswer.mapM (List.forall₂_same.mpr every)).eq fun _ _ => False.elim
  rw [lowerWith, lowerWith, rows, same _ model.objective_mem_forms]

/-- Rows that are filled term by term are the rows of the model. -/
theorem scatterLower_eq_lower {model : Model K} (distinct : model.Distinct) :
    model.scatterLower = model.lower := by
  rw [lower_eq_lowerWith, scatterLower]
  exact lowerWith_congr fun form member => model.scatterForm_eq_lowerForm (distinct form member)

/-- The row of a form does not depend on the order of its terms. -/
theorem sameAnswer_lowerForm {model : Model K} {form order : LinearForm K}
    (member : form ∈ model.forms) (distinct : form.Distinct)
    (terms : form.terms.Perm order.terms) :
    SameAnswer model.Confusable (model.lowerForm form) (model.lowerForm order) := by
  have mentions : ∀ index, order.Mentions index ↔ form.Mentions index := fun index =>
    exists_congr fun term => and_congr_left fun _ => terms.mem_iff.symm
  rcases model.lowerForm_cases order with ⟨other, named, beyond, reported⟩ | ⟨declared, lowered⟩
  · obtain ⟨index, own, undeclared, stopped⟩ :=
      model.exists_lowerForm_eq_error ((mentions other).mp named) beyond
    rw [stopped, reported]
    exact .reported ⟨form, member, own, (mentions other).mp named, undeclared, beyond⟩
  · have coefficients : columnCoefficient (k := model.declarations.length) form =
        columnCoefficient order := by
      funext column
      rw [columnCoefficient, columnCoefficient, LinearForm.coefficient?_eq_of_perm distinct terms]
    rw [lowered, model.lowerForm_eq_ok fun index named => declared index ((mentions index).mpr named),
      coefficients]
    exact .same _

/-- The problem of a model does not depend on the orders of its forms. -/
theorem sameAnswer_lower {model order : Model K} (distinct : model.Distinct)
    (rearranges : model.Rearranges order) :
    SameAnswer model.Confusable model.lower order.lower := by
  obtain ⟨declarations, orders, objective⟩ := order
  obtain ⟨same, constraints, terms, direction⟩ := rearranges
  dsimp only at same constraints terms direction
  subst same
  have values : model.constraints.map Constraint.value = orders.map Constraint.value := by
    rw [← List.forall₂_eq_eq_eq, List.forall₂_map_left_iff, List.forall₂_map_right_iff]
    exact constraints.imp fun _ _ same => same.value
  have senses : model.constraints.map Constraint.sense = orders.map Constraint.sense := by
    rw [← List.forall₂_eq_eq_eq, List.forall₂_map_left_iff, List.forall₂_map_right_iff]
    exact constraints.imp fun _ _ same => same.sense
  have every : List.Forall₂ (fun constraint other : Constraint K => SameAnswer model.Confusable
      (model.lowerForm constraint.form) (model.lowerForm other.form)) model.constraints orders := by
    refine ((List.forall₂_and_left _ _).mpr ⟨fun _ member => member, constraints⟩).imp ?_
    rintro constraint other ⟨member, same⟩
    have listed := form_mem_forms member
    exact sameAnswer_lowerForm listed (distinct _ listed) same.terms
  have last := model.objective_mem_forms
  rw [lower, lower]
  refine (SameAnswer.mapM every).bind fun rows => ?_
  refine (sameAnswer_lowerForm last (distinct _ last) terms).bind fun row => ?_
  dsimp only
  rw [values, senses, direction]
  exact .same _

/-- What the order says about the problem of the model: filling its rows term by
term gives the same answer as looking them up, which is the answer for the model
itself unless one form mentions several undeclared variables.  Then another one
of these variables may be reported. -/
structure LoweredAlike (model order : Model K) : Prop where
  scattered : order.scatterLower = order.lower
  answers : SameAnswer model.Confusable model.lower order.scatterLower
  unambiguous : model.OneStray → order.scatterLower = model.lower

theorem loweredAlike {model order : Model K} (distinct : model.Distinct)
    (rearranges : model.Rearranges order) : model.LoweredAlike order := by
  have scattered := scatterLower_eq_lower (rearranges.distinct distinct)
  have answers := sameAnswer_lower distinct rearranges
  rw [← scattered] at answers
  exact ⟨scattered, answers, fun clear => (answers.eq clear).symm⟩

end Model

/-! ## Orders of calls -/

/-- The same constraint with calls about different variables in another order. -/
structure WrittenConstraint.SameCalls (written other : WrittenConstraint K) : Prop where
  terms : LinearForm.SameCalls written.terms other.terms
  sense : written.sense = other.sense
  value : written.value = other.value

namespace Formulation

/-- The same formulation with calls about different variables in another order. -/
structure SameCalls (f g : Formulation K) : Prop where
  declarations : g.declarations = f.declarations
  constraints : List.Forall₂ WrittenConstraint.SameCalls f.constraints g.constraints
  objective : LinearForm.SameCalls f.objective g.objective
  direction : g.direction = f.direction

variable [Scalar K]

theorem distinct_model (f : Formulation K) : f.model.Distinct := by
  rw [f.model_eq_contents]
  intro form member
  rcases List.mem_append.mp member with constraint | objective
  · rw [contents, List.map_map] at constraint
    rcases List.mem_map.mp constraint with ⟨written, _, rfl⟩
    exact LinearForm.distinct_ofTerms written.terms
  · rw [List.mem_singleton.mp objective]
    exact LinearForm.distinct_ofTerms f.objective

/-- Calls in another order build the same maps. -/
theorem SameCalls.rearranges {f g : Formulation K} (same : f.SameCalls g) :
    f.model.Rearranges g.model := by
  rw [f.model_eq_contents, g.model_eq_contents]
  refine ⟨same.declarations, ?_, LinearForm.perm_ofTerms same.objective, same.direction⟩
  rw [contents, contents, List.forall₂_map_left_iff, List.forall₂_map_right_iff]
  exact same.constraints.imp fun _ _ calls =>
    ⟨LinearForm.perm_ofTerms calls.terms, calls.sense, calls.value⟩

end Formulation

/-- **Lowering does not depend on the order of terms.**  In whatever order the
terms of each form are gone through, filling the rows term by term gives the
problem of the model; only where one form mentions several undeclared variables
another one of these may be reported.  A formulation whose calls are made in
another order, apart from those about one variable, builds the same maps, and
its problem is the same in whatever order these are gone through. -/
theorem lowering_ignores_term_order [Scalar K] :
    (∀ model order : Model K, model.Distinct → model.Rearranges order →
      model.LoweredAlike order) ∧
    ∀ f g : Formulation K, f.SameCalls g →
      f.model.Distinct ∧ f.model.Rearranges g.model ∧
        ∀ order, g.model.Rearranges order → f.model.LoweredAlike order := by
  refine ⟨fun _ _ distinct rearranges => Model.loweredAlike distinct rearranges,
    fun f g same => ?_⟩
  have built := same.rearranges
  exact ⟨f.distinct_model, built, fun order rearranges =>
    Model.loweredAlike f.distinct_model (built.trans rearranges)⟩

/-- The calls of `mixedFormulation` in another order. -/
def shuffledFormulation : Formulation ℚ where
  declarations := [("x", .nonnegative), ("y", .free), ("z", .nonnegative)]
  constraints := [⟨[(1, 2), (0, 1), (0, -3)], .le, 5⟩, ⟨[(1, 1), (2, -1)], .ge, -4⟩,
    ⟨[(2, 1), (0, 1)], .eq, 3⟩]
  objective := [(2, 2), (1, 1), (1, 1)]
  direction := .maximize

/-- A constraint with two undeclared variables. -/
def twoStraysModel : Model ℚ where
  declarations := [("x", .free)]
  constraints := [⟨⟨[(7, 1), (0, 1), (9, 0)]⟩, .le, 1⟩]
  objective := ⟨⟨[(0, 1)]⟩, .minimize⟩

/-- The same model with the terms of the constraint in the opposite order. -/
def turnedStraysModel : Model ℚ :=
  { twoStraysModel with constraints := [⟨⟨[(9, 0), (0, 1), (7, 1)]⟩, .le, 1⟩] }

theorem shuffledFormulation_lowered :
    (Formulation.mixedFormulation.SameCalls shuffledFormulation ∧
      shuffledFormulation.model ≠ Formulation.mixedFormulation.model ∧
      shuffledFormulation.model.scatterLower = Formulation.mixedFormulation.model.lower) ∧
    twoStraysModel.Distinct ∧ twoStraysModel.Rearranges turnedStraysModel ∧
      twoStraysModel.lower = .error (.unknownVariable 7) ∧
      turnedStraysModel.scatterLower = .error (.unknownVariable 9) ∧
      SameAnswer twoStraysModel.Confusable twoStraysModel.lower turnedStraysModel.scatterLower := by
  have calls : Formulation.mixedFormulation.SameCalls shuffledFormulation := by
    refine ⟨rfl, .cons ⟨?_, rfl, rfl⟩ (.cons ⟨?_, rfl, rfl⟩ (.cons ⟨?_, rfl, rfl⟩ .nil)), ?_, rfl⟩
    all_goals
      intro index
      rcases index with _ | _ | _ | index <;> rfl
  have declared : Formulation.mixedFormulation.Declared := by decide
  have clear : Formulation.mixedFormulation.model.OneStray := by
    rw [Formulation.model_eq_contents]
    exact .of_declared fun index mentioned =>
      declared index ((Formulation.mentions_contents_iff _ index).mp mentioned)
  have distinct : twoStraysModel.Distinct := by decide
  have turned : twoStraysModel.Rearranges turnedStraysModel :=
    ⟨rfl, .cons ⟨by decide +kernel, rfl, rfl⟩ .nil, .refl _, rfl⟩
  rcases lowering_ignores_term_order.2 _ _ calls with ⟨_, _, lowered⟩
  exact ⟨⟨calls, by decide +kernel, (lowered _ (.refl _)).unambiguous clear⟩, distinct, turned, rfl,
    rfl, (lowering_ignores_term_order.1 _ _ distinct turned).answers⟩

end LinearProgram
