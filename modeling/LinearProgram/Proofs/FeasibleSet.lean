import LinearProgram.Proofs.StandardForm

namespace LinearProgram

/-!
# The feasible set in standard form

The standard form of a problem has one column for each decision variable and
the columns of the rows after them, and each row has exactly one of its own
columns in the first basis.  A feasible point is the decision part of exactly
one nonnegative solution of the rows without artificial part: once nothing is
artificial, each row determines its slack or its surplus, and an equation has
nothing left to determine.
-/

/-- The number of columns that a constraint of the given sense adds. -/
def Sense.addedColumns : Sense → Nat
  | .le => 1
  | .ge => 2
  | .eq => 1

theorem Sense.sum_addedColumns (senses : List Sense) :
    (senses.map addedColumns).sum =
      senses.count .le + 2 * senses.count .ge + senses.count .eq := by
  induction senses with
  | nil => rfl
  | cons sense rest ih =>
    rw [List.map_cons, List.sum_cons, ih]
    cases sense <;> simp [addedColumns] <;> omega

namespace Problem

variable {m n : Nat} (p : Problem ℚ m n)

/-! ## Columns -/

theorem tags_eq_decision_iff (j : Fin p.width) (k : Fin n) :
    p.tags[j] = .decision k ↔ j.val = k.val := by
  rw [← p.tags_decisionColumn k]
  constructor
  · intro same
    exact congrArg Fin.val (p.tags_injective same)
  · intro same
    have place : j = p.decisionColumn k := Fin.ext same
    rw [place]

theorem length_rowTags (row : Fin m) : (p.rowTags row).length = p.senses[row].addedColumns := by
  unfold rowTags
  cases p.senses[row] <;> rfl

theorem width_eq_add_count : p.width = n + p.senses.toList.count .le +
    2 * p.senses.toList.count .ge + p.senses.toList.count .eq := by
  have added : ((List.finRange m).flatMap p.rowTags).length =
      (p.senses.toList.map Sense.addedColumns).sum := by
    rw [List.length_flatMap, toList_eq_map_finRange, List.map_map]
    exact congrArg List.sum (List.map_congr_left fun row _ => p.length_rowTags row)
  rw [width, tagList, List.length_append, List.length_map, List.length_finRange, added,
    Sense.sum_addedColumns]
  omega

/-! ## The first basis -/

theorem homeTag_eq (row : Fin m) :
    p.homeTag row = .slack row ∨ p.homeTag row = .artificial row := by
  unfold homeTag
  cases p.senses[row]
  · exact Or.inl rfl
  · exact Or.inr rfl
  · exact Or.inr rfl

/-- The column that is basic in a row is the only basic one of the columns that the row adds. -/
theorem exists_basic (mode : ObjectiveMode ℚ) (epsilon : ℚ) (row : Fin m) :
    ∃ j : Fin p.width, (p.tableau mode epsilon).basis[row] = j.castSucc ∧
      (p.tags[j] = .slack row ∨ p.tags[j] = .artificial row) ∧
      ∀ other : Fin p.width, other.castSucc ∈ (p.tableau mode epsilon).basis.toList →
        p.tags[other].row? = some row → other = j := by
  refine ⟨p.home row, p.basis_tableau mode epsilon row, ?_, fun j basic belongs => ?_⟩
  · rw [tags_home]
    exact p.homeTag_eq row
  · obtain ⟨own, rfl⟩ : ∃ own : Fin m, j = p.home own := by
      rcases List.getElem_of_mem basic with ⟨place, bound, found⟩
      refine ⟨⟨place, by simpa using bound⟩, Fin.castSucc_injective _ (found.symm.trans ?_)⟩
      exact p.basis_tableau mode epsilon ⟨place, _⟩
    rw [tags_home, p.row?_of_mem_rowTags (p.homeTag_mem_rowTags own)] at belongs
    rw [Option.some.inj belongs]

/-! ## Points -/

/-- Solutions of the rows without artificial part are told apart by their decision part. -/
theorem eq_lift_decisionPart {v : Fin p.width → ℚ} (equations : p.Equations v)
    (noArtificial : p.NoArtificial v) : v = p.lift (p.decisionPart v) := by
  rcases p.exists_tagValues v with ⟨w, rfl⟩
  have values : p.decisionPart (fun j => w p.tags[j]) = fun k => w (.decision k) :=
    funext (p.decisionPart_tagValues w)
  have artificialPart : ∀ row, .artificial row ∈ p.rowTags row → w (.artificial row) = 0 := by
    intro row member
    rcases p.exists_column_of_mem_rowTags member with ⟨j, tag⟩
    rw [← tag]
    exact noArtificial j (by rw [tag]; rfl)
  funext j
  rw [values, lift]
  cases tag : p.tags[j] with
  | decision k => rfl
  | slack row =>
    have member : p.tags[j] ∈ p.rowTags row := p.mem_rowTags_of_row? (by rw [tag]; rfl)
    have equation := (p.equations_tagValues_iff w).mp equations row
    unfold rowTags at member
    unfold auxiliary at equation
    cases sense : p.senses[row] <;> simp only [sense, tag] at member equation
    · exact eq_sub_of_add_eq' equation
    · simp at member
    · simp at member
  | surplus row =>
    have member : p.tags[j] ∈ p.rowTags row := p.mem_rowTags_of_row? (by rw [tag]; rfl)
    have equation := (p.equations_tagValues_iff w).mp equations row
    have zero := artificialPart row
    unfold rowTags at member zero
    unfold auxiliary at equation
    cases sense : p.senses[row] <;> simp only [sense, tag] at member equation zero
    · simp at member
    · have none := zero (List.mem_cons_of_mem _ List.mem_cons_self)
      change w (.surplus row) = p.leftSide row (fun k => w (.decision k)) - p.rhs[row]
      linarith
    · simp at member
  | artificial row =>
    exact artificialPart row (tag ▸ p.mem_rowTags_of_row? (by rw [tag]; rfl))

/-- Column values that start with a point, are nonnegative and not artificial,
and satisfy the rows of a tableau. -/
structure Completes (T : Tableau ℚ m p.width) (x : List ℚ) (v : Fin p.width → ℚ) : Prop where
  starts : (List.ofFn v).take n = x
  nonnegative : ∀ j, 0 ≤ v j
  noArtificial : p.NoArtificial v
  solves : T.Solves v

section Tableau

variable {p} {mode : ObjectiveMode ℚ} {epsilon : ℚ} {x : List ℚ} {v w : Fin p.width → ℚ}

theorem completes_lift {y : Fin n → ℚ} (admits : p.Admits y) :
    p.Completes (p.tableau mode epsilon) (List.ofFn y) (p.lift y) where
  starts := by rw [take_ofFn_eq, decisionPart_lift]
  nonnegative := admits.lift_nonneg
  noArtificial := p.noArtificial_lift y
  solves := (p.solves_tableau_iff mode epsilon _).mpr admits.equations_lift

namespace Completes

theorem ofFn_decisionPart {T : Tableau ℚ m p.width} (completes : p.Completes T x v) :
    List.ofFn (p.decisionPart v) = x := by
  rw [← take_ofFn_eq, completes.starts]

theorem feasible (completes : p.Completes (p.tableau mode epsilon) x v) : p.Feasible x := by
  have equations := (p.solves_tableau_iff mode epsilon v).mp completes.solves
  rw [← completes.ofFn_decisionPart, feasible_ofFn_iff]
  exact p.admits_decisionPart equations completes.nonnegative completes.noArtificial

theorem eq_lift (completes : p.Completes (p.tableau mode epsilon) x v) :
    v = p.lift (p.decisionPart v) :=
  p.eq_lift_decisionPart ((p.solves_tableau_iff mode epsilon v).mp completes.solves)
    completes.noArtificial

theorem unique (first : p.Completes (p.tableau mode epsilon) x v)
    (second : p.Completes (p.tableau mode epsilon) x w) : v = w := by
  have point : p.decisionPart v = p.decisionPart w :=
    List.ofFn_injective (first.ofFn_decisionPart.trans second.ofFn_decisionPart.symm)
  rw [first.eq_lift, second.eq_lift, point]

end Completes

theorem feasible_iff_exists_completes :
    p.Feasible x ↔ ∃ v, p.Completes (p.tableau mode epsilon) x v := by
  constructor
  · intro feasible
    rcases feasible.exists_ofFn with ⟨y, rfl, admits⟩
    exact ⟨p.lift y, completes_lift admits⟩
  · rintro ⟨v, completes⟩
    exact completes.feasible

end Tableau

/-- What a first tableau has to be in order to stand for a problem. -/
structure IsStandardForm (T : Tableau ℚ m p.width) : Prop where
  width_eq : p.width = n + p.senses.toList.count .le + 2 * p.senses.toList.count .ge +
    p.senses.toList.count .eq
  /-- The decision columns come first, in the order of the variables. -/
  decision_iff : ∀ (j : Fin p.width) (k : Fin n), p.tags[j] = .decision k ↔ j.val = k.val
  /-- The slack or artificial column of each row starts in the basis, in its
  row, and no other column of the row does. -/
  basic : ∀ row : Fin m, ∃ j : Fin p.width, T.basis[row] = j.castSucc ∧
    (p.tags[j] = .slack row ∨ p.tags[j] = .artificial row) ∧
    ∀ other : Fin p.width, other.castSucc ∈ T.basis.toList →
      p.tags[other].row? = some row → other = j
  /-- The feasible points are the ones that column values complete. -/
  feasible_iff : ∀ x : List ℚ, p.Feasible x ↔ ∃ v, p.Completes T x v
  /-- No point is completed in two ways. -/
  unique : ∀ (x : List ℚ) (v w : Fin p.width → ℚ), p.Completes T x v → p.Completes T x w → v = w

/-- **Standard form keeps the feasible set.** -/
theorem isStandardForm_tableau (mode : ObjectiveMode ℚ) (epsilon : ℚ) :
    p.IsStandardForm (p.tableau mode epsilon) where
  width_eq := p.width_eq_add_count
  decision_iff := p.tags_eq_decision_iff
  basic := p.exists_basic mode epsilon
  feasible_iff := fun _ => feasible_iff_exists_completes
  unique := fun _ _ _ first second => first.unique second

end Problem
end LinearProgram
