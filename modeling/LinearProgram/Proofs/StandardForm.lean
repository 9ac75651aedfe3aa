import LinearProgram.Proofs.Point
import LinearProgram.Proofs.Tableau.Pricing
import LinearProgram.StandardForm

namespace LinearProgram

/-!
# The meaning of the standard form

The columns of the first tableau are told apart by their tags, so column
values are the same as values of tags.  In these terms each constraint row
says that the left side of a constraint and the columns of its own row add up
to the right side.  A feasible point extends to nonnegative column values
without artificial part, and such column values restrict to a feasible point.
-/

/-- The constraint that a column belongs to.  A decision column belongs to none. -/
def ColumnTag.row? {m n : Nat} : ColumnTag m n → Option (Fin m)
  | decision _ => none
  | slack row => some row
  | surplus row => some row
  | artificial row => some row

namespace Problem

/-- The first basis holds the column that each row starts with. -/
theorem basis_tableau {K : Type} [Scalar K] {m n : Nat} (p : Problem K m n)
    (mode : ObjectiveMode K) (epsilon : K) (row : Fin m) :
    (p.tableau mode epsilon).basis[row] = (p.home row).castSucc := by
  simp [tableau, initialBasis]

/-! ## Columns and tags -/

section AnyArithmetic

variable {K : Type} {m n : Nat} (p : Problem K m n)

theorem row?_of_mem_rowTags {row : Fin m} {tag : ColumnTag m n} (member : tag ∈ p.rowTags row) :
    tag.row? = some row := by
  unfold rowTags at member
  split at member
  · cases List.mem_singleton.mp member
    rfl
  · rcases List.mem_pair.mp member with same | same
    · cases same
      rfl
    · cases same
      rfl
  · cases List.mem_singleton.mp member
    rfl

theorem tagList_nodup : p.tagList.Nodup := by
  refine List.Nodup.append ?_ ?_ ?_
  · exact (List.nodup_finRange n).map fun _ _ same => ColumnTag.decision.inj same
  · refine List.nodup_flatMap.mpr ⟨fun row _ => ?_, (List.nodup_finRange m).imp ?_⟩
    · unfold rowTags
      split <;> simp
    · intro row other different tag own foreign
      have same := (p.row?_of_mem_rowTags own).symm.trans (p.row?_of_mem_rowTags foreign)
      exact different (Option.some.inj same)
  · intro tag decision auxiliary
    rcases List.mem_map.mp decision with ⟨k, _, rfl⟩
    rcases List.mem_flatMap.mp auxiliary with ⟨row, _, member⟩
    exact nomatch p.row?_of_mem_rowTags member

theorem tags_injective {i j : Fin p.width} (same : p.tags[i] = p.tags[j]) : i = j :=
  Fin.ext ((p.tagList_nodup.getElem_inj_iff).mp same)

theorem le_width : n ≤ p.width := by
  simp [width, tagList]

theorem toList_tags : p.tags.toList = p.tagList := rfl

theorem toList_columnNames : p.columnNames.toList = p.tagList.map (ColumnTag.name p.names) := by
  rw [columnNames, Vector.toList_map, toList_tags]

end AnyArithmetic

variable {m n : Nat} (p : Problem ℚ m n)

/-- A sum over all columns, by the constraints that the columns come from. -/
theorem sum_tags (f : ColumnTag m n → ℚ) :
    ∑ j : Fin p.width, f p.tags[j] =
      ∑ k : Fin n, f (.decision k) + ∑ row : Fin m, ((p.rowTags row).map f).sum := by
  have columns : ∑ j : Fin p.width, f p.tags[j] = (p.tagList.map f).sum :=
    Fin.sum_univ_fun_getElem p.tagList f
  rw [columns, tagList, List.map_append, List.sum_append, sum_flatMap_finRange, List.map_map,
    ← List.ofFn_eq_map, List.sum_ofFn]
  rfl

/-- Column values are values of tags. -/
theorem exists_tagValues (v : Fin p.width → ℚ) :
    ∃ w : ColumnTag m n → ℚ, v = fun j => w p.tags[j] := by
  have injective : Function.Injective fun j : Fin p.width => p.tags[j] :=
    fun _ _ => p.tags_injective
  exact ⟨Function.extend (fun j => p.tags[j]) v 0,
    funext fun j => (injective.extend_apply v 0 j).symm⟩

def decisionColumn (k : Fin n) : Fin p.width :=
  Fin.castLE p.le_width k

@[simp]
theorem tags_decisionColumn (k : Fin n) : p.tags[p.decisionColumn k] = .decision k := by
  have bound : k.val < p.tagList.length := k.isLt.trans_le p.le_width
  have found : p.tagList[k.val] = .decision k := by simp [tagList]
  exact found

/-- The decision part of column values. -/
def decisionPart (v : Fin p.width → ℚ) (k : Fin n) : ℚ :=
  v (p.decisionColumn k)

/-- The decision columns come first. -/
theorem take_ofFn_eq (v : Fin p.width → ℚ) :
    (List.ofFn v).take n = List.ofFn (p.decisionPart v) := by
  apply List.ext_getElem
  · simp [p.le_width]
  · intro k _ _
    simp [decisionPart, decisionColumn]

@[simp]
theorem decisionPart_tagValues (w : ColumnTag m n → ℚ) (k : Fin n) :
    p.decisionPart (fun j => w p.tags[j]) k = w (.decision k) := by
  rw [decisionPart, tags_decisionColumn]

/-- Artificial columns have the value zero. -/
def NoArtificial (v : Fin p.width → ℚ) : Prop :=
  ∀ j : Fin p.width, p.tags[j].isArtificial = true → v j = 0

/-! ## The constraint rows -/

/-- What the columns of a constraint add to its left side. -/
def auxiliary (row : Fin m) (w : ColumnTag m n → ℚ) : ℚ :=
  match p.senses[row] with
  | .le => w (.slack row)
  | .ge => w (.artificial row) - w (.surplus row)
  | .eq => w (.artificial row)

/-- Column values that satisfy the equation of every constraint. -/
def Equations (v : Fin p.width → ℚ) : Prop :=
  ∀ row : Fin m, ∑ j : Fin p.width, p.equationEntry row p.tags[j] * v j = p.rhs[row]

/-- The equation of a constraint, column by column. -/
theorem sum_equationEntry (row : Fin m) (w : ColumnTag m n → ℚ) :
    ∑ j : Fin p.width, p.equationEntry row p.tags[j] * w p.tags[j] =
      p.leftSide row (fun k => w (.decision k)) + p.auxiliary row w := by
  have foreign : ∀ other : Fin m, other ≠ row →
      ((p.rowTags other).map fun tag => p.equationEntry row tag * w tag).sum = 0 := by
    intro other different
    unfold rowTags
    split <;> simp [equationEntry, different]
  have own : ((p.rowTags row).map fun tag => p.equationEntry row tag * w tag).sum =
      p.auxiliary row w := by
    unfold rowTags auxiliary
    cases p.senses[row] <;> simp [equationEntry]
    ring
  rw [p.sum_tags fun tag => p.equationEntry row tag * w tag,
    Fintype.sum_eq_single row foreign, own]
  rfl

theorem equations_tagValues_iff (w : ColumnTag m n → ℚ) :
    p.Equations (fun j => w p.tags[j]) ↔
      ∀ row : Fin m, p.leftSide row (fun k => w (.decision k)) + p.auxiliary row w = p.rhs[row] := by
  simp only [Equations, sum_equationEntry]

variable (mode : ObjectiveMode ℚ) (epsilon : ℚ)

/-- The first tableau before an objective is loaded. -/
def bareTableau : Tableau ℚ m p.width where
  cells := p.equations
  basis := p.initialBasis.map Fin.castSucc
  epsilon

theorem tableau_eq_loadObjective :
    p.tableau mode epsilon = (p.bareTableau epsilon).loadObjective (p.costs mode) := rfl

theorem entry_bareTableau (row : Fin m) (j : Fin p.width) :
    (p.bareTableau epsilon).entry row j.castSucc = p.equationEntry row p.tags[j] := by
  simp [bareTableau, Tableau.entry, Tableau.cell, equations, equation]

theorem rhs_bareTableau (row : Fin m) : (p.bareTableau epsilon).rhs row = p.rhs[row] := by
  simp [bareTableau, Tableau.rhs, Tableau.entry, Tableau.cell, equations, equation]

theorem basis_bareTableau (row : Fin m) :
    (p.bareTableau epsilon).basis[row] = (p.home row).castSucc := by
  simp [bareTableau, initialBasis]

theorem rhs_tableau (row : Fin m) : (p.tableau mode epsilon).rhs row = p.rhs[row] := by
  rw [tableau_eq_loadObjective, Tableau.rhs_loadObjective, rhs_bareTableau]

theorem solves_tableau_iff (v : Fin p.width → ℚ) :
    (p.tableau mode epsilon).Solves v ↔ p.Equations v := by
  rw [tableau_eq_loadObjective, Tableau.solves_loadObjective_iff]
  simp only [Tableau.Solves, Equations, entry_bareTableau, rhs_bareTableau]

theorem equationEntry_homeTag (row other : Fin m) :
    p.equationEntry other (p.homeTag row) = if other = row then 1 else 0 := by
  unfold homeTag
  split <;> simp [equationEntry, eq_comm]

theorem unitBasis_bareTableau : (p.bareTableau epsilon).UnitBasis := by
  constructor
  · intro row
    rw [basis_bareTableau]
    exact (p.home row).isLt
  · intro row other
    rw [basis_bareTableau, entry_bareTableau, tags_home, equationEntry_homeTag]

theorem canonical_tableau : (p.tableau mode epsilon).Canonical :=
  (p.unitBasis_bareTableau epsilon).canonical_loadObjective (p.costs mode)

def columnCost (mode : ObjectiveMode ℚ) (j : Fin p.width) : ℚ :=
  p.cost mode p.tags[j]

theorem costs_getElem (j : Fin p.width) : (p.costs mode)[j] = p.columnCost mode j := by
  simp [costs, columnCost]

theorem prices_tableau : (p.tableau mode epsilon).Prices (p.columnCost mode) := by
  have prices := (p.unitBasis_bareTableau epsilon).prices_loadObjective (p.costs mode)
  simp only [costs_getElem] at prices
  exact prices

/-- The plain objective of column values is the gain of their decision part. -/
theorem sum_columnCost_plain (v : Fin p.width → ℚ) :
    ∑ j, p.columnCost .plain j * v j = p.gain (p.decisionPart v) := by
  rcases p.exists_tagValues v with ⟨w, rfl⟩
  have rows : ∀ row : Fin m, ((p.rowTags row).map fun tag => p.cost .plain tag * w tag).sum = 0 := by
    intro row
    unfold rowTags
    split <;> simp [cost]
  have decisions : ∑ k : Fin n, p.cost .plain (.decision k) * w (.decision k) =
      p.gain fun k => w (.decision k) := by
    simp only [cost, Direction.orient_eq_sign_mul, gain, Finset.mul_sum, mul_assoc]
  have values : p.decisionPart (fun j => w p.tags[j]) = fun k => w (.decision k) :=
    funext (p.decisionPart_tagValues w)
  refine (p.sum_tags fun tag => p.cost .plain tag * w tag).trans ?_
  rw [decisions, Finset.sum_eq_zero fun row _ => rows row, add_zero, values]

theorem columnCost_phaseOne (j : Fin p.width) :
    p.columnCost .phaseOne j = if p.tags[j].isArtificial then -1 else 0 := by
  unfold columnCost
  cases p.tags[j] <;> rfl

/-! ## Points and column values -/

/-- The column values at a point: the distances from the bounds, and nothing artificial. -/
def extension (y : Fin n → ℚ) : ColumnTag m n → ℚ
  | .decision k => y k
  | .slack row => p.rhs[row] - p.leftSide row y
  | .surplus row => p.leftSide row y - p.rhs[row]
  | .artificial _ => 0

/-- The column values at a point, column by column. -/
def lift (y : Fin n → ℚ) (j : Fin p.width) : ℚ :=
  p.extension y p.tags[j]

@[simp]
theorem decisionPart_lift (y : Fin n → ℚ) : p.decisionPart (p.lift y) = y :=
  funext (p.decisionPart_tagValues (p.extension y))

theorem noArtificial_lift (y : Fin n → ℚ) : p.NoArtificial (p.lift y) := by
  intro j artificial
  unfold lift
  cases tag : p.tags[j] with
  | artificial row => rfl
  | _ => simp [tag, ColumnTag.isArtificial] at artificial

/-- The distance of a point from the bound of a constraint.  An equation has no slack. -/
def distance (row : Fin m) (y : Fin n → ℚ) : ℚ :=
  if p.senses[row] = .eq then 0 else |p.rhs[row] - p.leftSide row y|

theorem distance_normalized (row : Fin m) (y : Fin n → ℚ) :
    p.normalized.distance row y = p.distance row y := by
  unfold distance
  rcases p.normalized_row row with ⟨side, rhs, sense⟩ | ⟨side, rhs, sense⟩
  · rw [side, rhs, sense]
  · have flipped : p.senses[row].flipped = .eq ↔ p.senses[row] = .eq := by
      cases p.senses[row] <;> simp [Sense.flipped]
    rw [side, rhs, sense, neg_sub_neg, abs_sub_comm]
    simp only [flipped]

/-- The column values at a feasible point add up to its entries and its
distances from the bounds. -/
theorem Admits.sum_lift {p : Problem ℚ m n} {y : Fin n → ℚ} (admits : p.Admits y) :
    ∑ j, p.lift y j = ∑ k, y k + ∑ row, p.distance row y := by
  have own : ∀ row : Fin m, ((p.rowTags row).map (p.extension y)).sum = p.distance row y := by
    intro row
    have holds := admits.holds row
    unfold rowTags distance
    cases sense : p.senses[row] with
    | le =>
      rw [sense] at holds
      have slack : 0 ≤ p.rhs[row] - p.leftSide row y := sub_nonneg.mpr holds
      rw [abs_of_nonneg slack]
      simp [extension]
    | ge =>
      rw [sense] at holds
      have surplus : 0 ≤ p.leftSide row y - p.rhs[row] := sub_nonneg.mpr holds
      rw [abs_sub_comm, abs_of_nonneg surplus]
      simp [extension]
    | eq => simp [extension]
  apply (p.sum_tags (p.extension y)).trans
  rw [Finset.sum_congr rfl fun row _ => own row]
  rfl

theorem mem_rowTags_of_row? {j : Fin p.width} {row : Fin m} (belongs : p.tags[j].row? = some row) :
    p.tags[j] ∈ p.rowTags row := by
  have listed : p.tags[j] ∈ p.tagList := List.getElem_mem j.isLt
  rcases List.mem_append.mp listed with decision | auxiliary
  · rcases List.mem_map.mp decision with ⟨k, _, same⟩
    rw [← same] at belongs
    exact nomatch belongs
  · rcases List.mem_flatMap.mp auxiliary with ⟨own, _, member⟩
    have same := (p.row?_of_mem_rowTags member).symm.trans belongs
    exact Option.some.inj same ▸ member

theorem exists_column_of_mem_rowTags {row : Fin m} {tag : ColumnTag m n}
    (member : tag ∈ p.rowTags row) : ∃ j : Fin p.width, p.tags[j] = tag := by
  have listed : tag ∈ p.tagList :=
    List.mem_append_right _ (List.mem_flatMap.mpr ⟨row, List.mem_finRange row, member⟩)
  rcases List.getElem_of_mem listed with ⟨place, bound, same⟩
  exact ⟨⟨place, bound⟩, same⟩

theorem Admits.equations_lift {p : Problem ℚ m n} {y : Fin n → ℚ} (admits : p.Admits y) :
    p.Equations (p.lift y) := by
  refine (p.equations_tagValues_iff (p.extension y)).mpr fun row => ?_
  have holds := admits.holds row
  change p.leftSide row y + p.auxiliary row (p.extension y) = p.rhs[row]
  unfold auxiliary
  cases sense : p.senses[row] with
  | le => simp [extension]
  | ge => simp [extension]
  | eq =>
    rw [sense] at holds
    have equal : p.leftSide row y = p.rhs[row] := holds
    simp [extension, equal]

theorem Admits.lift_nonneg {p : Problem ℚ m n} {y : Fin n → ℚ} (admits : p.Admits y)
    (j : Fin p.width) : 0 ≤ p.lift y j := by
  unfold lift
  cases tag : p.tags[j] with
  | decision k => exact admits.nonnegative k
  | slack row =>
    have member : p.tags[j] ∈ p.rowTags row := p.mem_rowTags_of_row? (by rw [tag]; rfl)
    have holds := admits.holds row
    unfold rowTags at member
    cases sense : p.senses[row] <;> simp [sense, tag] at member
    rw [sense] at holds
    exact sub_nonneg.mpr holds
  | surplus row =>
    have member : p.tags[j] ∈ p.rowTags row := p.mem_rowTags_of_row? (by rw [tag]; rfl)
    have holds := admits.holds row
    unfold rowTags at member
    cases sense : p.senses[row] <;> simp [sense, tag] at member
    rw [sense] at holds
    exact sub_nonneg.mpr holds
  | artificial row => exact le_refl 0

/-- Nonnegative column values miss no constraint by more than their artificial part. -/
theorem excess_decisionPart_le {v : Fin p.width → ℚ} (equations : p.Equations v)
    (nonnegative : ∀ j, 0 ≤ v j) {tolerance : ℚ} (allowed : 0 ≤ tolerance)
    (small : ∀ j : Fin p.width, p.tags[j].isArtificial = true → v j ≤ tolerance) (row : Fin m) :
    p.senses[row].excess (p.leftSide row (p.decisionPart v)) p.rhs[row] ≤ tolerance := by
  rcases p.exists_tagValues v with ⟨w, rfl⟩
  have values : p.decisionPart (fun j => w p.tags[j]) = fun k => w (.decision k) :=
    funext (p.decisionPart_tagValues w)
  have equation := (p.equations_tagValues_iff w).mp equations row
  have present : ∀ tag ∈ p.rowTags row, 0 ≤ w tag ∧ (tag.isArtificial = true → w tag ≤ tolerance) := by
    intro tag member
    rcases p.exists_column_of_mem_rowTags member with ⟨j, rfl⟩
    exact ⟨nonnegative j, small j⟩
  rw [values]
  unfold auxiliary at equation
  unfold rowTags at present
  cases sense : p.senses[row] with
  | le =>
    simp only [sense] at equation present
    have slack := (present (.slack row) List.mem_cons_self).1
    change p.leftSide row (fun k => w (.decision k)) - p.rhs[row] ≤ tolerance
    linarith
  | ge =>
    simp only [sense] at equation present
    have surplus := (present (.surplus row) List.mem_cons_self).1
    have artificial := (present (.artificial row) (List.mem_cons_of_mem _ List.mem_cons_self)).2 rfl
    change p.rhs[row] - p.leftSide row (fun k => w (.decision k)) ≤ tolerance
    linarith
  | eq =>
    simp only [sense] at equation present
    have artificial := present (.artificial row) List.mem_cons_self
    change Scalar.abs (p.leftSide row (fun k => w (.decision k)) - p.rhs[row]) ≤ tolerance
    rw [Scalar.abs_rat, abs_le]
    constructor <;> linarith [artificial.1, artificial.2 rfl]

/-- Nonnegative column values without artificial part give a feasible point. -/
theorem admits_decisionPart {v : Fin p.width → ℚ} (equations : p.Equations v)
    (nonnegative : ∀ j, 0 ≤ v j) (noArtificial : p.NoArtificial v) :
    p.Admits (p.decisionPart v) := by
  refine ⟨fun k => nonnegative (p.decisionColumn k), fun row => ?_⟩
  rw [Sense.holds_iff_excess]
  exact p.excess_decisionPart_le equations nonnegative (le_refl 0)
    (fun j artificial => (noArtificial j artificial).le) row

end Problem
end LinearProgram
