import LinearProgram.Proofs.Rational
import LinearProgram.Split

namespace LinearProgram

/-!
# Quantities and the columns that hold them

Nonnegative column values hold quantities with the signs that their splits
allow, and all quantities with these signs are held by some nonnegative column
values.  Reading the quantities off from the columns succeeds as soon as all
columns are there.
-/

theorem signed_mul (negated : Bool) (left right : ℚ) :
    signed negated left * right = left * signed negated right := by
  cases negated
  · rfl
  · exact neg_mul_comm left right

theorem mul_signed (negated : Bool) (left right : ℚ) :
    left * signed negated right = signed negated (left * right) := by
  cases negated
  · rfl
  · exact mul_neg left right

@[simp]
theorem signed_signed (negated : Bool) (value : ℚ) :
    signed negated (signed negated value) = value := by
  cases negated
  · rfl
  · exact neg_neg value

theorem sum_signed {k : Nat} (negated : Bool) (f : Fin k → ℚ) :
    ∑ j, signed negated (f j) = signed negated (∑ j, f j) := by
  cases negated
  · rfl
  · exact Finset.sum_neg_distrib f

/-- A number with its sign taken off is not negative. -/
theorem signed_self_nonneg (value : ℚ) : 0 ≤ signed (value < 0) value := by
  rcases lt_or_ge value 0 with negative | nonnegative
  · simpa [signed, negative] using negative.le
  · simpa [signed, nonnegative.not_gt] using nonnegative

/-- The columns that a recovery reads. -/
def Recovery.columns : Recovery → List Nat
  | .direct column => [column]
  | .negated column => [column]
  | .difference positive negative => [positive, negative]

namespace Split

variable {k : Nat} (splits : Vector Split k)

/-- The signs that a quantity can have. -/
def Allows : Split → ℚ → Prop
  | direct, value => 0 ≤ value
  | negated, value => value ≤ 0
  | difference, _ => True

def column (j : Fin (layout splits).length) : SplitColumn k :=
  (layout splits)[j]

/-- The quantities that column values hold. -/
def quantities (u : Fin (layout splits).length → ℚ) (source : Fin k) : ℚ :=
  ∑ j, if (column splits j).source = source then signed (column splits j).negated (u j) else 0

/-- What the columns of one quantity hold. -/
def held (split : Split) (source : Fin k) (value : SplitColumn k → ℚ) : ℚ :=
  ((split.columns source).map fun column => signed column.negated (value column)).sum

/-- Nonnegative column values that hold given quantities. -/
def columnValues (y : Fin k → ℚ) (j : Fin (layout splits).length) : ℚ :=
  max 0 (signed (column splits j).negated (y (column splits j).source))

theorem source_of_mem_columns {split : Split} {source : Fin k} {column : SplitColumn k}
    (member : column ∈ split.columns source) : column.source = source := by
  cases split with
  | direct => rw [List.mem_singleton.mp member]
  | negated => rw [List.mem_singleton.mp member]
  | difference => rcases List.mem_pair.mp member with same | same <;> rw [same]

theorem column_mem (j : Fin (layout splits).length) :
    column splits j ∈ splits[(column splits j).source].columns (column splits j).source := by
  have listed : column splits j ∈ layout splits := List.getElem_mem j.isLt
  rcases List.mem_flatMap.mp listed with ⟨source, _, member⟩
  have own : (column splits j).source = source := source_of_mem_columns member
  subst own
  exact member

theorem sum_column (f : SplitColumn k → ℚ) :
    ∑ j, f (column splits j) = ∑ source : Fin k, ((splits[source].columns source).map f).sum := by
  refine (Fin.sum_univ_fun_getElem (layout splits) f).trans ?_
  rw [layout, sum_flatMap_finRange]

/-- What holds of the columns of every quantity holds of all columns. -/
theorem forall_column_iff (P : SplitColumn k → Prop) :
    (∀ j, P (column splits j)) ↔
      ∀ source : Fin k, ∀ column ∈ splits[source].columns source, P column := by
  constructor
  · intro every source own member
    have listed : own ∈ layout splits :=
      List.mem_flatMap.mpr ⟨source, List.mem_finRange source, member⟩
    rcases List.getElem_of_mem listed with ⟨place, bound, rfl⟩
    exact every ⟨place, bound⟩
  · intro every j
    exact every _ _ (column_mem splits j)

/-- A sum of signed column values is a sum of quantities. -/
theorem sum_mul_signed (f : Fin k → ℚ) (u : Fin (layout splits).length → ℚ) :
    ∑ j, f (column splits j).source * signed (column splits j).negated (u j) =
      ∑ source, f source * quantities splits u source := by
  simp only [quantities, Finset.mul_sum, mul_ite, mul_zero]
  rw [Finset.sum_comm]
  exact Finset.sum_congr rfl fun j _ => (Fintype.sum_ite_eq (column splits j).source
    fun source => f source * signed (column splits j).negated (u j)).symm

theorem allows_quantities {u : Fin (layout splits).length → ℚ} (nonnegative : ∀ j, 0 ≤ u j)
    (source : Fin k) : splits[source].Allows (quantities splits u source) := by
  have own : ∀ j, (column splits j).source = source →
      column splits j ∈ splits[source].columns source := fun j same => same ▸ column_mem splits j
  cases split : splits[source] with
  | direct =>
    refine Finset.sum_nonneg fun j _ => ?_
    split
    · next same =>
      have member := own j same
      rw [split, columns, List.mem_singleton] at member
      rw [member]
      exact nonnegative j
    · exact le_refl 0
  | negated =>
    refine Finset.sum_nonpos fun j _ => ?_
    split
    · next same =>
      have member := own j same
      rw [split, columns, List.mem_singleton] at member
      rw [member]
      exact neg_nonpos.mpr (nonnegative j)
    · exact le_refl 0
  | difference => exact trivial

theorem columnValues_nonneg (y : Fin k → ℚ) (j : Fin (layout splits).length) :
    0 ≤ columnValues splits y j :=
  le_max_left 0 _

/-- A quantity is held by its own columns and no others. -/
theorem quantities_column (value : SplitColumn k → ℚ) (source : Fin k) :
    quantities splits (fun j => value (column splits j)) source =
      splits[source].held source value := by
  let part (column : SplitColumn k) : ℚ :=
    if column.source = source then signed column.negated (value column) else 0
  have foreign : ∀ other, other ≠ source → ((splits[other].columns other).map part).sum = 0 := by
    intro other different
    cases splits[other] <;> simp [columns, part, different]
  apply (sum_column splits part).trans
  rw [Fintype.sum_eq_single source foreign]
  refine congrArg List.sum (List.map_congr_left fun column member => ?_)
  exact if_pos (source_of_mem_columns member)

/-- Allowed quantities are held by their column values. -/
theorem quantities_columnValues {y : Fin k → ℚ}
    (allowed : ∀ source : Fin k, splits[source].Allows (y source)) :
    quantities splits (columnValues splits y) = y := by
  funext source
  have permitted := allowed source
  refine (quantities_column splits
    (fun column => max 0 (signed column.negated (y column.source))) source).trans ?_
  cases split : splits[source] with
  | direct =>
    rw [split] at permitted
    have above : 0 ≤ y source := permitted
    simp [held, columns, signed, above]
  | negated =>
    rw [split] at permitted
    have below : y source ≤ 0 := permitted
    simp [held, columns, signed, below]
  | difference =>
    simp only [held, columns, signed, List.map_cons, List.map_nil, List.sum_cons, List.sum_nil,
      if_true, Bool.false_eq_true, if_false]
    rcases le_total 0 (y source) with above | below
    · rw [max_eq_right above, max_eq_left (neg_nonpos.mpr above)]
      ring
    · rw [max_eq_left below, max_eq_right (neg_nonneg.mpr below)]
      ring

/-- Numbers given to the columns, in their order. -/
theorem ofFn_column {α : Type} (value : SplitColumn k → α) :
    List.ofFn (fun j => value (column splits j)) = (layout splits).map value := by
  apply List.ext_getElem <;> simp [column]

/-! ## Recovery -/

theorem length_columns (split : Split) (source : Fin k) :
    (split.columns source).length = split.width := by
  cases split <;> rfl

theorem length_flatMap_columns (sources : List (Fin k)) :
    (sources.flatMap fun source => splits[source].columns source).length =
      ((sources.map fun source => splits[source]).map width).sum := by
  rw [List.length_flatMap, List.map_map]
  exact congrArg List.sum (List.map_congr_left fun source _ => length_columns splits[source] source)

theorem length_layout :
    (layout splits).length = (splits.toList.map Split.width).sum := by
  rw [layout, length_flatMap_columns, toList_eq_map_finRange]

/-- Every quantity has a column. -/
theorem length_layout_pos (present : 0 < k) : 0 < (layout splits).length := by
  have member : (⟨0, present⟩ : Fin k) ∈ List.finRange k := List.mem_finRange _
  refine List.length_pos_of_ne_nil fun empty => ?_
  have none := List.flatMap_eq_nil_iff.mp empty _ member
  cases split : splits[(⟨0, present⟩ : Fin k)] <;> simp [split, columns] at none

theorem layout_nodup : (layout splits).Nodup := by
  refine List.nodup_flatMap.mpr ⟨fun source _ => ?_, (List.nodup_finRange k).imp ?_⟩
  · cases splits[source] <;> simp [columns]
  · intro source other different column own foreign
    exact different ((source_of_mem_columns own).symm.trans (source_of_mem_columns foreign))

theorem column_injective : Function.Injective (column splits) :=
  List.nodup_iff_injective_get.mp (layout_nodup splits)

/-- What one recovery finds where the columns of its quantity start. -/
theorem value?_recovery (split : Split) (source : Fin k) (value : SplitColumn k → ℚ)
    (before later : List ℚ) :
    (split.recovery before.length).value?
        (before ++ ((split.columns source).map value ++ later)) =
      some (split.held source value) := by
  cases split with
  | direct => simp [recovery, Recovery.value?, held, columns, signed]
  | negated => simp [recovery, Recovery.value?, held, columns, signed]
  | difference => simp [recovery, Recovery.value?, held, columns, signed, sub_eq_add_neg]

/-- Recoveries whose columns follow each other find the quantities in order. -/
theorem recover?_recoveriesFrom (value : SplitColumn k → ℚ) (before : List ℚ)
    (sources : List (Fin k)) :
    recover? (recoveriesFrom before.length (sources.map fun source => splits[source]))
        (before ++ (sources.flatMap fun source => splits[source].columns source).map value) =
      some (sources.map fun source => splits[source].held source value) := by
  induction sources generalizing before with
  | nil => rfl
  | cons source rest ih =>
    have later := ih (before ++ (splits[source].columns source).map value)
    rw [List.length_append, List.length_map, length_columns, List.append_assoc] at later
    have own := value?_recovery splits[source] source value before
      ((rest.flatMap fun other => splits[other].columns other).map value)
    unfold recover? at later ⊢
    rw [List.flatMap_cons, List.map_append, List.map_cons, recoveriesFrom, List.mapM_cons, own,
      later]
    rfl

/-- The quantities that columns hold are the ones that are recovered from them. -/
theorem recover?_ofFn (u : Fin (layout splits).length → ℚ) :
    recover? (recoveries splits) (List.ofFn u) = some (List.ofFn (quantities splits u)) := by
  -- No column stands twice in the layout, so a value for each place is a value for each column.
  obtain ⟨value, rfl⟩ : ∃ value : SplitColumn k → ℚ, u = fun j => value (column splits j) :=
    ⟨Function.extend (column splits) u 0,
      funext fun j => ((column_injective splits).extend_apply u 0 j).symm⟩
  have quantity := funext (quantities_column splits value)
  rw [recoveries, toList_eq_map_finRange, ofFn_column, quantity, List.ofFn_eq_map]
  exact recover?_recoveriesFrom splits value [] (List.finRange k)

/-- Recoveries read the columns one after the other, each once. -/
theorem flatMap_columns_recoveriesFrom (start : Nat) (sources : List Split) :
    (recoveriesFrom start sources).flatMap Recovery.columns =
      List.range' start (sources.map Split.width).sum := by
  induction sources generalizing start with
  | nil => rfl
  | cons split rest ih =>
    have own : (split.recovery start).columns = List.range' start split.width := by
      cases split <;> rfl
    rw [recoveriesFrom, List.flatMap_cons, ih, own, List.map_cons, List.sum_cons,
      List.range'_append_1]

theorem flatMap_columns_recoveries :
    (recoveries splits).flatMap Recovery.columns = List.range (layout splits).length := by
  rw [recoveries, flatMap_columns_recoveriesFrom, length_layout, List.range_eq_range']

/-! ## Quantities of one sign -/

/-- The split of a quantity of one sign. -/
def ofSign (negated : Bool) : Split :=
  if negated then .negated else .direct

/-- The only column of a quantity of one sign. -/
def signColumn (negated : Bool) (source : Fin k) : SplitColumn k :=
  ⟨source, negated, if negated then "-" else ""⟩

theorem columns_ofSign (negated : Bool) (source : Fin k) :
    (ofSign negated).columns source = [signColumn negated source] := by
  cases negated <;> rfl

/-- Columns that each hold a quantity of their own are read off at the places of the quantities. -/
theorem recoveriesFrom_eq_mapIdx (start : Nat) (sources : List Split)
    (single : ∀ split ∈ sources, split.width = 1) :
    recoveriesFrom start sources = sources.mapIdx fun place split => split.recovery (start + place) := by
  induction sources generalizing start with
  | nil => rfl
  | cons split rest ih =>
    have later := ih (start + 1) fun other member => single other (List.mem_cons_of_mem split member)
    rw [recoveriesFrom, single split List.mem_cons_self, later, List.mapIdx_cons]
    simp only [Nat.add_zero, Nat.add_assoc, Nat.add_comm 1]

section OneSign

variable {splits} {sign : Fin k → Bool}
  (signs : ∀ source : Fin k, splits[source] = ofSign (sign source))
include signs

theorem layout_of_signs :
    layout splits = (List.finRange k).map fun source => signColumn (sign source) source := by
  rw [layout, List.map_eq_flatMap]
  refine List.flatMap_congr fun source _ => ?_
  rw [signs, columns_ofSign]

theorem length_layout_of_signs : (layout splits).length = k := by
  rw [layout_of_signs signs, List.length_map, List.length_finRange]

theorem column_of_signs (source : Fin k) :
    column splits (source.cast (length_layout_of_signs signs).symm) =
      signColumn (sign source) source := by
  simp [column, layout_of_signs signs]

theorem quantities_of_signs (u : Fin (layout splits).length → ℚ) (source : Fin k) :
    quantities splits u source =
      signed (sign source) (u (source.cast (length_layout_of_signs signs).symm)) := by
  have length := length_layout_of_signs signs
  rw [quantities, ← Equiv.sum_comp (finCongr length.symm)]
  simp only [finCongr_apply, column_of_signs signs, signColumn]
  exact Fintype.sum_ite_eq' source fun other => signed (sign other) (u (other.cast length.symm))

theorem recoveries_of_signs : recoveries splits =
    List.ofFn fun source : Fin k => (ofSign (sign source)).recovery source := by
  have single : ∀ split ∈ splits.toList, split.width = 1 := by
    intro split member
    rcases List.getElem_of_mem member with ⟨place, bound, rfl⟩
    have small : place < k := by simpa using bound
    have own : splits.toList[place] = ofSign (sign ⟨place, small⟩) := by
      simpa using signs ⟨place, small⟩
    rw [own]
    cases sign ⟨place, small⟩ <;> rfl
  rw [recoveries, recoveriesFrom_eq_mapIdx 0 splits.toList single]
  apply List.ext_getElem
  · simp
  · intro place small bound
    have own := signs ⟨place, by simpa using bound⟩
    simp only [getElem_fin] at own
    simp [own]

end OneSign

end Split
end LinearProgram
