import LinearProgram.Proofs.Model.Lowering

namespace LinearProgram

/-!
# Rows that are filled cell by cell

The row of a form is found by looking up, for each column, the coefficient of
the variable that the column holds.  It can also be filled the other way round,
by going through the terms and writing each coefficient into the columns of its
variable.  No column belongs to two variables, so what one term writes stays,
and columns that no term writes keep their zero.  A term about an undeclared
variable ends the pass, and what was written before does not matter.
-/

variable {K : Type} [Scalar K]

/-- The row after a coefficient has been written into the columns of its variable. -/
def Recovery.write (recovery : Recovery) (coefficient : K) (row : List K) : List K :=
  match recovery with
  | direct column => row.set column coefficient
  | negated column => row.set column (-coefficient)
  | difference positive negative => (row.set positive coefficient).set negative (-coefficient)

/-- The row after the coefficients of all terms have been written, in the order
of the list. -/
def scatter (recoveries : List Recovery) : List (Nat × K) → List K → Except (Error K) (List K)
  | [], row => .ok row
  | (index, coefficient) :: rest, row =>
    match recoveries[index]? with
    | some recovery => scatter recoveries rest (recovery.write coefficient row)
    | none => .error (.unknownVariable index)

/-! ## One term -/

namespace Split

theorem length_recoveriesFrom (start : Nat) (sources : List Split) :
    (recoveriesFrom start sources).length = sources.length := by
  induction sources generalizing start with
  | nil => rfl
  | cons split rest ih => rw [recoveriesFrom, List.length_cons, List.length_cons, ih]

theorem recoveriesFrom_append (start : Nat) (earlier later : List Split) :
    recoveriesFrom start (earlier ++ later) =
      recoveriesFrom start earlier ++
        recoveriesFrom (start + (earlier.map width).sum) later := by
  induction earlier generalizing start with
  | nil => simp [recoveriesFrom]
  | cons split rest ih =>
    rw [List.cons_append, recoveriesFrom, recoveriesFrom, ih, List.cons_append, List.map_cons,
      List.sum_cons, Nat.add_assoc]

/-- Writing changes the columns of the quantity that start after the given
cells, and no others. -/
theorem write_recovery {k : Nat} (split : Split) (source : Fin k) (coefficient : K)
    (value : SplitColumn k → K) (before later : List K) :
    (split.recovery before.length).write coefficient
        (before ++ ((split.columns source).map value ++ later)) =
      before ++ ((split.columns source).map (fun column => signed column.negated coefficient) ++
        later) := by
  cases split with
  | direct => simp [recovery, Recovery.write, columns, signed]
  | negated => simp [recovery, Recovery.write, columns, signed]
  | difference => simp [recovery, Recovery.write, columns, signed]

section Layout

variable {k : Nat} (splits : Vector Split k)

/-- The recovery of a quantity starts behind the columns of the earlier ones. -/
theorem getElem?_recoveries {earlier later : List (Fin k)} {source : Fin k}
    (parts : List.finRange k = earlier ++ source :: later) :
    (recoveries splits)[earlier.length]? = some (splits[source].recovery
      (earlier.flatMap fun other => splits[other].columns other).length) := by
  have length : earlier.length =
      (recoveriesFrom 0 (earlier.map fun other => splits[other])).length := by
    rw [length_recoveriesFrom, List.length_map]
  rw [recoveries, toList_eq_map_finRange, parts, List.map_append, List.map_cons,
    recoveriesFrom_append, recoveriesFrom, length, List.getElem?_append_right (Nat.le_refl _),
    Nat.sub_self, List.getElem?_cons_zero, length_flatMap_columns, Nat.zero_add]

/-- Columns of other quantities belong to other quantities. -/
theorem source_ne_of_mem_flatMap {sources : List (Fin k)} {source : Fin k}
    (outside : source ∉ sources) {column : SplitColumn k}
    (member : column ∈ sources.flatMap fun other => splits[other].columns other) :
    column.source ≠ source := by
  rcases List.mem_flatMap.mp member with ⟨other, listed, own⟩
  rw [source_of_mem_columns own]
  exact fun same => outside (same ▸ listed)

/-- A quantity has a recovery, and writing through it changes the columns of
the quantity and no others. -/
theorem exists_write (source : Fin k) : ∃ recovery,
    (recoveries splits)[source.val]? = some recovery ∧
      ∀ (coefficient : K) (value : SplitColumn k → K),
        recovery.write coefficient ((layout splits).map value) =
          (layout splits).map fun column =>
            if column.source = source then signed column.negated coefficient else value column := by
  obtain ⟨earlier, later, parts⟩ := List.append_of_mem (List.mem_finRange source)
  have place : earlier.length = source.val := by
    have bound : earlier.length < (List.finRange k).length := by simp [parts]
    have found : (List.finRange k)[earlier.length] = source := by simp [parts]
    rw [List.getElem_finRange] at found
    exact congrArg Fin.val found
  have distinct : (earlier ++ source :: later).Nodup := parts ▸ List.nodup_finRange k
  have before : source ∉ earlier := fun member =>
    (List.nodup_append.mp distinct).2.2 source member source List.mem_cons_self rfl
  have after : source ∉ later :=
    (List.nodup_cons.mp (List.nodup_append.mp distinct).2.1).1
  refine ⟨_, place ▸ getElem?_recoveries splits parts, fun coefficient value => ?_⟩
  have written := write_recovery splits[source] source coefficient value
    ((earlier.flatMap fun other => splits[other].columns other).map value)
    ((later.flatMap fun other => splits[other].columns other).map value)
  rw [List.length_map] at written
  rw [layout, parts, List.flatMap_append, List.flatMap_cons]
  simp only [List.map_append]
  rw [written]
  refine congrArg₂ (· ++ ·) ?_ (congrArg₂ (· ++ ·) ?_ ?_)
  · exact List.map_congr_left fun column member =>
      (if_neg (source_ne_of_mem_flatMap splits before member)).symm
  · exact List.map_congr_left fun column member =>
      (if_pos (source_of_mem_columns member)).symm
  · exact List.map_congr_left fun column member =>
      (if_neg (source_ne_of_mem_flatMap splits after member)).symm

theorem length_recoveries : (recoveries splits).length = k := by
  rw [recoveries, length_recoveriesFrom, Vector.length_toList]

end Layout

end Split

/-! ## All terms -/

section Terms

variable {k : Nat}

/-- The column values after the terms of a form have been written over the given ones. -/
def LinearForm.overwrite (form : LinearForm K) (value : SplitColumn k → K) (column : SplitColumn k) :
    K :=
  match form.coefficient? column.source with
  | some coefficient => signed column.negated coefficient
  | none => value column

/-- A first term can be written before the others, as none of them is about its variable. -/
theorem LinearForm.overwrite_cons (source : Fin k) {rest : List (Nat × K)}
    (once : source.val ∉ rest.map Prod.fst) (coefficient : K) (value : SplitColumn k → K) :
    overwrite ⟨(source.val, coefficient) :: rest⟩ value = overwrite ⟨rest⟩ fun column =>
      if column.source = source then signed column.negated coefficient else value column := by
  funext column
  unfold overwrite
  rw [coefficient?_cons]
  by_cases own : column.source = source
  · have absent : coefficient? ⟨rest⟩ source.val = none :=
      (coefficient?_eq_none_iff ⟨rest⟩ source.val).mpr once
    simp only [own, absent, if_true]
  · have other : ¬ source.val = column.source.val := fun same => own (Fin.ext same.symm)
    simp only [own, other, if_false]

/-- Terms that are about different variables are all written, unless one of
them is about an undeclared variable, of which the first is reported. -/
theorem scatter_eq (splits : Vector Split k) {terms : List (Nat × K)}
    (distinct : (terms.map Prod.fst).Nodup) (value : SplitColumn k → K) :
    scatter (Split.recoveries splits) terms ((Split.layout splits).map value) =
      match LinearForm.undeclared? ⟨terms⟩ k with
      | some index => .error (.unknownVariable index)
      | none => .ok ((Split.layout splits).map (LinearForm.overwrite ⟨terms⟩ value)) := by
  induction terms generalizing value with
  | nil => rfl
  | cons first rest ih =>
    obtain ⟨index, coefficient⟩ := first
    rw [List.map_cons, List.nodup_cons] at distinct
    rcases lt_or_ge index k with declared | undeclared
    · obtain ⟨recovery, found, written⟩ := Split.exists_write (K := K) splits ⟨index, declared⟩
      have later : LinearForm.undeclared? ⟨(index, coefficient) :: rest⟩ k =
          LinearForm.undeclared? ⟨rest⟩ k := by
        simp [LinearForm.undeclared?, declared]
      rw [scatter, later, LinearForm.overwrite_cons ⟨index, declared⟩ distinct.1,
        ← ih distinct.2, ← written, found]
    · have missing : (Split.recoveries splits)[index]? = none :=
        List.getElem?_eq_none ((Split.length_recoveries splits).trans_le undeclared)
      have stray : LinearForm.undeclared? ⟨(index, coefficient) :: rest⟩ k = some index := by
        simp [LinearForm.undeclared?, undeclared]
      rw [scatter, stray, missing]

end Terms

namespace Model

variable (model : Model K)

/-- The coefficients of a form, written term by term into a row of zeros. -/
def scatterForm (form : LinearForm K) : Except (Error K) (List K) :=
  scatter (Split.recoveries model.splits) form.terms (List.replicate model.columns.length 0)

/-- Writing the terms of a form in their order gives the row of the form. -/
theorem scatterForm_eq_lowerForm {form : LinearForm K} (distinct : form.Distinct) :
    model.scatterForm form = model.lowerForm form := by
  rw [scatterForm, ← List.map_const', columns, scatter_eq model.splits distinct]
  rfl

end Model
end LinearProgram
