import LinearProgram.Proofs.SingleRun
import LinearProgram.Proofs.TwoPhase.Stages

namespace LinearProgram

/-!
# Columns by name

A report lists the value of every column under the name of the column, and a
lookup returns the value of the first column with the name.  Variables are
named freely, while the columns that the constraints add are named by a letter
and the number of their row.  Names of the second kind never repeat each other.
Nothing keeps the names of the variables away from them, so a variable can take
the name of an added column.  The decision columns come first, and therefore
such a name is the variable's: the value of the added column is then listed,
but no name leads to it.
-/

/-! ## Labels -/

/-- Letters with a number after them are told apart by the letter and by the number. -/
theorem append_toString_inj {letter other : String}
    (lengths : letter.toList.length = other.toList.length) {i j : Nat}
    (same : letter ++ toString i = other ++ toString j) : letter = other ∧ i = j := by
  have lists := congrArg String.toList same
  rw [String.toList_append, String.toList_append] at lists
  rcases List.append_inj lists lengths with ⟨first, second⟩
  exact ⟨String.toList_inj.mp first, Nat.repr_injective (String.toList_inj.mp second)⟩

namespace ColumnTag

variable {m n : Nat}

/-- The letter of a kind of columns. -/
def letter : ColumnTag m n → String
  | decision _ => "x"
  | slack _ => "s"
  | surplus _ => "e"
  | artificial _ => "a"

/-- The place of a column among the variables, or that of its row among the rows. -/
def place : ColumnTag m n → Nat
  | decision k => k
  | slack row => row
  | surplus row => row
  | artificial row => row

/-- The name of a column where no variable has been given one. -/
def label (tag : ColumnTag m n) : String :=
  tag.letter ++ toString (tag.place + 1)

theorem length_letter (tag : ColumnTag m n) : tag.letter.toList.length = 1 := by
  cases tag <;> simp [letter]

theorem label_injective : Function.Injective (label : ColumnTag m n → String) := by
  intro tag other same
  rcases append_toString_inj (tag.length_letter.trans other.length_letter.symm) same with
    ⟨letters, places⟩
  have places : tag.place = other.place := Nat.succ.inj places
  cases tag <;> cases other <;> simp_all [letter, place, Fin.ext_iff]

/-- A column that a constraint adds has its label for a name, whatever the variables are called. -/
theorem name_of_row? {names : Vector String n} {tag : ColumnTag m n} {row : Fin m}
    (added : tag.row? = some row) : tag.name names = tag.label := by
  cases tag with
  | decision k => exact nomatch added
  | slack own => rfl
  | surplus own => rfl
  | artificial own => rfl

end ColumnTag

/-! ## The names of the columns -/

namespace Problem

variable {K : Type} {m n : Nat} (p : Problem K m n)

/-- The columns that the constraints add, in order. -/
def addedTags : List (ColumnTag m n) :=
  (List.finRange m).flatMap p.rowTags

/-- The names of the columns that the constraints add. -/
def addedNames : List String :=
  p.addedTags.map ColumnTag.label

/-- The variables have the names that they get when none are given. -/
def DefaultNames : Prop :=
  p.names = Vector.ofFn fun k => defaultName k

/-- No variable has the name of a column that a constraint adds. -/
def NamesApart : Prop :=
  ∀ name ∈ p.names.toList, name ∉ p.addedNames

instance : Decidable p.DefaultNames :=
  inferInstanceAs (Decidable (p.names = Vector.ofFn fun k => defaultName k))

instance : Decidable p.NamesApart :=
  inferInstanceAs (Decidable (∀ name ∈ p.names.toList, name ∉ p.addedNames))

theorem nodup_addedNames : p.addedNames.Nodup :=
  (List.Nodup.of_append_right p.tagList_nodup).map ColumnTag.label_injective

/-- The variables come first under their own names. -/
theorem toList_columnNames_eq_append : p.columnNames.toList = p.names.toList ++ p.addedNames := by
  have decisions : ((List.finRange n).map ColumnTag.decision).map
      (ColumnTag.name (m := m) p.names) = p.names.toList := by
    rw [List.map_map, toList_eq_map_finRange]
    rfl
  have added : p.addedTags.map (ColumnTag.name p.names) = p.addedNames := by
    refine List.map_congr_left fun tag member => ?_
    rcases List.mem_flatMap.mp member with ⟨row, _, own⟩
    exact ColumnTag.name_of_row? (p.row?_of_mem_rowTags own)
  rw [toList_columnNames, tagList, List.map_append, decisions]
  exact congrArg (p.names.toList ++ ·) added

/-- Columns share a name only where variables do, or where a variable has the name
of an added column. -/
theorem nodup_columnNames_iff :
    p.columnNames.toList.Nodup ↔ p.names.toList.Nodup ∧ p.NamesApart := by
  rw [toList_columnNames_eq_append, List.nodup_append']
  exact ⟨fun ⟨distinct, _, apart⟩ => ⟨distinct, fun _ own foreign => apart own foreign⟩,
    fun ⟨distinct, apart⟩ => ⟨distinct, p.nodup_addedNames, apart⟩⟩

variable {p}

theorem DefaultNames.nodup_columnNames (unnamed : p.DefaultNames) : p.columnNames.toList.Nodup := by
  have labels : p.columnNames.toList = p.tagList.map ColumnTag.label := by
    rw [toList_columnNames]
    refine List.map_congr_left fun tag _ => ?_
    cases tag with
    | decision k =>
      rw [ColumnTag.name, unnamed, getElem_fin, Vector.getElem_ofFn]
      rfl
    | slack row => rfl
    | surplus row => rfl
    | artificial row => rfl
  rw [labels]
  exact p.tagList_nodup.map ColumnTag.label_injective

/-- The first column with the name of a variable is the variable, and a name that
no variable has belongs to one column only. -/
theorem idxOf_columnNames (distinct : p.names.toList.Nodup) (j : Fin p.width)
    (own : j.val < n ∨ p.columnNames[j] ∉ p.names.toList) :
    p.columnNames.toList.idxOf p.columnNames[j] = j := by
  have length : p.names.toList.length = n := Vector.length_toList
  have bound : j.val < (p.names.toList ++ p.addedNames).length := by
    rw [← toList_columnNames_eq_append, Vector.length_toList]
    exact j.isLt
  have here : p.columnNames[j] = (p.names.toList ++ p.addedNames)[j.val] := by
    simp only [← toList_columnNames_eq_append]
    exact (Vector.getElem_toList _).symm
  rw [toList_columnNames_eq_append]
  by_cases early : j.val < n
  · have first : j.val < p.names.toList.length := length.symm ▸ early
    rw [here, List.getElem_append_left first,
      List.idxOf_append_of_mem (List.getElem_mem first), distinct.idxOf_getElem]
  · -- Since no variable has the name, its first place is among the added names.
    have later : p.names.toList.length ≤ j.val := by omega
    have foreign := own.resolve_left early
    rw [List.idxOf_append_of_notMem foreign, here, List.getElem_append_right later,
      p.nodup_addedNames.idxOf_getElem]
    omega

end Problem

/-! ## Lookups -/

namespace Solution

variable {K : Type} {solution : Solution K}

/-- A lookup returns the value at the first place of the name. -/
theorem value?_eq {names : List String} {values : List K}
    (listed : solution.values = names.zip values) (lengths : names.length = values.length)
    (name : String) : solution.value? name = values[names.idxOf name]? := by
  unfold value?
  rw [listed]
  clear listed
  induction names generalizing values with
  | nil =>
    cases values with
    | nil => rfl
    | cons value rest => exact nomatch lengths
  | cons first others ih =>
    cases values with
    | nil => exact nomatch lengths
    | cons value rest =>
      by_cases same : first = name
      · simp [same]
      · simpa [List.idxOf_cons, same] using ih (Nat.succ.inj lengths)

variable [Scalar K] {m n : Nat}

/-- The report of an optimum shows a tableau and lists the value of each of its
columns, and these are the values that can be looked up by name.  The name of a
variable always leads to it.  The name of an added column leads there unless a
variable has it, which never happens to default names. -/
structure FindsColumns (solution : Solution K) (p : Problem K m n) (T : Tableau K m p.width) :
    Prop where
  shows : solution.Shows p T
  columnNames : solution.columnNames = p.columnNames.toList
  values : solution.values = solution.columnNames.zip (List.ofFn T.columnValue)
  distinct : solution.columnNames.Nodup ↔ p.NamesApart
  apart : p.DefaultNames → p.NamesApart
  every : p.NamesApart → ∀ j : Fin p.width,
    solution.value? p.columnNames[j] = some (T.columnValue j)
  decision : ∀ j : Fin p.width, j.val < n →
    solution.value? p.columnNames[j] = some (T.columnValue j)
  added : ∀ j : Fin p.width, p.columnNames[j] ∉ p.names.toList →
    solution.value? p.columnNames[j] = some (T.columnValue j)

section OfTableau

variable {p : Problem K m n} {T : Tableau K m p.width} {steps : List (Step K m p.width)}
  {phases : Option PhaseCounts}
  (reported : ofTableau p T .optimal steps phases = .ok solution)
include reported

theorem columnNames_of_ofTableau : solution.columnNames = p.columnNames.toList := by
  rcases ofTableau_eq_ok_iff.mp reported with ⟨columns, _, rfl⟩
  rfl

theorem values_of_ofTableau :
    solution.values = p.columnNames.toList.zip (List.ofFn T.columnValue) := by
  rcases ofTableau_eq_ok_iff.mp reported with ⟨columns, _, rfl⟩
  unfold onBasis
  dsimp only
  rw [if_pos rfl, List.ofFn_eq_map]

/-- A name leads to a column that is the first with the name. -/
theorem value?_of_ofTableau {j : Fin p.width}
    (first : p.columnNames.toList.idxOf p.columnNames[j] = j) :
    solution.value? p.columnNames[j] = some (T.columnValue j) := by
  rw [value?_eq (values_of_ofTableau reported) (by simp), first]
  simp

theorem findsColumns_of_ofTableau (distinct : p.names.toList.Nodup) :
    solution.FindsColumns p T := by
  have names := columnNames_of_ofTableau reported
  have lookup : ∀ j : Fin p.width, j.val < n ∨ p.columnNames[j] ∉ p.names.toList →
      solution.value? p.columnNames[j] = some (T.columnValue j) := fun j own =>
    value?_of_ofTableau reported (p.idxOf_columnNames distinct j own)
  refine ⟨shows_of_ofTableau reported, names, ?_, ?_, fun unnamed => ?_, fun apart j => ?_,
    fun j first => lookup j (.inl first), fun j own => lookup j (.inr own)⟩
  · rw [names]
    exact values_of_ofTableau reported
  · rw [names, p.nodup_columnNames_iff]
    exact and_iff_right distinct
  · exact (p.nodup_columnNames_iff.mp unnamed.nodup_columnNames).2
  · refine value?_of_ofTableau reported ?_
    have whole := p.nodup_columnNames_iff.mpr ⟨distinct, apart⟩
    have found := whole.idxOf_getElem j.val (by simp)
    rwa [Vector.getElem_toList] at found

end OfTableau
end Solution

/-! ## The three methods -/

section Methods

variable {K : Type} [Scalar K] {m n : Nat} {p : Problem K m n} {options : Options K}
  {solution : Solution K} (distinct : p.names.toList.Nodup) (optimum : solution.outcome = .optimal)
include distinct optimum

theorem Plain.exists_findsColumns (solved : solve p options = .ok solution) :
    ∃ T, solution.FindsColumns p T := by
  have reported := ofTableau_of_solve solved
  rw [optimum] at reported
  exact ⟨_, Solution.findsColumns_of_ofTableau reported distinct⟩

theorem BigM.exists_findsColumns (solved : solve p options = .ok solution) :
    ∃ T, solution.FindsColumns p.normalized T := by
  have reported := ofTableau_of_solve solved
  rw [optimum] at reported
  exact ⟨_, Solution.findsColumns_of_ofTableau reported distinct⟩

theorem TwoPhase.exists_findsColumns (solved : solve p options = .ok solution) :
    ∃ T, solution.FindsColumns p.normalized T := by
  rcases exists_ofTableau_of_solve solved with ⟨T, steps, phases, reported⟩
  rw [optimum] at reported
  exact ⟨T, Solution.findsColumns_of_ofTableau reported distinct⟩

end Methods

/-- **Lookups by name.**  Let the variables of a problem have different names,
given or default.  In the report of an optimum the columns have different names
exactly when no variable has the name of a column that a row adds, and then each
name leads to its column.  The methods with artificial columns add columns for
the rows of the normalized problem. -/
theorem optimum_lookup {K : Type} [Scalar K] {m n : Nat} (p : Problem K m n) (options : Options K)
    (solution : Solution K) (named : p.DefaultNames ∨ p.names.toList.Nodup)
    (optimum : solution.outcome = .optimal) :
    (Plain.solve p options = .ok solution → ∃ T, solution.FindsColumns p T) ∧
      (BigM.solve p options = .ok solution ∨ TwoPhase.solve p options = .ok solution →
        ∃ T, solution.FindsColumns p.normalized T) := by
  have distinct : p.names.toList.Nodup :=
    named.elim (fun unnamed => (p.nodup_columnNames_iff.mp unnamed.nodup_columnNames).1) id
  exact ⟨Plain.exists_findsColumns distinct optimum, fun solved =>
    solved.elim (BigM.exists_findsColumns distinct optimum)
      (TwoPhase.exists_findsColumns distinct optimum)⟩

/-- One row, and a variable with the name of a slack column of a second row. -/
def nearbyProblem : Problem ℚ 1 2 where
  objective := #[1, 2].toVector
  coefficients := #[#[1, 1].toVector].toVector
  rhs := #[3].toVector
  senses := #[.le].toVector
  direction := .maximize
  names := #["s2", "y"].toVector
  variables_pos := Nat.zero_lt_two

/-- All three methods report the slack column of the row by its own name. -/
theorem nearbyProblem_lookup :
    ∃ plain penalized phased : Solution ℚ,
      Plain.solve nearbyProblem Options.default = .ok plain ∧
      BigM.solve nearbyProblem Options.default = .ok penalized ∧
      TwoPhase.solve nearbyProblem Options.default = .ok phased ∧
      plain.outcome = .optimal ∧ penalized.outcome = .optimal ∧ phased.outcome = .optimal ∧
      plain.columnNames = ["s2", "y", "s1"] ∧
      nearbyProblem.names.toList.Nodup ∧ nearbyProblem.NamesApart ∧
      nearbyProblem.normalized.NamesApart ∧
      (∃ T, plain.FindsColumns nearbyProblem T) ∧
      (∃ T, penalized.FindsColumns nearbyProblem.normalized T) ∧
      ∃ T, phased.FindsColumns nearbyProblem.normalized T := by
  obtain ⟨plain, solved, shown⟩ : ∃ plain, Plain.solve nearbyProblem Options.default = .ok plain ∧
      (plain.outcome, plain.columnNames) = (.optimal, ["s2", "y", "s1"]) :=
    Solution.exists_ok_of_map_toOption (by decide +kernel)
  obtain ⟨penalized, weighed, second⟩ : ∃ penalized,
      BigM.solve nearbyProblem Options.default = .ok penalized ∧ penalized.outcome = .optimal :=
    Solution.exists_ok_of_map_toOption (by decide +kernel)
  obtain ⟨phased, staged, third⟩ : ∃ phased,
      TwoPhase.solve nearbyProblem Options.default = .ok phased ∧ phased.outcome = .optimal :=
    Solution.exists_ok_of_map_toOption (by decide +kernel)
  rcases Prod.mk.inj shown with ⟨first, names⟩
  have distinct : nearbyProblem.names.toList.Nodup := by decide
  exact ⟨plain, penalized, phased, solved, weighed, staged, first, second, third, names, distinct,
    by decide +kernel, by decide +kernel,
    (optimum_lookup nearbyProblem Options.default plain (.inr distinct) first).1 solved,
    (optimum_lookup nearbyProblem Options.default penalized (.inr distinct) second).2
      (.inl weighed),
    (optimum_lookup nearbyProblem Options.default phased (.inr distinct) third).2 (.inr staged)⟩

/-- One variable with the name of the slack column of the only row. -/
def shadowingProblem : Problem ℚ 1 1 where
  objective := #[1].toVector
  coefficients := #[#[1].toVector].toVector
  rhs := #[1].toVector
  senses := #[.le].toVector
  direction := .maximize
  names := #["s1"].toVector
  variables_pos := Nat.zero_lt_one

/-- All three methods list two columns with one name, and the name leads to the
variable, which is one, and not to the slack column, which is zero. -/
theorem shadowingProblem_lookup :
    shadowingProblem.names.toList.Nodup ∧
      ∀ solve ∈ [Plain.solve shadowingProblem Options.default,
          BigM.solve shadowingProblem Options.default,
          TwoPhase.solve shadowingProblem Options.default],
        ∃ solution : Solution ℚ, solve = .ok solution ∧ solution.outcome = .optimal ∧
          solution.columnNames = ["s1", "s1"] ∧ ¬ solution.columnNames.Nodup ∧
          solution.values = [("s1", 1), ("s1", 0)] ∧ solution.value? "s1" = some 1 := by
  have reports : ∀ solve ∈ [Plain.solve shadowingProblem Options.default,
      BigM.solve shadowingProblem Options.default, TwoPhase.solve shadowingProblem Options.default],
      (solve.toOption.map fun solution => (solution.outcome, solution.columnNames, solution.values))
        = some (.optimal, ["s1", "s1"], [("s1", 1), ("s1", 0)]) := by
    decide +kernel
  refine ⟨by decide, fun solve member => ?_⟩
  rcases Solution.exists_ok_of_map_toOption (reports solve member) with ⟨solution, solved, shown⟩
  rcases Prod.mk.inj shown with ⟨optimum, rest⟩
  rcases Prod.mk.inj rest with ⟨names, values⟩
  refine ⟨solution, solved, optimum, names, ?_, values, ?_⟩
  · rw [names]
    decide
  · rw [Solution.value?, values]
    rfl

end LinearProgram
