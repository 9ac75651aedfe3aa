import LinearProgram.Simplex.Run

namespace LinearProgram

/-!
# Recorded pivots in any arithmetic

A recorded pivot says where it was made, which element it used and which
tableau it led to.  A run makes such pivots at the places that its rules name
and does nothing else.  So what these pivots keep holds all along a run, and
its basic columns stay proper columns whatever the numbers are.
-/

namespace Run

variable {K : Type} {m N : Nat}

/-- The pivots of a run, each with the tableau that it was made on. -/
def pivots (start : Tableau K m N) (run : Run K m N) : List (Tableau K m N × Step K m N) :=
  (run.tableaus start).zip run.steps

theorem length_tableaus (start : Tableau K m N) (run : Run K m N) :
    (run.tableaus start).length = run.iterations + 1 := by
  simp [tableaus, iterations]

theorem fst_mem_tableaus {start U : Tableau K m N} {run : Run K m N} {step : Step K m N}
    (member : (U, step) ∈ run.pivots start) : U ∈ run.tableaus start :=
  (List.of_mem_zip member).1

end Run

variable {K : Type} [Scalar K] {m N : Nat}

theorem Tableau.val_of_index? {bound number : Nat} {index : Fin bound}
    (found : Tableau.index? bound number = some index) : index.val = number := by
  unfold Tableau.index? at found
  split at found
  · cases found
    rfl
  · exact nomatch found

theorem Tableau.pivoted_of_pivot {T next : Tableau K m N} {row : Fin m} {column : Fin (N + 1)}
    {element : K} (made : T.pivot row column = .ok (element, next)) :
    element = T.entry row column ∧ next = T.pivoted row column := by
  unfold Tableau.pivot at made
  dsimp only at made
  split at made
  · exact nomatch made
  · cases made
    exact ⟨rfl, rfl⟩

namespace Pass

/-- The place that the rules of a run choose. -/
def Picks (pass : Pass N) (T : Tableau K m N) (row : Fin m) (column : Fin N) : Prop :=
  T.entering? pass.allowed = some column ∧ T.leaving? column.castSucc = some row

variable {pass : Pass N} {index : Nat} {T : Tableau K m N} {row : Fin m} {column : Fin N}

/-! ## One pivot -/

/-- What the record of a pivot says about the tableau it was made on. -/
structure Records (pass : Pass N) (index : Nat) (T : Tableau K m N) (row : Fin m)
    (column : Fin N) (step : Step K m N) : Prop where
  numbered : step.index = index
  inPhase : step.phase = pass.phase
  enters : step.entering = column
  inRow : step.row = row
  leaves : T.basis[row] = step.leaving.castSucc
  made : T.pivot row column.castSucc = .ok (step.element, step.next)

theorem records_of_pivot {step : Step K m N}
    (recorded : pass.pivot T index row column.castSucc = .ok step) :
    pass.Records index T row column step := by
  unfold pivot at recorded
  cases made : T.pivot row column.castSucc with
  | error cause =>
    rw [made] at recorded
    exact nomatch recorded
  | ok answer =>
    rw [made] at recorded
    cases enters : Tableau.index? N column.castSucc.val with
    | none =>
      rw [enters] at recorded
      exact nomatch recorded
    | some entering =>
      rw [enters] at recorded
      cases leaves : Tableau.index? N T.basis[row].val with
      | none =>
        rw [leaves] at recorded
        exact nomatch recorded
      | some leaving =>
        rw [leaves] at recorded
        cases recorded
        exact {
          numbered := rfl
          inPhase := rfl
          enters := Fin.ext (Tableau.val_of_index? enters)
          inRow := rfl
          leaves := Fin.ext (Tableau.val_of_index? leaves).symm
          made }

namespace Records

variable {step : Step K m N} (records : pass.Records index T row column step)
include records

theorem element_eq : step.element = T.entry row column.castSucc :=
  (Tableau.pivoted_of_pivot records.made).1

theorem next_eq : step.next = T.pivoted row column.castSucc :=
  (Tableau.pivoted_of_pivot records.made).2

theorem isColumn_next (isColumn : ∀ other : Fin m, T.basis[other].val < N) (other : Fin m) :
    step.next.basis[other].val < N := by
  rw [records.next_eq, T.basis_pivoted]
  split
  · exact column.isLt
  · exact isColumn other

end Records

/-! ## Runs -/

theorem runFrom_of_entering?_eq_none (nothing : T.entering? pass.allowed = none) (cap : Nat) :
    pass.runFrom index T cap = .ended (.ok .optimal) T := by
  cases cap with
  | zero => rw [runFrom, nothing]
  | succ remaining => rw [runFrom, nothing]

section Entering

variable (entering : T.entering? pass.allowed = some column)
include entering

theorem runFrom_zero_of_entering : pass.runFrom index T 0 = .ended (.ok .iterationLimit) T := by
  rw [runFrom, entering]

theorem runFrom_of_unbounded (free : T.leaving? column.castSucc = none) (remaining : Nat) :
    pass.runFrom index T (remaining + 1) = .ended (.ok (.unbounded column)) T := by
  rw [runFrom, entering]
  dsimp only
  rw [free]

variable (leaving : T.leaving? column.castSucc = some row)
include leaving

theorem runFrom_of_refused {failure : Failure K}
    (refused : pass.pivot T index row column.castSucc = .error failure) (remaining : Nat) :
    pass.runFrom index T (remaining + 1) = .ended (.error failure) T := by
  rw [runFrom, entering]
  dsimp only
  rw [leaving]
  dsimp only
  rw [refused]

theorem runFrom_of_recorded {step : Step K m N}
    (recorded : pass.pivot T index row column.castSucc = .ok step) (remaining : Nat) :
    pass.runFrom index T (remaining + 1) =
      .after step (pass.runFrom (index + 1) step.next remaining) := by
  rw [runFrom, entering]
  dsimp only
  rw [leaving]
  dsimp only
  rw [recorded]

end Entering

/-- What the pivots at chosen places keep holds all along a run.  The guard is a
property that the tableaus of the run are known to have; the invariant may
rely on it at the tableau of each pivot. -/
theorem runFrom_invariant_of_picks (pass : Pass N) (Guard Inv : Tableau K m N → Prop)
    (preserved : ∀ U row column, Inv U → Guard U → pass.Picks U row column →
      Inv (U.pivoted row column.castSucc))
    (index cap : Nat) (start : Inv T)
    (guarded : ∀ U ∈ (pass.runFrom index T cap).tableaus T, Guard U) :
    ∀ U ∈ (pass.runFrom index T cap).tableaus T, Inv U := by
  fun_induction pass.runFrom index T cap with
  | case6 index T remaining column entering row leaving step recorded ih =>
    have moved : Inv step.next := by
      rw [(records_of_pivot recorded).next_eq]
      exact preserved T row column start (guarded T List.mem_cons_self) ⟨entering, leaving⟩
    intro U member
    rcases List.mem_cons.mp member with same | later
    · exact same ▸ start
    · exact ih moved (fun V member => guarded V (List.mem_cons_of_mem T member)) U later
  | _ =>
    intro U member
    exact List.mem_singleton.mp member ▸ start

theorem epsilon_runFrom (pass : Pass N) (index cap : Nat) (T : Tableau K m N) :
    ∀ U ∈ (pass.runFrom index T cap).tableaus T, U.epsilon = T.epsilon :=
  pass.runFrom_invariant_of_picks (fun _ => True) (fun U => U.epsilon = T.epsilon)
    (fun _ _ _ same _ _ => same) index cap rfl fun _ _ => trivial

theorem iterations_of_limit {cap : Nat}
    (limit : (pass.runFrom index T cap).ending = .ok .iterationLimit) :
    (pass.runFrom index T cap).iterations = cap := by
  fun_induction pass.runFrom index T cap with
  | case2 index T column entering => rfl
  | case6 index T remaining column entering row leaving step recorded ih =>
    exact congrArg Nat.succ (ih limit)
  | _ => exact nomatch limit

/-- The pivots of a run are the recorded ones at the chosen places. -/
theorem picks_of_mem_pivots {U : Tableau K m N} {step : Step K m N} {cap : Nat}
    (member : (U, step) ∈ (pass.runFrom index T cap).pivots T) :
    pass.Picks U step.row step.entering ∧
      ∃ number, pass.Records number U step.row step.entering step := by
  fun_induction pass.runFrom index T cap with
  | case6 index T remaining column entering row leaving next recorded ih =>
    rcases List.mem_cons.mp member with same | later
    · cases same
      have records := records_of_pivot recorded
      rw [records.enters, records.inRow]
      exact ⟨⟨entering, leaving⟩, _, records⟩
    · exact ih later
  | _ => exact nomatch member

/-- No run brings the right hand side into the basis. -/
theorem isColumn_runFrom (pass : Pass N) (index cap : Nat) {T : Tableau K m N}
    (isColumn : ∀ other : Fin m, T.basis[other].val < N) (other : Fin m) :
    (pass.runFrom index T cap).final.basis[other].val < N := by
  fun_induction pass.runFrom index T cap with
  | case6 index T remaining column entering row leaving step recorded ih =>
    exact ih ((records_of_pivot recorded).isColumn_next isColumn)
  | _ => exact isColumn other

end Pass
end LinearProgram
