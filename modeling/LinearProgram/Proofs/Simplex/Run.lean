import LinearProgram.Proofs.Tableau.Choice
import LinearProgram.Proofs.Tableau.Elimination
import LinearProgram.Proofs.Simplex.Record

namespace LinearProgram

/-!
# Runs of the simplex method in exact arithmetic

A run from a canonical tableau never fails, since the rules choose elements
above the tolerance and the basic columns stay proper columns.  It ends where
its rules say so, and a property that every chosen pivot keeps holds of every
tableau it passes through.
-/

variable {m N : Nat}

theorem Tableau.index?_castSucc (column : Fin N) :
    Tableau.index? N column.castSucc = some column :=
  dif_pos column.isLt

namespace Termination

theorem eq_optimal {termination : Termination N} (optimum : termination.outcome = .optimal) :
    termination = .optimal := by
  cases termination with
  | optimal => rfl
  | _ => exact nomatch optimum

theorem exists_eq_unbounded {termination : Termination N}
    (endless : termination.outcome = .unbounded) :
    ∃ column, termination = .unbounded column := by
  cases termination with
  | unbounded column => exact ⟨column, rfl⟩
  | _ => exact nomatch endless

theorem outcome_ne_infeasible (termination : Termination N) :
    termination.outcome ≠ .infeasible := by
  cases termination <;> exact nofun

end Termination

namespace Pass

/-- A pivot that the rules choose on a canonical tableau. -/
structure Chooses (pass : Pass N) (T : Tableau ℚ m N) (row : Fin m) (column : Fin N) : Prop where
  canonical : T.Canonical
  positive : 0 < T.epsilon
  entering : T.entering? pass.allowed = some column
  leaving : T.leaving? column.castSucc = some row

namespace Chooses

variable {pass : Pass N} {T : Tableau ℚ m N} {row : Fin m} {column : Fin N}

theorem entry_pos (chosen : pass.Chooses T row column) : 0 < T.entry row column.castSucc :=
  Tableau.entry_pos_of_leaving? chosen.positive.le chosen.leaving

theorem nonzero (chosen : pass.Chooses T row column) : T.entry row column.castSucc ≠ 0 :=
  chosen.entry_pos.ne'

theorem allowed (chosen : pass.Chooses T row column) : pass.allowed column = true :=
  (Tableau.entering?_spec chosen.entering).1

end Chooses

/-- What the tableau at the end of a run says about the way the run ended. -/
def StopsAt (pass : Pass N) (T : Tableau ℚ m N) : Termination N → Prop
  | .optimal => T.entering? pass.allowed = none
  | .unbounded column =>
    T.entering? pass.allowed = some column ∧ T.leaving? column.castSucc = none
  | .iterationLimit => True

/-! ## One pivot -/

theorem pivot_eq_ok (pass : Pass N) {T : Tableau ℚ m N} {row : Fin m} {column : Fin N}
    (isColumn : T.basis[row].val < N) (large : T.epsilon ≤ |T.entry row column.castSucc|)
    (index : Nat) :
    pass.pivot T index row column.castSucc =
      .ok ⟨index, pass.phase, column, row, ⟨T.basis[row], isColumn⟩,
        T.entry row column.castSucc, T.pivoted row column.castSucc⟩ := by
  have leaving : Tableau.index? N T.basis[row] = some ⟨T.basis[row], isColumn⟩ :=
    dif_pos isColumn
  unfold pivot
  rw [Tableau.pivot_eq_ok large, Tableau.index?_castSucc, leaving]
  rfl

/-- The three ways in which a run with a pivot left can go on. -/
theorem runFrom_succ_cases (pass : Pass N) (index remaining : Nat) {T : Tableau ℚ m N}
    (canonical : T.Canonical) (positive : 0 < T.epsilon) :
    (T.entering? pass.allowed = none ∧
        pass.runFrom index T (remaining + 1) = .ended (.ok .optimal) T) ∨
      (∃ column, T.entering? pass.allowed = some column ∧ T.leaving? column.castSucc = none ∧
        pass.runFrom index T (remaining + 1) = .ended (.ok (.unbounded column)) T) ∨
      ∃ row column step, pass.Chooses T row column ∧
        step.next = T.pivoted row column.castSucc ∧
        pass.runFrom index T (remaining + 1) =
          .after step (pass.runFrom (index + 1) step.next remaining) := by
  cases entering : T.entering? pass.allowed with
  | none => exact Or.inl ⟨rfl, runFrom_of_entering?_eq_none entering _⟩
  | some column =>
    cases leaving : T.leaving? column.castSucc with
    | none =>
      exact Or.inr (Or.inl ⟨column, rfl, leaving, runFrom_of_unbounded entering leaving remaining⟩)
    | some row =>
      have large := (Tableau.lt_entry_of_leaving? leaving).le.trans (le_abs_self _)
      have recorded := pass.pivot_eq_ok (canonical.isColumn row) large index
      exact Or.inr (Or.inr ⟨row, column, _, ⟨canonical, positive, entering, leaving⟩, rfl,
        runFrom_of_recorded entering leaving recorded remaining⟩)

/-! ## Whole runs -/

theorem final_mem_tableaus (pass : Pass N) (index : Nat) (T : Tableau ℚ m N) (cap : Nat) :
    (pass.runFrom index T cap).final ∈ (pass.runFrom index T cap).tableaus T := by
  fun_induction pass.runFrom index T cap with
  | case6 index T remaining column entering row leaving step recorded ih =>
    exact List.mem_cons_of_mem T ih
  | _ => exact List.mem_cons_self

variable {pass : Pass N} {T : Tableau ℚ m N}

/-- What every chosen pivot keeps holds all along a run.  The guard is a
property that the tableaus of the run are known to have; the invariant may
rely on it at the tableau of each pivot. -/
theorem runFrom_invariant (canonical : T.Canonical) (positive : 0 < T.epsilon)
    (Guard Inv : Tableau ℚ m N → Prop)
    (preserved : ∀ U row column, Inv U → Guard U → pass.Chooses U row column →
      Inv (U.pivoted row column.castSucc))
    (index cap : Nat) (start : Inv T)
    (guarded : ∀ U ∈ (pass.runFrom index T cap).tableaus T, Guard U) :
    ∀ U ∈ (pass.runFrom index T cap).tableaus T, Inv U := by
  have all := pass.runFrom_invariant_of_picks Guard
    (fun U => U.Canonical ∧ 0 < U.epsilon ∧ Inv U) ?_ index cap ⟨canonical, positive, start⟩ guarded
  · exact fun U member => (all U member).2.2
  · rintro U row column ⟨canonical, positive, inv⟩ guard ⟨entering, leaving⟩
    have chosen : pass.Chooses U row column := ⟨canonical, positive, entering, leaving⟩
    exact ⟨canonical.pivoted chosen.nonzero, positive, preserved U row column inv guard chosen⟩

/-- A run ends at a tableau where its rules say how it ends. -/
theorem runFrom_ending (pass : Pass N) {T : Tableau ℚ m N} (canonical : T.Canonical)
    (positive : 0 < T.epsilon) (index cap : Nat) :
    ∃ termination, (pass.runFrom index T cap).ending = .ok termination ∧
      pass.StopsAt (pass.runFrom index T cap).final termination := by
  induction cap generalizing index T with
  | zero =>
    rw [runFrom]
    cases entering : T.entering? pass.allowed with
    | none => exact ⟨.optimal, rfl, entering⟩
    | some column => exact ⟨.iterationLimit, rfl, trivial⟩
  | succ remaining ih =>
    rcases pass.runFrom_succ_cases index remaining canonical positive with
      ⟨entering, run⟩ | ⟨column, entering, leaving, run⟩ | ⟨row, column, step, chosen, next, run⟩
    · rw [run]
      exact ⟨.optimal, rfl, entering⟩
    · rw [run]
      exact ⟨.unbounded column, rfl, entering, leaving⟩
    · rw [run]
      exact ih (next ▸ canonical.pivoted chosen.nonzero) (next ▸ positive) (index + 1)

end Pass
end LinearProgram
