import LinearProgram.Proofs.Simplex.Record
import LinearProgram.Solution

namespace LinearProgram

/-!
# Logs of pivots

A log of reported pivots can be followed from the tableau it starts from.
Each entry names a row and a column of the tableau that was reached, and it
shows the element there, the column that leaves, and the basis and the tableau
after the pivot.  The log of a run names the places that the rules of the run
choose and no others.  Nothing of this depends on the numbers.
-/

variable {K : Type} [Scalar K] {m N : Nat}

/-- The report tells of the pivot in a row and a column of a tableau, and of
the tableau it leads to. -/
structure StepReport.Tells (names : Vector String N) (T next : Tableau K m N) (row : Fin m)
    (column : Fin N) (report : StepReport K) : Prop where
  entering : report.entering = column
  leavingRow : report.leavingRow = row
  leaving : report.leaving = T.basis[row].val
  enteringName : names[report.entering]? = some report.enteringName
  leavingName : names[report.leaving]? = some report.leavingName
  element : report.pivot = T.entry row column.castSucc
  made : T.pivot row column.castSucc = .ok (report.pivot, next)
  basis : report.basis = next.basisNumbers
  tableau : report.tableau = next.cells.toLists

/-- A log of pivots of one phase, numbered from an index on, that leads from a
tableau to a final one.  All of its pivots are made at places of one kind. -/
inductive Replays (names : Vector String N) (phase : Phase)
    (Place : Tableau K m N → Fin m → Fin N → Prop) :
    Nat → Tableau K m N → List (StepReport K) → Tableau K m N → Prop where
  | done (index : Nat) (T : Tableau K m N) : Replays names phase Place index T [] T
  | pivot {index : Nat} {T next final : Tableau K m N} {row : Fin m} {column : Fin N}
      {report : StepReport K} {log : List (StepReport K)} (place : Place T row column)
      (tells : report.Tells names T next row column) (numbered : report.index = index)
      (inPhase : report.phase = phase)
      (rest : Replays names phase Place (index + 1) next log final) :
      Replays names phase Place index T (report :: log) final

namespace Replays

variable {names : Vector String N} {phase : Phase}
  {Place : Tableau K m N → Fin m → Fin N → Prop} {index : Nat} {T final : Tableau K m N}
  {log : List (StepReport K)}

theorem map_index (replays : Replays names phase Place index T log final) :
    log.map StepReport.index = List.range' index log.length := by
  induction replays with
  | done index T => rfl
  | pivot place tells numbered inPhase rest ih =>
    rw [List.map_cons, List.length_cons, List.range'_succ, numbered, ih]

theorem map_phase (replays : Replays names phase Place index T log final) :
    log.map StepReport.phase = List.replicate log.length phase := by
  induction replays with
  | done index T => rfl
  | pivot place tells numbered inPhase rest ih =>
    rw [List.map_cons, List.length_cons, List.replicate_succ, inPhase, ih]

end Replays

namespace Pass

variable {pass : Pass N} {index : Nat} {T : Tableau K m N} {row : Fin m} {column : Fin N}

theorem Records.tells {step : Step K m N} (records : pass.Records index T row column step)
    (names : Vector String N) : (step.report names).Tells names T step.next row column where
  entering := congrArg Fin.val records.enters
  leavingRow := congrArg Fin.val records.inRow
  leaving := (congrArg Fin.val records.leaves).symm
  enteringName := Vector.getElem?_eq_getElem step.entering.isLt
  leavingName := Vector.getElem?_eq_getElem step.leaving.isLt
  element := records.element_eq
  made := records.made
  basis := rfl
  tableau := rfl

/-- The recorded pivots of a run are a log of it. -/
theorem replays_runFrom (pass : Pass N) (names : Vector String N) (index : Nat)
    (T : Tableau K m N) (cap : Nat) :
    Replays names pass.phase pass.Picks index T
      ((pass.runFrom index T cap).steps.map (Step.report names))
      (pass.runFrom index T cap).final := by
  fun_induction pass.runFrom index T cap with
  | case6 index T remaining column entering row leaving step recorded ih =>
    have records := records_of_pivot recorded
    exact .pivot ⟨entering, leaving⟩ (records.tells names) records.numbered records.inPhase ih
  | _ => exact .done _ _

theorem length_steps_runFrom_le (pass : Pass N) (index : Nat) (T : Tableau K m N) (cap : Nat) :
    (pass.runFrom index T cap).steps.length ≤ cap := by
  fun_induction pass.runFrom index T cap with
  | case6 index T remaining column entering row leaving step recorded ih =>
    exact Nat.succ_le_succ ih
  | _ => exact Nat.zero_le _

theorem replays_run (pass : Pass N) (names : Vector String N) (index : Nat)
    (T : Tableau K m N) :
    Replays names pass.phase pass.Picks index T
      ((pass.run index T).steps.map (Step.report names)) (pass.run index T).final :=
  pass.replays_runFrom names index T pass.cap

theorem iterations_run_le (pass : Pass N) (index : Nat) (T : Tableau K m N) :
    (pass.run index T).iterations ≤ pass.cap :=
  pass.length_steps_runFrom_le index T pass.cap

end Pass
end LinearProgram
