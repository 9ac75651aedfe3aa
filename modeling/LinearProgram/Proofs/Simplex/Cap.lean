import LinearProgram.Proofs.Simplex.Record

namespace LinearProgram
namespace Pass

/-!
# Runs under a larger cap

A run tests for an optimum before it looks at its cap, and the cap decides
nothing else.  So a run under a larger cap first makes the run under the
smaller one, and goes on from where that run stopped only if it stopped at the
cap.
-/

variable {K : Type} [Scalar K] {m N : Nat}

/-- A run that is allowed more pivots after it has ended. -/
def resume (pass : Pass N) (index : Nat) (run : Run K m N) (more : Nat) : Run K m N :=
  match run.ending with
  | .ok .iterationLimit =>
    let later := pass.runFrom (index + run.iterations) run.final more
    { later with steps := run.steps ++ later.steps }
  | _ => run

variable {pass : Pass N} {index : Nat} {run : Run K m N}

theorem resume_of_limit (limit : run.ending = .ok .iterationLimit) (more : Nat) :
    pass.resume index run more =
      { pass.runFrom (index + run.iterations) run.final more with
        steps := run.steps ++ (pass.runFrom (index + run.iterations) run.final more).steps } := by
  unfold resume
  rw [limit]

theorem resume_of_ne_limit (other : run.ending ≠ .ok .iterationLimit) (more : Nat) :
    pass.resume index run more = run := by
  unfold resume
  cases ending : run.ending with
  | error failure => rfl
  | ok termination =>
    cases termination with
    | iterationLimit => exact absurd ending other
    | _ => rfl

/-- The pivot in front of a run makes no difference to what comes after the run. -/
theorem resume_after (step : Step K m N) (more : Nat) :
    pass.resume index (.after step run) more =
      .after step (pass.resume (index + 1) run more) := by
  have ending : (Run.after step run).ending = run.ending := rfl
  by_cases limit : run.ending = .ok .iterationLimit
  · have place : index + (Run.after step run).iterations = index + 1 + run.iterations := by
      simp only [Run.iterations, Run.after, List.length_cons]
      omega
    rw [resume_of_limit (ending.trans limit), resume_of_limit limit, place]
    rfl
  · rw [resume_of_ne_limit (ending ▸ limit), resume_of_ne_limit limit]

/-- A run with pivots to spare is a shorter run and what follows it. -/
theorem runFrom_add (pass : Pass N) (index : Nat) (T : Tableau K m N) (cap more : Nat) :
    pass.runFrom index T (cap + more) = pass.resume index (pass.runFrom index T cap) more := by
  induction cap generalizing index T with
  | zero =>
    cases entering : T.entering? pass.allowed with
    | none =>
      rw [runFrom_of_entering?_eq_none entering, runFrom_of_entering?_eq_none entering]
      rfl
    | some column =>
      rw [Nat.zero_add, runFrom_zero_of_entering entering]
      rfl
  | succ cap ih =>
    rw [Nat.add_right_comm]
    cases entering : T.entering? pass.allowed with
    | none =>
      rw [runFrom_of_entering?_eq_none entering, runFrom_of_entering?_eq_none entering]
      rfl
    | some column =>
      cases leaving : T.leaving? column.castSucc with
      | none =>
        rw [runFrom_of_unbounded entering leaving, runFrom_of_unbounded entering leaving]
        rfl
      | some row =>
        cases recorded : pass.pivot T index row column.castSucc with
        | error failure =>
          rw [runFrom_of_refused entering leaving recorded,
            runFrom_of_refused entering leaving recorded]
          rfl
        | ok step =>
          rw [runFrom_of_recorded entering leaving recorded,
            runFrom_of_recorded entering leaving recorded, ih, resume_after]

/-- The same pass under another cap. -/
def withCap (pass : Pass N) (cap : Nat) : Pass N :=
  { pass with cap }

theorem run_withCap (pass : Pass N) (cap index : Nat) (T : Tableau K m N) :
    (pass.withCap cap).run index T = pass.runFrom index T cap := by
  have same : ∀ fuel : Nat, (pass.withCap cap).runFrom index T fuel =
      pass.runFrom index T fuel := by
    -- The recursion reads the allowed columns and the phase of the pass only.
    delta runFrom
    exact fun fuel => rfl
  exact same cap

/-- A run that consists of two runs, one after the other. -/
structure Splits (whole first second : Run K m N) : Prop where
  ending : whole.ending = second.ending
  final : whole.final = second.final
  steps : whole.steps = first.steps ++ second.steps
  iterations : whole.iterations = first.iterations + second.iterations

theorem splits_of_limit (pass : Pass N) (index cap more : Nat) {T : Tableau K m N}
    {first : Run K m N} (run : (pass.withCap cap).run index T = first)
    (limit : first.ending = .ok .iterationLimit) :
    Splits ((pass.withCap (cap + more)).run index T) first
      ((pass.withCap more).run (index + first.iterations) first.final) := by
  rw [run_withCap] at run
  rw [run_withCap, run_withCap, runFrom_add, run, resume_of_limit limit]
  exact ⟨rfl, rfl, rfl, List.length_append⟩

end Pass
end LinearProgram
