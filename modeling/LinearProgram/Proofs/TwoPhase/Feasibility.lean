import LinearProgram.Proofs.ArtificialSum
import LinearProgram.Proofs.TwoPhase.Course

namespace LinearProgram

/-!
# When the method of two phases keeps to feasible points

Three of its tests compare a quantity with the tolerance and go on as if what
they pass over were zero: the ratio test, the test of the artificial sum and
the search for replacements.  On a steady course this does no harm.  Then no
right hand side becomes negative, and the artificial columns that stay in the
basis never exceed the artificial sum at the end of the first phase.
-/

variable {m n : Nat}

namespace TwoPhase

open Problem

/-- What the tolerance passes over does no harm on the way from the first
tableau to the last one. -/
structure Steady (p : Problem ℚ m n) (options : Options ℚ) : Prop where
  /-- The ratio tests of the first phase are fair. -/
  first : ∀ T ∈ (firstRun p options).tableaus (firstTableau p options),
    (firstPass p options).FairTest T
  /-- An artificial column that can be replaced after the first phase has the value zero. -/
  replaced : ∀ T ∈ cleanupTableaus p options, ∀ row : Fin m,
    p.isArtificialColumn T.basis[row] = true → replacement? p T row ≠ none → T.rhs row = 0
  /-- The ratio tests of the second phase are fair. -/
  second : ∀ T ∈ (secondRun p options).tableaus (secondTableau p (cleanup p options)),
    (secondPass p options).FairTest T
  /-- A column that enters in the second phase has no negative entry in a row
  where an artificial column is basic. -/
  kept : ∀ T ∈ (secondRun p options).tableaus (secondTableau p (cleanup p options)),
    ∀ column, T.entering? (secondPass p options).allowed = some column →
      ∀ row : Fin m, p.isArtificialColumn T.basis[row] = true → 0 ≤ T.entry row column.castSucc

variable {p : Problem ℚ m n} {options : Options ℚ}

/-! ## The first phase -/

theorem nonnegativeRhs_firstRun (positive : 0 < options.epsilon)
    (feasible : ∀ row : Fin m, 0 ≤ p.rhs[row])
    (fair : ∀ T ∈ (firstRun p options).tableaus (firstTableau p options),
      (firstPass p options).FairTest T) :
    ∀ T ∈ (firstRun p options).tableaus (firstTableau p options), T.NonnegativeRhs :=
  p.nonnegativeRhs_runFrom .phaseOne positive feasible (firstPass p options) 0
    options.maxIterations fair

/-- The artificial sum bounds every basic artificial column. -/
theorem within_of_nonnegativeRhs {T : Tableau ℚ m p.width}
    (represents : p.Represents .phaseOne T) (nonnegative : T.NonnegativeRhs) :
    p.Within (-T.objectiveRhs) T := by
  refine ⟨nonnegative, fun row artificial => ?_⟩
  rw [represents.neg_objectiveRhs_phaseOne]
  exact Finset.single_le_sum (fun own _ => nonnegative own) (mem_artificialRows.mpr artificial)

/-! ## Between the phases -/

/-- Artificial columns at zero stay at zero while they are replaced. -/
theorem rhs_eq_zero_of_within (positive : 0 < options.epsilon)
    (start : p.Within 0 (firstRun p options).final) :
    ∀ T ∈ cleanupTableaus p options, ∀ row : Fin m,
      p.isArtificialColumn T.basis[row] = true → T.rhs row = 0 := by
  obtain ⟨_, _, within⟩ := cleanup_invariant (p := p) positive (fun _ => True)
    (fun _ T => p.Within 0 T) (fun _ _ _ inv _ => inv) (fun _ _ _ inv _ _ _ _ _ => inv)
    (fun _ _ _ _ inv _ replaces => inv.pivoted_of_rhs_eq_zero replaces.other replaces.nonzero
      (inv.rhs_eq_zero replaces.artificial))
    start fun _ _ => trivial
  intro T member row artificial
  rcases within T member with ⟨_, inv⟩
  exact inv.rhs_eq_zero artificial

/-- Replacing artificial columns that have the value zero changes no right hand side. -/
theorem within_cleanup (positive : 0 < options.epsilon) {bound : ℚ}
    (start : p.Within bound (firstRun p options).final)
    (replaced : ∀ T ∈ cleanupTableaus p options, ∀ row : Fin m,
      p.isArtificialColumn T.basis[row] = true → replacement? p T row ≠ none → T.rhs row = 0) :
    p.Within bound (cleanup p options).final := by
  refine (cleanup_invariant positive
    (fun T => ∀ row : Fin m, p.isArtificialColumn T.basis[row] = true →
      replacement? p T row ≠ none → T.rhs row = 0)
    (fun _ T => p.Within bound T) (fun _ _ _ inv _ => inv) (fun _ _ _ inv _ _ _ _ _ => inv) ?_
    start replaced).2.1
  intro row _ T column within guard replaces
  have zero := guard row replaces.artificial (replaces.found ▸ Option.some_ne_none column)
  exact within.pivoted_of_rhs_eq_zero replaces.other replaces.nonzero zero

/-! ## The second phase -/

/-- On a steady course the second phase keeps what the first one has reached. -/
theorem within_secondRun (positive : 0 < options.epsilon)
    (feasible : ∀ row : Fin m, 0 ≤ p.rhs[row]) (steady : Steady p options) :
    ∀ T ∈ (secondRun p options).tableaus (secondTableau p (cleanup p options)),
      p.Within (-(firstRun p options).final.objectiveRhs) T := by
  have nonnegative := nonnegativeRhs_firstRun positive feasible steady.first _ firstRun_final_mem
  have clean := within_cleanup positive
    (within_of_nonnegativeRhs (firstRun_final positive).1 nonnegative) steady.replaced
  refine secondRun_invariant positive
    (fun T => (secondPass p options).FairTest T ∧
      ∀ column, T.entering? (secondPass p options).allowed = some column →
        ∀ row : Fin m, p.isArtificialColumn T.basis[row] = true →
          0 ≤ T.entry row column.castSucc)
    _ ?_ (clean.loadObjective (p.costs .plain))
    fun T member => ⟨steady.second T member, steady.kept T member⟩
  rintro T row column within ⟨fair, kept⟩ chosen
  exact within.pivoted ((secondPass_allowed_iff column).mp chosen.allowed)
    (chosen.nonnegativeRhs fair within.nonnegative) chosen.entry_pos (kept column chosen.entering)

end TwoPhase
end LinearProgram
