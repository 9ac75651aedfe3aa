import LinearProgram.Proofs.Tableau.Attempts

namespace LinearProgram

/-!
# Working on a tableau by hand

A session holds a tableau and the pivots recorded so far.  It is asked for
pivots at any place, with or without a record, and for new objectives, in any
order.  Whatever is asked of a session that starts from the first tableau of a
problem, its tableau stays canonical without any allowance, and the only
requests it refuses are pivots on elements below the tolerance, after which
everything is as before.

That no column becomes basic in two rows is nowhere checked.  It follows from
the zeros of a basic column outside of its own row, on which no pivot is
accepted.
-/

/-- What can be asked of a session on a tableau of `m` rows and `N` columns. -/
inductive Request (K : Type) (m N : Nat) where
  /-- A pivot. -/
  | pivot (row : Fin m) (column : Fin N)
  /-- A pivot that is recorded as one of a pass. -/
  | recordedPivot (pass : Pass N) (row : Fin m) (column : Fin N)
  /-- Another objective to maximize. -/
  | objective (costs : Vector K N)

/-- A tableau that is worked on, with the pivots recorded so far. -/
structure Session (K : Type) (m N : Nat) where
  tableau : Tableau K m N
  trace : List (Step K m N)

namespace Session

section Perform

variable {K : Type} [Scalar K] {m N : Nat}

/-- The answer to a request, and the session after it. -/
def perform (session : Session K m N) :
    Request K m N → Except (Failure K) Unit × Session K m N
  | .pivot row column =>
    match session.tableau.pivot row column.castSucc with
    | .error cause => (.error (.error cause), session)
    | .ok (_, next) => (.ok (), { session with tableau := next })
  | .recordedPivot pass row column =>
    match pass.pivot session.tableau session.trace.length row column.castSucc with
    | .error failure => (.error failure, session)
    | .ok step => (.ok (), ⟨step.next, session.trace ++ [step]⟩)
  | .objective costs =>
    (.ok (), { session with tableau := session.tableau.loadObjective costs })

/-- The session after a sequence of requests, whatever the answers. -/
def performAll (session : Session K m N) (requests : List (Request K m N)) : Session K m N :=
  requests.foldl (fun current request => (current.perform request).2) session

end Perform

end Session

variable {m N : Nat}

namespace Tableau

/-- A tableau that is exactly canonical passes the test under any tolerance. -/
theorem Canonical.isCanonical_eq_true {T : Tableau ℚ m N} (canonical : T.Canonical)
    (allowed : 0 ≤ T.epsilon) : T.isCanonical = true := by
  have units : ∀ row : Fin m, T.isUnitColumn row = true := by
    intro row
    refine List.all_eq_true.mpr fun i _ => ?_
    have exact : T.cell i T.basis[row] - (if i = row.castSucc then (1 : ℚ) else 0) = 0 := by
      rw [canonical.isUnit row i, sub_self]
    simp only [exact, Scalar.abs_rat, abs_zero, Bool.not_eq_true', decide_eq_false_iff_not, not_lt]
    exact allowed
  have distinct : T.basis.toList.Nodup := by
    rw [toList_eq_ofFn, List.nodup_ofFn]
    exact fun row other same => canonical.distinct row other same
  rw [isCanonical, Bool.and_eq_true]
  exact ⟨List.all_eq_true.mpr fun row _ => units row, decide_eq_true distinct⟩

end Tableau

theorem Pass.pivot_eq_error (pass : Pass N) {T : Tableau ℚ m N} {row : Fin m} {column : Fin N}
    (small : |T.entry row column.castSucc| < T.epsilon) (index : Nat) :
    pass.pivot T index row column.castSucc = .error (.error
      (.degeneratePivot row column (T.entry row column.castSucc))) := by
  unfold Pass.pivot
  rw [Tableau.pivot_eq_error small]
  rfl

namespace Session

variable {session : Session ℚ m N}

/-- The failure names an element of the tableau that is below the tolerance. -/
def Refusal (T : Tableau ℚ m N) (failure : Failure ℚ) : Prop :=
  ∃ (row : Fin m) (column : Fin N), |T.entry row column.castSucc| < T.epsilon ∧
    failure = .error (.degeneratePivot row column (T.entry row column.castSucc))

/-- The three ways in which a request can be answered. -/
theorem perform_cases (isColumn : ∀ row : Fin m, session.tableau.basis[row].val < N)
    (request : Request ℚ m N) :
    (∃ failure, Refusal session.tableau failure ∧
        session.perform request = (.error failure, session)) ∨
      (∃ (row : Fin m) (column : Fin N) (next : Session ℚ m N),
        session.tableau.epsilon ≤ |session.tableau.entry row column.castSucc| ∧
          session.perform request = (.ok (), next) ∧
          next.tableau = session.tableau.pivoted row column.castSucc) ∨
      ∃ costs next, session.perform request = (.ok (), next) ∧
        next.tableau = session.tableau.loadObjective costs := by
  cases request with
  | pivot row column =>
    unfold perform
    rcases lt_or_ge |session.tableau.entry row column.castSucc| session.tableau.epsilon with
      small | large
    · refine Or.inl ⟨_, ⟨row, column, small, rfl⟩, ?_⟩
      dsimp only
      rw [Tableau.pivot_eq_error small]
      rfl
    · refine Or.inr (Or.inl ⟨row, column, { session with
        tableau := session.tableau.pivoted row column.castSucc }, large, ?_, rfl⟩)
      dsimp only
      rw [Tableau.pivot_eq_ok large]
  | recordedPivot pass row column =>
    unfold perform
    rcases lt_or_ge |session.tableau.entry row column.castSucc| session.tableau.epsilon with
      small | large
    · refine Or.inl ⟨_, ⟨row, column, small, rfl⟩, ?_⟩
      dsimp only
      rw [pass.pivot_eq_error small]
    · refine Or.inr (Or.inl ⟨row, column, ?_⟩)
      dsimp only
      rw [pass.pivot_eq_ok (isColumn row) large]
      exact ⟨_, large, rfl, rfl⟩
  | objective costs => exact Or.inr (Or.inr ⟨costs, _, rfl, rfl⟩)

/-- One request keeps a tableau canonical. -/
theorem canonical_perform (positive : 0 < session.tableau.epsilon)
    (canonical : session.tableau.Canonical) (request : Request ℚ m N) :
    (session.perform request).2.tableau.Canonical ∧
      (session.perform request).2.tableau.epsilon = session.tableau.epsilon := by
  rcases session.perform_cases canonical.isColumn request with
    ⟨failure, _, answer⟩ | ⟨row, column, next, large, answer, moved⟩ | ⟨costs, next, answer, loaded⟩
  · rw [answer]
    exact ⟨canonical, rfl⟩
  · rw [answer, moved]
    exact ⟨canonical.pivoted (Tableau.entry_ne_zero_of_le_abs positive large), rfl⟩
  · rw [answer, loaded]
    exact ⟨canonical.unitBasis.canonical_loadObjective costs, rfl⟩

theorem canonical_performAll (positive : 0 < session.tableau.epsilon)
    (canonical : session.tableau.Canonical) (requests : List (Request ℚ m N)) :
    (session.performAll requests).tableau.Canonical ∧
      (session.performAll requests).tableau.epsilon = session.tableau.epsilon := by
  induction requests generalizing session with
  | nil => exact ⟨canonical, rfl⟩
  | cons request rest ih =>
    rcases canonical_perform positive canonical request with ⟨kept, same⟩
    rcases ih (same ▸ positive) kept with ⟨later, epsilon⟩
    exact ⟨later, epsilon.trans same⟩

end Session

/-- Whatever is asked of a session on the first tableau of a problem, the
tableau stays canonical, exactly and by its own test.  A request is refused
only for an element below the tolerance, and changes neither the tableau nor
the recorded pivots then. -/
theorem Problem.canonical_session {m n : Nat} (p : Problem ℚ m n) (mode : ObjectiveMode ℚ)
    {epsilon : ℚ} (positive : 0 < epsilon) (trace : List (Step ℚ m p.width))
    (requests : List (Request ℚ m p.width)) :
    let session := Session.performAll ⟨p.tableau mode epsilon, trace⟩ requests
    session.tableau.Canonical ∧ session.tableau.isCanonical = true ∧
      ∀ request failure, (session.perform request).1 = .error failure →
        Session.Refusal session.tableau failure ∧ (session.perform request).2 = session := by
  intro session
  let start : Session ℚ m p.width := ⟨p.tableau mode epsilon, trace⟩
  have sound : start.tableau.Canonical := p.canonical_tableau mode epsilon
  have tolerant : 0 < start.tableau.epsilon := positive
  obtain ⟨canonical, same⟩ := Session.canonical_performAll tolerant sound requests
  have allowed : 0 ≤ session.tableau.epsilon := positive.le.trans_eq same.symm
  refine ⟨canonical, canonical.isCanonical_eq_true allowed, fun request failure refused => ?_⟩
  rcases session.perform_cases canonical.isColumn request with
    ⟨cause, small, answer⟩ | ⟨_, _, _, _, answer, _⟩ | ⟨_, _, answer, _⟩
  · rw [answer] at refused ⊢
    cases refused
    exact ⟨small, rfl⟩
  · rw [answer] at refused
    exact nomatch refused
  · rw [answer] at refused
    exact nomatch refused

/-- A session on the problem with rows of all senses: a pivot on a negative
element, another objective and a recorded pivot. -/
def threeSensesSession : Session ℚ 3 Problem.threeSensesProblem.width :=
  Session.performAll ⟨Problem.threeSensesProblem.tableau .phaseOne (1 / 1000), []⟩
    [.pivot (Problem.threeSensesRow 2) (Problem.threeSensesColumn 1),
      .objective #[1, 0, -1, 0, 2, 5].toVector,
      .recordedPivot (Problem.threeSensesProblem.pass .anyColumn 0 .single)
        (Problem.threeSensesRow 0) (Problem.threeSensesColumn 2)]

/-- A column that is basic in another row is refused, though nothing looks for it in the basis. -/
theorem canonical_threeSensesSession :
    (0 : ℚ) < 1 / 1000 ∧ threeSensesSession.tableau.basisNumbers = [2, 4, 1] ∧
      threeSensesSession.trace.length = 1 ∧ threeSensesSession.tableau.Canonical ∧
      threeSensesSession.tableau.isCanonical = true ∧
      (threeSensesSession.perform (.pivot 1 ⟨1, by decide⟩)).1 =
        .error (.error (.degeneratePivot 1 1 0)) ∧
      (threeSensesSession.perform (.pivot 1 ⟨1, by decide⟩)).2 = threeSensesSession := by
  have positive : (0 : ℚ) < 1 / 1000 := by decide +kernel
  have basis : threeSensesSession.tableau.basisNumbers = [2, 4, 1] := by decide +kernel
  have recorded : threeSensesSession.trace.length = 1 := by decide +kernel
  have refused : (threeSensesSession.perform (.pivot 1 ⟨1, by decide⟩)).1 =
      .error (.error (.degeneratePivot 1 1 0)) := by decide +kernel
  rcases Problem.threeSensesProblem.canonical_session .phaseOne positive [] [.pivot 2 ⟨1, by decide⟩,
      .objective #v[1, 0, -1, 0, 2, 5], .recordedPivot
        (Problem.threeSensesProblem.pass .anyColumn 0 .single) 0 ⟨2, by decide⟩] with
    ⟨canonical, tested, unchanged⟩
  exact ⟨positive, basis, recorded, canonical, tested, refused, (unchanged _ _ refused).2⟩

end LinearProgram
