import LinearProgram.Proofs.Representation

namespace LinearProgram

/-!
# Pivots at any place

A tableau can be pivoted on any of its cells and in any order, also where the
rules of the simplex method would not do so.  An element that is too small is
refused, and the tableau then stays as it is.  No sequence of such attempts
changes what the tableau says: its constraint rows keep their solutions, and
its last row keeps the objective that it expresses at each of them.
-/

namespace Tableau

section Attempts

variable {K : Type} [Scalar K] {m N : Nat}

/-- The tableau after a pivot, or the same tableau where the pivot is refused. -/
def attempt (T : Tableau K m N) (place : Fin m × Fin N) : Tableau K m N :=
  match T.pivot place.1 place.2.castSucc with
  | .ok (_, next) => next
  | .error _ => T

/-- The tableau after a sequence of pivots, refused ones included. -/
def attempts (T : Tableau K m N) (places : List (Fin m × Fin N)) : Tableau K m N :=
  places.foldl attempt T

/-- The tableau after a sequence of pivots, none of which is refused. -/
def pivots (T : Tableau K m N) (places : List (Fin m × Fin N)) :
    Except (Error K) (Tableau K m N) :=
  places.foldlM (fun U place => (U.pivot place.1 place.2.castSucc).map Prod.snd) T

theorem pivots_append (T : Tableau K m N) (places later : List (Fin m × Fin N)) :
    T.pivots (places ++ later) = T.pivots places >>= fun U => U.pivots later :=
  List.foldlM_append

theorem pivots_cons (T : Tableau K m N) (place : Fin m × Fin N) (later : List (Fin m × Fin N)) :
    T.pivots (place :: later) =
      (T.pivot place.1 place.2.castSucc).map Prod.snd >>= fun U => U.pivots later :=
  List.foldlM_cons

end Attempts

variable {m N : Nat} {T : Tableau ℚ m N}

variable (T) in
/-- An attempt pivots on an element that reaches the tolerance, or changes nothing. -/
theorem attempt_cases (place : Fin m × Fin N) :
    T.attempt place = T ∨
      T.epsilon ≤ |T.entry place.1 place.2.castSucc| ∧
        T.attempt place = T.pivoted place.1 place.2.castSucc := by
  unfold attempt
  rcases lt_or_ge |T.entry place.1 place.2.castSucc| T.epsilon with small | large
  · rw [pivot_eq_error small]
    exact Or.inl rfl
  · rw [pivot_eq_ok large]
    exact Or.inr ⟨large, rfl⟩

/-- What every pivot keeps holds after all attempts. -/
theorem attempts_invariant (Inv : Tableau ℚ m N → Prop)
    (preserved : ∀ U row (column : Fin N), Inv U → U.epsilon ≤ |U.entry row column.castSucc| →
      Inv (U.pivoted row column.castSucc))
    (start : Inv T) (places : List (Fin m × Fin N)) : Inv (T.attempts places) := by
  induction places generalizing T with
  | nil => exact start
  | cons place rest ih =>
    apply ih
    rcases T.attempt_cases place with same | ⟨large, moved⟩
    · rw [same]
      exact start
    · rw [moved]
      exact preserved T place.1 place.2 start large

@[simp]
theorem epsilon_attempts (T : Tableau ℚ m N) (places : List (Fin m × Fin N)) :
    (T.attempts places).epsilon = T.epsilon :=
  attempts_invariant (fun U => U.epsilon = T.epsilon) (fun _ _ _ same _ => same) rfl places

/-- Under a positive tolerance no pivot is made on a zero. -/
theorem attempts_invariant_of_ne_zero (positive : 0 < T.epsilon) (Inv : Tableau ℚ m N → Prop)
    (preserved : ∀ U row (column : Fin N), Inv U → U.entry row column.castSucc ≠ 0 →
      Inv (U.pivoted row column.castSucc))
    (start : Inv T) (places : List (Fin m × Fin N)) : Inv (T.attempts places) := by
  have both := attempts_invariant (T := T) (fun U => Inv U ∧ 0 < U.epsilon) ?_
    ⟨start, positive⟩ places
  · exact both.1
  · rintro U row column ⟨holds, positive⟩ large
    exact ⟨preserved U row column holds (entry_ne_zero_of_le_abs positive large), positive⟩

theorem attempts_cons (T : Tableau ℚ m N) (place : Fin m × Fin N) (later : List (Fin m × Fin N)) :
    T.attempts (place :: later) = (T.attempt place).attempts later :=
  List.foldl_cons

theorem attempts_append (T : Tableau ℚ m N) (places later : List (Fin m × Fin N)) :
    T.attempts (places ++ later) = (T.attempts places).attempts later :=
  List.foldl_append

theorem attempt_of_pivot {row : Fin m} {column : Fin N} {element : ℚ} {next : Tableau ℚ m N}
    (made : T.pivot row column.castSucc = .ok (element, next)) :
    T.attempt (row, column) = next := by
  unfold attempt
  rw [made]

end Tableau

namespace Problem

variable {m n : Nat}

theorem represents_attempts (p : Problem ℚ m n) (mode : ObjectiveMode ℚ) {epsilon : ℚ}
    (positive : 0 < epsilon) (places : List (Fin m × Fin p.width)) :
    p.Represents mode ((p.tableau mode epsilon).attempts places) :=
  Tableau.attempts_invariant_of_ne_zero positive (p.Represents mode)
    (fun _ _ _ represents nonzero => represents.pivoted nonzero)
    (p.represents_tableau mode epsilon) places

/-- After any attempts at pivots the constraint rows of the first tableau have
the same solutions, and at each of them the last row still gives the objective
that was loaded. -/
theorem sameProgram_attempts (p : Problem ℚ m n) (mode : ObjectiveMode ℚ) {epsilon : ℚ}
    (positive : 0 < epsilon) (places : List (Fin m × Fin p.width)) (v : Fin p.width → ℚ) :
    (((p.tableau mode epsilon).attempts places).Solves v ↔ (p.tableau mode epsilon).Solves v) ∧
      (((p.tableau mode epsilon).attempts places).Solves v →
        ∑ j : Fin p.width, (p.costs mode)[j] * v j =
          ((p.tableau mode epsilon).attempts places).objectiveRhs -
            ∑ j : Fin p.width, ((p.tableau mode epsilon).attempts places).reducedCost j * v j) := by
  have represents := p.represents_attempts mode positive places
  constructor
  · rw [represents.solves_iff, solves_tableau_iff]
  · intro solves
    have priced := represents.prices v solves
    simp only [costs_getElem]
    exact priced.symm

/-- A problem with a row of each sense. -/
def threeSensesProblem : Problem ℚ 3 2 where
  objective := #[2, 3].toVector
  coefficients := #[#[1, 1].toVector, #[1, 0].toVector, #[1, -1].toVector].toVector
  rhs := #[5, 4, 1].toVector
  senses := #[.ge, .le, .eq].toVector
  direction := .minimize
  names := #["x", "y"].toVector
  variables_pos := Nat.zero_lt_two

/-- A row by its number, counted around. -/
def threeSensesRow (number : Nat) : Fin 3 :=
  Fin.ofNat 3 number

/-- A column by its number, counted around. -/
def threeSensesColumn (number : Nat) : Fin threeSensesProblem.width :=
  ⟨number % threeSensesProblem.width, Nat.mod_lt number (by decide)⟩

/-- Places for five pivots.  The first is refused under a tolerance of 1/1000,
and the last brings an artificial column back at a negative value. -/
def detour : List (Fin 3 × Fin threeSensesProblem.width) :=
  [(threeSensesRow 1, threeSensesColumn 1), (threeSensesRow 2, threeSensesColumn 1),
    (threeSensesRow 0, threeSensesColumn 2), (threeSensesRow 1, threeSensesColumn 0),
    (threeSensesRow 0, threeSensesColumn 3)]

/-- The columns of a feasible point solve the rows at the end of the detour, and
the last row gives them the objective of the point. -/
theorem sameProgram_detour :
    (0 : ℚ) < 1 / 1000 ∧
      ((threeSensesProblem.tableau (.bigM 100) (1 / 1000)).attempts detour).basisNumbers =
        [3, 0, 1] ∧
      ((threeSensesProblem.tableau (.bigM 100) (1 / 1000)).attempts detour).Solves
        (threeSensesProblem.lift ![3, 2]) ∧
      ((threeSensesProblem.tableau (.bigM 100) (1 / 1000)).attempts detour).objectiveRhs -
          ∑ j : Fin threeSensesProblem.width,
            ((threeSensesProblem.tableau (.bigM 100) (1 / 1000)).attempts detour).reducedCost j *
              threeSensesProblem.lift ![3, 2] j = -12 := by
  have positive : (0 : ℚ) < 1 / 1000 := by decide +kernel
  have basis : ((threeSensesProblem.tableau (.bigM 100) (1 / 1000)).attempts
      detour).basisNumbers = [3, 0, 1] := by decide +kernel
  have start : (threeSensesProblem.tableau (.bigM 100) (1 / 1000)).Solves
      (threeSensesProblem.lift ![3, 2]) := by
    unfold Tableau.Solves
    decide +kernel
  have objective : ∑ j : Fin threeSensesProblem.width,
      (threeSensesProblem.costs (.bigM 100))[j] * threeSensesProblem.lift ![3, 2] j = -12 := by
    decide +kernel
  rcases sameProgram_attempts threeSensesProblem (.bigM 100) positive detour
    (threeSensesProblem.lift ![3, 2]) with ⟨same, priced⟩
  have solves := same.mpr start
  exact ⟨positive, basis, solves, (priced solves).symm.trans objective⟩

end Problem
end LinearProgram
