import LinearProgram.Proofs.Simplex.Ascent
import LinearProgram.Proofs.Tableau.Rank
import LinearProgram.Proofs.TwoPhase.Correctness

namespace LinearProgram

/-!
# The redundant rows and no others stay with artificial columns

The search for replacements looks at each row once, while its own pivots change
the rows around.  On a sharp course it isolates a row where it finds nothing,
and neither a later replacement nor the second phase touches an isolated row.
After the search every row with an artificial column in the basis is isolated,
and the other rows have independent parts outside of the artificial columns.
Their number is therefore the rank of these columns, which no pivot changes.
-/

variable {m n : Nat}

namespace Problem

variable {p : Problem ℚ m n} {T : Tableau ℚ m p.width}

/-- The columns that are not artificial. -/
abbrev Ordinary (p : Problem ℚ m n) (j : Fin p.width) : Prop :=
  p.tags[j].isArtificial = false

/-- The rank of the constraint rows outside of the artificial columns. -/
noncomputable def ordinaryRank (p : Problem ℚ m n) (T : Tableau ℚ m p.width) : Nat :=
  (T.columnsOf p.Ordinary).rank

theorem mem_rowsOf_ordinary (unit : T.UnitBasis) {row : Fin m} :
    row ∈ T.rowsOf p.Ordinary ↔ row ∉ p.artificialRows T := by
  obtain ⟨j, basic⟩ : ∃ j : Fin p.width, T.basis[row] = j.castSucc :=
    ⟨⟨_, unit.isColumn row⟩, rfl⟩
  rw [Tableau.mem_rowsOf, mem_artificialRows, basic, isArtificialColumn_castSucc,
    Bool.not_eq_true]
  constructor
  · rintro ⟨other, ordinary, same⟩
    rwa [Fin.castSucc_injective _ same]
  · exact fun ordinary => ⟨j, ordinary, rfl⟩

/-- Where all rows are isolated, those that are not left with an artificial
column are as many as the rank of the other columns. -/
theorem card_artificialRows_add_rank (unit : T.UnitBasis) (isolated : ∀ row, p.Isolated T row) :
    (p.artificialRows T).card + p.ordinaryRank T = m := by
  have others : T.rowsOf p.Ordinary = (p.artificialRows T)ᶜ := by
    ext row
    rw [mem_rowsOf_ordinary unit, Finset.mem_compl]
  have rank : p.ordinaryRank T = (T.rowsOf p.Ordinary).card := by
    refine unit.rank_columnsOf fun row outside j ordinary => ?_
    rw [mem_rowsOf_ordinary unit, not_not, mem_artificialRows] at outside
    exact isolated row outside j ordinary
  rw [rank, others, Finset.card_add_card_compl, Fintype.card_fin]

/-- All tableaus of a problem have the same rank outside of the artificial columns. -/
theorem Represents.ordinaryRank_eq {mode other : ObjectiveMode ℚ} {U : Tableau ℚ m p.width}
    (represents : p.Represents mode T) (second : p.Represents other U) :
    p.ordinaryRank U = p.ordinaryRank T :=
  le_antisymm
    (represents.canonical.unitBasis.rank_columnsOf_le _ (represents.solves_of_solves second))
    (second.canonical.unitBasis.rank_columnsOf_le _ (second.solves_of_solves represents))

/-- A pivot in a row at zero changes no right hand side, that of the row of
reduced costs included. -/
theorem cell_last_pivoted {row : Fin m} {column : Fin (p.width + 1)}
    (nonzero : T.entry row column ≠ 0) (zero : T.rhs row = 0) (i : Fin (m + 1)) :
    (T.pivoted row column).cell i (Fin.last p.width) = T.cell i (Fin.last p.width) := by
  refine Fin.lastCases ?_ (rhs_pivoted_of_rhs_eq_zero nonzero zero) i
  change (T.pivoted row column).objectiveRhs = T.objectiveRhs
  rw [Tableau.objectiveRhs_pivoted nonzero, zero, zero_div, mul_zero, sub_zero]

/-- A chosen pivot on a column that is not artificial is not made in an isolated
row with an artificial column. -/
theorem not_mem_artificialRows_of_pos {row : Fin m} {column : Fin p.width}
    (isolated : p.Isolated T row) (ordinary : p.Ordinary column)
    (positive : 0 < T.entry row column.castSucc) : row ∉ p.artificialRows T := fun artificial =>
  positive.ne' (isolated (mem_artificialRows.mp artificial) column ordinary)

theorem artificialRows_pivoted {row : Fin m} {column : Fin p.width}
    (ordinary : p.Ordinary column) (outside : row ∉ p.artificialRows T) :
    p.artificialRows (T.pivoted row column.castSucc) = p.artificialRows T := by
  ext own
  constructor
  · intro member
    exact mem_artificialRows.mpr (artificial_of_pivoted ordinary (mem_artificialRows.mp member)).2
  · intro member
    have elsewhere : own ≠ row := fun same => outside (same ▸ member)
    rw [mem_artificialRows, Tableau.basis_pivoted, if_neg elsewhere]
    exact mem_artificialRows.mp member

end Problem

namespace TwoPhase

open Problem

variable {q : Problem ℚ m n} {options : Options ℚ}

/-- What a tableau of the second phase says about the rows in which an artificial
column is basic.  They are the rows of the start of the phase, with the same
basic columns, and they are zero on the right hand side and in all columns that
are not artificial.  There are as many of them as the rank of these columns
falls short of the number of rows. -/
structure Settled (q : Problem ℚ m n) (initial start T : Tableau ℚ m q.width) : Prop where
  rows : q.artificialRows T = q.artificialRows start
  basis : ∀ row ∈ q.artificialRows T, T.basis[row] = start.basis[row]
  rhs : ∀ row ∈ q.artificialRows T, T.rhs row = 0
  entry : ∀ row ∈ q.artificialRows T, ∀ j : Fin q.width, q.Ordinary j →
    T.entry row j.castSucc = 0
  noArtificial : q.NoArtificial T.columnValue
  count : (q.artificialRows T).card + q.ordinaryRank initial = m

/-- Artificial columns that are basic in isolated rows keep their places in the second phase. -/
theorem artificialRows_secondRun (positive : 0 < options.epsilon)
    (isolated : ∀ T ∈ (secondRun q options).tableaus (secondTableau q (cleanup q options)),
      ∀ row, q.Isolated T row) :
    ∀ T ∈ (secondRun q options).tableaus (secondTableau q (cleanup q options)),
      q.artificialRows T = q.artificialRows (secondTableau q (cleanup q options)) ∧
        ∀ row ∈ q.artificialRows T,
          T.basis[row] = (secondTableau q (cleanup q options)).basis[row] := by
  refine secondRun_invariant positive (fun T => ∀ row, q.Isolated T row) _ ?_
    ⟨rfl, fun _ _ => rfl⟩ isolated
  rintro T row column ⟨rows, basis⟩ isolated chosen
  have ordinary := (secondPass_allowed_iff column).mp chosen.allowed
  -- The element is positive, so the isolated rows are not the pivot row.
  have outside := not_mem_artificialRows_of_pos (isolated row) ordinary chosen.entry_pos
  have still := artificialRows_pivoted ordinary outside
  refine ⟨still.trans rows, fun own member => ?_⟩
  rw [still] at member
  have elsewhere : own ≠ row := fun same => outside (same ▸ member)
  rw [Tableau.basis_pivoted, if_neg elsewhere]
  exact basis own member

section Completed

variable (positive : 0 < options.epsilon) (feasible : ∀ row : Fin m, 0 ≤ q.rhs[row])
  (small : -(firstRun q options).final.objectiveRhs ≤ options.epsilon)
  (sharp : ∀ T ∈ tableaus q options
    (.completed (firstRun q options) (cleanup q options) (secondRun q options)), T.Sharp)
include positive feasible small sharp

/-- On a sharp course the replacements are made in rows at zero. -/
theorem cell_last_cleanup : ∀ T ∈ cleanupTableaus q options, ∀ i : Fin (m + 1),
    T.cell i (Fin.last q.width) = (firstRun q options).final.cell i (Fin.last q.width) := by
  have steady := steady_of_sharp positive feasible small sharp
  have kept := cleanup_invariant (p := q) positive
    (fun T => ∀ row : Fin m, q.isArtificialColumn T.basis[row] = true →
      replacement? q T row ≠ none → T.rhs row = 0)
    (fun _ T => ∀ i : Fin (m + 1),
      T.cell i (Fin.last q.width) = (firstRun q options).final.cell i (Fin.last q.width))
    (fun _ _ _ inv _ => inv) (fun _ _ _ inv _ _ _ _ _ => inv) ?_ (fun _ => rfl) steady.replaced
  · intro T member
    rcases kept.2.2 T member with ⟨_, same⟩
    exact same
  · intro row _ T column same guard replaces i
    have zero := guard row replaces.artificial (replaces.found ▸ Option.some_ne_none column)
    rw [cell_last_pivoted replaces.nonzero zero, same]

theorem settled_secondRun :
    ∀ T ∈ (secondRun q options).tableaus (secondTableau q (cleanup q options)),
      Settled q (firstTableau q options) (secondTableau q (cleanup q options)) T := by
  have isolated := isolated_of_sharp positive sharp
  intro T member
  have within := within_secondRun positive feasible
    (steady_of_sharp positive feasible small sharp) T member
  rw [objectiveRhs_of_sharp positive feasible small sharp, neg_zero] at within
  rcases artificialRows_secondRun positive isolated T member with ⟨rows, basis⟩
  rcases represents_secondRun positive T member with ⟨represents, _⟩
  have unit := represents.canonical.unitBasis
  have rank : q.ordinaryRank (firstTableau q options) = q.ordinaryRank T :=
    represents.ordinaryRank_eq (q.represents_tableau .phaseOne options.epsilon)
  exact {
    rows
    basis
    rhs := fun row artificial => within.rhs_eq_zero (mem_artificialRows.mp artificial)
    entry := fun row artificial => isolated T member row (mem_artificialRows.mp artificial)
    noArtificial := within.noArtificial unit
    count := rank ▸ card_artificialRows_add_rank unit (isolated T member) }

omit feasible small in
/-- No artificial column leaves the basis in the second phase. -/
theorem leaving_secondRun : ∀ pivot ∈ (secondRun q options).pivots
      (secondTableau q (cleanup q options)), q.Ordinary pivot.2.leaving := by
  rintro ⟨U, step⟩ member
  have visited := Run.fst_mem_tableaus member
  rcases Pass.picks_of_mem_pivots member with ⟨picks, number, records⟩
  rcases represents_secondRun positive U visited with ⟨_, epsilon⟩
  have ordinary := (secondPass_allowed_iff _).mp (Tableau.entering?_spec picks.1).1
  have outside := not_mem_artificialRows_of_pos
    (isolated_of_sharp positive sharp U visited step.row) ordinary
    (picks.entry_pos (epsilon ▸ positive.le))
  rwa [mem_artificialRows, records.leaves, isArtificialColumn_castSucc, Bool.not_eq_true]
    at outside

end Completed

/-- **The search for replacements isolates the redundant rows.**  On a sharp
course that reaches the second phase no replacement changes a right hand side.
All through the second phase the rows with an artificial column in the basis
are the same, with zeros in all columns of another kind and on the right hand
side.  Their artificial columns stay where they are and all artificial values
are zero.  The number of these rows is the number of all rows less the rank of
the first tableau outside of the artificial columns. -/
theorem replacements_isolate_redundant_rows (p : Problem ℚ m n) {options : Options ℚ}
    (valid : options.validate = .ok ()) (sharp : SharpCourse p options)
    {first second : Run ℚ m p.normalized.width} {between : Cleanup ℚ m p.normalized.width}
    (reached : courseNormalized p.normalized options = .completed first between second) :
    let q := p.normalized
    let start := secondTableau q between
    (∀ step ∈ between.steps, ∀ i : Fin (m + 1),
        step.next.cell i (Fin.last q.width) = first.final.cell i (Fin.last q.width)) ∧
      (∀ T ∈ second.tableaus start, Settled q (firstTableau q options) start T) ∧
      ∀ pivot ∈ second.pivots start, q.Ordinary pivot.2.leaving := by
  rcases Options.validate_eq_ok valid with ⟨positive, _, _⟩
  rcases exists_concludes p valid with ⟨solution, _, concludes⟩
  unfold SharpCourse at sharp
  rw [reached] at sharp
  cases concludes with
  | stopped termination short stops course reports => exact nomatch course.symm.trans reached
  | infeasible stops large course reports => exact nomatch course.symm.trans reached
  | completed termination small stops course reports =>
    cases course.symm.trans reached
    refine ⟨fun step member i => ?_, settled_secondRun positive p.normalized_rhs_nonneg small sharp,
      leaving_secondRun positive sharp⟩
    exact cell_last_cleanup positive p.normalized_rhs_nonneg small sharp _
      (List.mem_cons_of_mem _ (List.mem_map_of_mem member)) i

/-- Three equations that leave two variables no choice, one of them redundant. -/
def pinnedProblem : Problem ℚ 4 3 where
  objective := #[1, 0, 1].toVector
  coefficients := #[#[-1, 1, 0].toVector, #[-1, -1, 0].toVector, #[-2, 0, 0].toVector,
    #[0, 1, 1].toVector].toVector
  rhs := #[0, 0, 0, 3].toVector
  senses := #[.eq, .eq, .eq, .le].toVector
  direction := .maximize
  names := #["x", "y", "z"].toVector
  variables_pos := Nat.succ_pos (nat_lit 2)

/-- All three equations start with an artificial column, two of which are
replaced.  The third one stays through the second phase. -/
theorem pinnedProblem_redundant_row :
    let q := pinnedProblem.normalized
    let first := firstRun q Options.default
    let between := cleanup q Options.default
    let second := secondRun q Options.default
    let start := secondTableau q between
    Options.default.validate (K := ℚ) = .ok () ∧
      SharpCourse pinnedProblem Options.default ∧
      courseNormalized q Options.default = .completed first between second ∧
      between.steps.length = 2 ∧ second.iterations = 1 ∧ q.artificialRows start = {2} ∧
      q.ordinaryRank (firstTableau q Options.default) = 3 ∧
      (∀ step ∈ between.steps, ∀ i : Fin 5,
        step.next.cell i (Fin.last q.width) = first.final.cell i (Fin.last q.width)) ∧
      (∀ T ∈ second.tableaus start, Settled q (firstTableau q Options.default) start T) ∧
      ∀ pivot ∈ second.pivots start, q.Ordinary pivot.2.leaving := by
  intro q first between second start
  have valid : Options.default.validate (K := ℚ) = .ok () := by decide +kernel
  have sharp : SharpCourse pinnedProblem Options.default := by decide +kernel
  have ending : first.ending = .ok .optimal := by decide +kernel
  have unbroken : between.failure? = none := by decide +kernel
  have course : courseNormalized q Options.default = .completed first between second :=
    (courseNormalized_of_optimal rfl ending).trans
      (continueFrom_of_unbroken (by decide +kernel) unbroken)
  have left : q.artificialRows start = {2} := by decide +kernel
  rcases replacements_isolate_redundant_rows pinnedProblem valid sharp course with
    ⟨still, settled, ordinary⟩
  have count := (settled start List.mem_cons_self).count
  rw [left, Finset.card_singleton] at count
  exact ⟨valid, sharp, course, by decide +kernel, by decide +kernel, left,
    Nat.add_left_cancel count, still, settled, ordinary⟩

end TwoPhase
end LinearProgram
