import LinearProgram.Proofs.BigM.Decomposition
import LinearProgram.Proofs.BigM.Optimum
import LinearProgram.Proofs.Recession
import LinearProgram.Proofs.Tableau.SameBasis

namespace LinearProgram

/-!
# Penalties that are large enough

A penalty misleads the method where artificial columns pay: in a basic solution
that holds some of them and is still better than a feasible point, or along a
ray that moves some of them and still improves.  Basic solutions and rays do not
depend on the penalty, and a problem has finitely many of them.  So there is a
penalty above which none of them pays, and from there on the sharp runs of the
method tell the truth.

The bound belongs to the problem: a price of 2²¹ is enough to mislead the
default penalty.
-/

variable {m n : Nat}

namespace Problem

/-- A tableau whose rows are the equations of a problem, solved for a basis. -/
structure Restates (p : Problem ℚ m n) (T : Tableau ℚ m p.width) : Prop where
  unit : T.UnitBasis
  solves_iff : ∀ v, T.Solves v ↔ p.Equations v

theorem Represents.restates {p : Problem ℚ m n} {mode : ObjectiveMode ℚ}
    {T : Tableau ℚ m p.width} (represents : p.Represents mode T) : p.Restates T :=
  ⟨represents.canonical.unitBasis, represents.solves_iff⟩

theorem Restates.solves_of_solves {p : Problem ℚ m n} {T U : Tableau ℚ m p.width}
    (first : p.Restates T) (second : p.Restates U) (v : Fin p.width → ℚ) (solves : T.Solves v) :
    U.Solves v :=
  (second.solves_iff v).mpr ((first.solves_iff v).mp solves)

/-- For column values that the basis determines there is a penalty above which
no artificial part of them pays. -/
theorem exists_penalty (p : Problem ℚ m n) (value : Tableau ℚ m p.width → Fin p.width → ℚ)
    (determined : ∀ T U, p.Restates T → p.Restates U → T.basisSet = U.basisSet →
      value T = value U)
    (level : ℚ) :
    ∃ least, ∀ penalty, least < penalty → ∀ T, p.Restates T → 0 < p.artificialSum (value T) →
      p.gain (p.decisionPart (value T)) - penalty * p.artificialSum (value T) < level := by
  obtain ⟨least, bound⟩ := Tableau.exists_bound_of_basisSet p.Restates
    (fun T => (p.gain (p.decisionPart (value T)) - level) / p.artificialSum (value T))
    fun T U first second same => by rw [determined T U first second same]
  refine ⟨least, fun penalty larger T restates positive => ?_⟩
  have below := (div_lt_iff₀ positive).mp ((bound T restates).trans_lt larger)
  linarith

/-- A penalty above which no basic solution with an artificial part is better
than the given level. -/
theorem exists_penalty_columnValue (p : Problem ℚ m n) (level : ℚ) :
    ∃ least, ∀ penalty, least < penalty → ∀ T, p.Restates T →
      0 < p.artificialSum T.columnValue →
      p.gain (p.decisionPart T.columnValue) - penalty * p.artificialSum T.columnValue < level :=
  p.exists_penalty Tableau.columnValue (fun _ _ first second same =>
    Tableau.columnValue_eq_of_basisSet_eq first.unit second.unit (first.solves_of_solves second)
      same)
    level

/-- A penalty above which no ray that moves artificial columns improves. -/
theorem exists_penalty_ray (p : Problem ℚ m n) :
    ∃ least, ∀ penalty, least < penalty → ∀ T, p.Restates T → ∀ column,
      0 < p.artificialSum (T.ray column) →
      p.gain (p.decisionPart (T.ray column)) - penalty * p.artificialSum (T.ray column) < 0 := by
  have each := fun column : Fin p.width => p.exists_penalty (fun T => T.ray column)
    (fun _ _ first second same => Tableau.ray_eq_of_basisSet_eq first.unit second.unit
      (first.solves_of_solves second) same column) 0
  choose least below using each
  rcases (Set.finite_range least).bddAbove with ⟨largest, above⟩
  exact ⟨largest, fun penalty larger T restates column =>
    below column penalty ((above ⟨column, rfl⟩).trans_lt larger) T restates⟩

end Problem

namespace BigM

open Problem

section Sharp

variable {p : Problem ℚ m n} {options : Options ℚ} (sharp : SharpRun p options)
  {solution : Solution ℚ} (solved : solve p options = .ok solution)
include sharp solved

/-- A sharp report of infeasibility holds artificial columns above zero at a
basic solution that is at least as good as every feasible point. -/
theorem infeasible_cases (none : solution.outcome = .infeasible) :
    ∃ T, p.normalized.Restates T ∧ 0 < p.normalized.artificialSum T.columnValue ∧
      ∀ y, p.normalized.Admits y →
        p.normalized.gain y ≤ p.normalized.gain (p.normalized.decisionPart T.columnValue) -
          options.bigM * p.normalized.artificialSum T.columnValue := by
  have positive := epsilon_pos_of_solve solved
  rcases concludes_of_solve solved with ⟨termination, concludes⟩
  rcases outcome_eq_infeasible (concludes.outcome_eq.symm.trans none) with
    ⟨rfl, row, artificial, large⟩
  rcases represents_final (p := p.normalized) positive with ⟨represents, epsilon⟩
  have unit := represents.canonical.unitBasis
  have nonnegative := nonnegativeRhs_of_sharp sharp positive
  refine ⟨_, represents.restates, ?_, fun y admits =>
    represents.gain_le_penalized (reducedCost_nonneg_of_sharp sharp concludes.stops) admits⟩
  rw [artificialSum_columnValue unit]
  refine Finset.sum_pos' (fun other _ => nonnegative other) ⟨row, ?_, ?_⟩
  · exact mem_artificialRows.mpr artificial
  · rw [epsilon] at large
    exact positive.trans large

/-- A sharp report of an unbounded problem follows a ray of nonnegative column
values that improves under the penalty. -/
theorem unbounded_cases (endless : solution.outcome = .unbounded) :
    ∃ T column, p.normalized.Represents (.bigM options.bigM) T ∧
      (∀ row, T.entry row column.castSucc ≤ 0) ∧
      0 < p.normalized.gain (p.normalized.decisionPart (T.ray column)) -
        options.bigM * p.normalized.artificialSum (T.ray column) := by
  have positive := epsilon_pos_of_solve solved
  rcases concludes_of_solve solved with ⟨termination, concludes⟩
  rcases outcome_eq_unbounded (concludes.outcome_eq.symm.trans endless) with ⟨column, rfl⟩
  rcases represents_final (p := p.normalized) positive with ⟨represents, epsilon⟩
  refine ⟨_, column, represents, (sharp_final sharp).entry_nonpos concludes.stops.2, ?_⟩
  have improving := (Tableau.entering?_spec concludes.stops.1).2
  rw [epsilon] at improving
  rw [← sum_columnCost_bigM, represents.sum_columnCost_ray]
  linarith

end Sharp

/-- Above some penalty sharp reports of infeasibility are true. -/
theorem exists_penalty_infeasible (p : Problem ℚ m n) :
    ∃ least : ℚ, ∀ options : Options ℚ, least < options.bigM → SharpRun p options →
      ∀ solution, solve p options = .ok solution → solution.outcome = .infeasible →
        p.Infeasible := by
  by_cases feasible : ∃ y, p.normalized.Admits y
  -- The penalty makes the basic solution worse than this one feasible point.
  · rcases feasible with ⟨y, admits⟩
    rcases p.normalized.exists_penalty_columnValue (p.normalized.gain y) with ⟨least, below⟩
    refine ⟨least, fun options larger sharp solution solved none => ?_⟩
    rcases infeasible_cases sharp solved none with ⟨T, restates, held, best⟩
    exact absurd (best y admits) (not_le.mpr (below options.bigM larger T restates held))
  · refine ⟨0, fun options _ _ solution _ _ x point => feasible ?_⟩
    rcases point.exists_ofFn with ⟨y, _, admits⟩
    exact ⟨y, (p.admits_normalized_iff y).mpr admits⟩

/-- Above some penalty a sharp report of an unbounded problem follows a ray that
moves no artificial column, so one feasible point is enough for all bounds. -/
theorem exists_penalty_unbounded (p : Problem ℚ m n) :
    ∃ least : ℚ, ∀ options : Options ℚ, least < options.bigM → SharpRun p options →
      ∀ solution, solve p options = .ok solution → solution.outcome = .unbounded →
        p.Infeasible ∨ p.Unbounded := by
  rcases p.normalized.exists_penalty_ray with ⟨least, falling⟩
  refine ⟨least, fun options larger sharp solution solved endless => ?_⟩
  rcases unbounded_cases sharp solved endless with ⟨T, column, represents, below, rising⟩
  have nonnegative := Tableau.ray_nonneg below
  -- A ray that moves an artificial column does not improve under this penalty.
  have still : p.normalized.artificialSum (T.ray column) = 0 := by
    by_contra moved
    have positive := (artificialSum_nonneg nonnegative).lt_of_ne (Ne.symm moved)
    exact absurd rising (falling options.bigM larger T represents.restates column positive).not_gt
  rw [still, mul_zero, sub_zero] at rising
  have recedes := represents.recedes_ray below
    (noArtificial_of_artificialSum_eq_zero nonnegative still)
  by_cases feasible : p.Infeasible
  · exact Or.inl feasible
  · have point : ∃ x, p.Feasible x := by simpa [Problem.Infeasible] using feasible
    rcases point with ⟨x, feasiblePoint⟩
    rcases feasiblePoint.exists_ofFn with ⟨y, _, admits⟩
    have unbounded := recedes.unbounded ((p.admits_normalized_iff y).mpr admits) rising
    exact Or.inr ((p.unbounded_normalized_iff).mp unbounded)

/-- Every problem has a penalty above which the outcome of a sharp run is true:
an optimum is optimal, a problem that is reported to be infeasible has no
feasible point, and one that is reported to be unbounded has no optimum. -/
theorem exists_exact_penalty (p : Problem ℚ m n) :
    ∃ least : ℚ, ∀ options : Options ℚ, options.validate = .ok () → least < options.bigM →
      SharpRun p options → ∃ solution, solve p options = .ok solution ∧
        (solution.outcome = .optimal → p.Optimal (solution.decisionValues n)) ∧
        (solution.outcome = .infeasible → p.Infeasible) ∧
        (solution.outcome = .unbounded →
          (∀ x, ¬ p.Optimal x) ∧ (p.Infeasible ∨ p.Unbounded)) := by
  rcases exists_penalty_infeasible p with ⟨first, infeasible⟩
  rcases exists_penalty_unbounded p with ⟨second, unbounded⟩
  refine ⟨max first second, fun options valid larger sharp => ?_⟩
  rcases max_lt_iff.mp larger with ⟨aboveFirst, aboveSecond⟩
  rcases exists_concludes p valid with ⟨solution, solved, _⟩
  refine ⟨solution, solved, optimal_of_sharp sharp solved,
    infeasible options aboveFirst sharp solution solved, fun endless => ?_⟩
  have either := unbounded options aboveSecond sharp solution solved endless
  refine ⟨fun x optimal => ?_, either⟩
  rcases either with none | above
  · exact none x optimal.feasible
  · exact optimal.not_unbounded above

/-! ## A penalty that is too small -/

/-- An equation whose only variable is expensive.  It can be satisfied just when
the variable takes part in it. -/
def tollProblem (passable : Bool) : Problem ℚ 1 1 where
  objective := #[2 ^ 21].toVector
  coefficients := #[#[if passable then 1 else 0].toVector].toVector
  rhs := #[1].toVector
  senses := #[.eq].toVector
  direction := .minimize
  names := #["x"].toVector
  variables_pos := Nat.zero_lt_one

/-- The default options with another penalty. -/
def withPenalty (penalty : ℚ) : Options ℚ := { Options.default with bigM := penalty }

section Toll

theorem feasible_tollProblem : (tollProblem true).Feasible [1] where
  length_eq := rfl
  nonnegative _ member := (List.mem_singleton.mp member).symm ▸ zero_le_one
  holds row := by
    rw [Subsingleton.elim row 0]
    change (tollProblem true).activity 0 [1] = 1
    decide +kernel

variable (passable : Bool) (penalty : ℚ)

/-- A feasible point satisfies the equation. -/
theorem exists_of_feasible_tollProblem {x : List ℚ} (feasible : (tollProblem passable).Feasible x) :
    ∃ y : Fin 1 → ℚ, x = List.ofFn y ∧ (if passable then y 0 else 0) = 1 := by
  rcases feasible.exists_ofFn with ⟨y, listed, admits⟩
  have equation : (tollProblem passable).leftSide 0 y = 1 := admits.holds 0
  have coefficient : (tollProblem passable).coefficients[(0 : Fin 1)][(0 : Fin 1)] =
      if passable then 1 else 0 := by
    cases passable <;> rfl
  rw [Problem.leftSide, Fin.sum_univ_one, coefficient, ite_mul, one_mul, zero_mul] at equation
  exact ⟨y, listed, equation⟩

theorem eq_one_of_feasible {x : List ℚ} (feasible : (tollProblem true).Feasible x) : x = [1] := by
  rcases exists_of_feasible_tollProblem true feasible with ⟨y, rfl, equation⟩
  rw [if_pos rfl] at equation
  rw [List.ofFn_succ, List.ofFn_zero, equation]

theorem infeasible_tollProblem : (tollProblem false).Infeasible := by
  intro x feasible
  rcases exists_of_feasible_tollProblem false feasible with ⟨y, _, equation⟩
  exact zero_ne_one equation

theorem normalized_tollProblem : (tollProblem passable).normalized = tollProblem passable := by
  decide +kernel +revert

/-- The column of the variable. -/
def tollColumn : Fin (tollProblem passable).width := (tollProblem passable).decisionColumn 0

/-- Only the variable may enter. -/
theorem eq_tollColumn_of_allowed {column : Fin (tollProblem passable).width}
    (allowed : (pass (tollProblem passable) (withPenalty penalty)).allowed column = true) :
    column = tollColumn passable := by
  have own := (pass_allowed_iff column).mp allowed
  clear allowed
  cases passable <;> decide +revert

/-- The tableau that the method starts from under a penalty. -/
def tollStart : Tableau ℚ 1 (tollProblem passable).width :=
  startTableau (tollProblem passable) (withPenalty penalty)

theorem default_epsilon :
    0 < (Options.default : Options ℚ).epsilon ∧ (Options.default : Options ℚ).epsilon < 1 := by
  decide +kernel

theorem canonical_tollStart : (tollStart passable penalty).Canonical :=
  (tollProblem passable).canonical_tableau _ _

/-- What the variable costs by itself, and what it saves in the first phase. -/
theorem tollColumn_cells :
    let plain := (tollProblem passable).tableau .plain Options.default.epsilon
    let phaseOne := (tollProblem passable).tableau .phaseOne Options.default.epsilon
    plain.entry 0 (tollColumn passable).castSucc = (if passable then 1 else 0) ∧
      plain.reducedCost (tollColumn passable) = 2 ^ 21 ∧
      phaseOne.reducedCost (tollColumn passable) = if passable then -1 else 0 := by
  decide +kernel +revert

theorem combines_tollStart :
    Tableau.Combines penalty ((tollProblem passable).tableau .plain Options.default.epsilon)
      ((tollProblem passable).tableau .phaseOne Options.default.epsilon)
      (tollStart passable penalty) :=
  (tollProblem passable).combines_attempts default_epsilon.1 [] penalty

theorem entry_tollStart :
    (tollStart passable penalty).entry 0 (tollColumn passable).castSucc =
      if passable then 1 else 0 :=
  ((combines_tollStart passable penalty).entry 0 _).1.trans (tollColumn_cells passable).1

/-- The variable costs its price and saves the penalty on what it replaces. -/
theorem reducedCost_tollStart :
    (tollStart passable penalty).reducedCost (tollColumn passable) =
      2 ^ 21 + penalty * if passable then -1 else 0 := by
  rcases tollColumn_cells passable with ⟨_, plain, phaseOne⟩
  rw [← plain, ← phaseOne]
  exact (combines_tollStart passable penalty).objective (tollColumn passable).castSucc

variable {penalty}

theorem entering?_tollProblem {T : Tableau ℚ 1 (tollProblem passable).width}
    (dear : -T.epsilon ≤ T.reducedCost (tollColumn passable)) :
    T.entering? (pass (tollProblem passable) (withPenalty penalty)).allowed = none :=
  (T.entering?_eq_none_iff _).mpr fun column allowed => by
    rw [eq_tollColumn_of_allowed passable penalty allowed]
    exact dear

/-- The variable that does not help does not enter. -/
theorem run_impassable :
    runNormalized (tollProblem false) (withPenalty penalty) =
      .ended (.ok .optimal) (tollStart false penalty) := by
  refine Pass.runFrom_of_entering?_eq_none (entering?_tollProblem false ?_) _
  refine (neg_nonpos.mpr default_epsilon.1.le).trans ?_
  refine le_of_le_of_eq ?_ (reducedCost_tollStart false penalty).symm
  rw [if_neg Bool.false_ne_true, mul_zero, add_zero]
  positivity

/-- Above its price the variable enters, and the run is over. -/
theorem run_passable (larger : 2 ^ 21 + 1 < penalty) :
    ∃ step, step.next = (tollStart true penalty).pivoted 0 (tollColumn true).castSucc ∧
      runNormalized (tollProblem true) (withPenalty penalty) =
        .after step (.ended (.ok .optimal) step.next) := by
  have cost := reducedCost_tollStart true penalty
  have entry := entry_tollStart true penalty
  rw [if_pos rfl] at cost entry
  have fine := default_epsilon.2
  have canonical := canonical_tollStart true penalty
  rcases (pass (tollProblem true) (withPenalty penalty)).runFrom_succ_cases 0 999 canonical
    default_epsilon.1 with ⟨nothing, _⟩ | ⟨column, entering, free, _⟩ |
      ⟨row, column, step, chosen, next, run⟩
  -- The penalty that the variable saves is larger than its price.
  · have dear := (Tableau.entering?_eq_none_iff _ _).mp nothing (tollColumn true) ?_
    · change -(Options.default : Options ℚ).epsilon ≤ _ at dear
      linarith
    · rw [pass_allowed_iff, tollColumn, Problem.tags_decisionColumn]
      rfl
  · cases eq_tollColumn_of_allowed true penalty (Tableau.entering?_spec entering).1
    have small := (Tableau.leaving?_eq_none_iff _ _).mp free 0
    rw [entry] at small
    exact absurd small (not_le.mpr fine)
  -- After the pivot the variable is basic, so nothing is left to enter.
  · cases eq_tollColumn_of_allowed true penalty chosen.allowed
    rw [Subsingleton.elim row 0] at next
    refine ⟨step, next, run.trans (congrArg _ (Pass.runFrom_of_entering?_eq_none ?_ _))⟩
    have nonzero := entry.trans_ne one_ne_zero
    have basic := (canonical.pivoted nonzero).pricedOut 0
    rw [Tableau.basis_pivoted, if_pos rfl] at basic
    refine entering?_tollProblem true ?_
    rw [next]
    exact (neg_nonpos.mpr default_epsilon.1.le).trans basic.ge

/-- The pivot of that run is one of the attempts at the first tableau. -/
theorem attempts_tollStart :
    (tollStart true penalty).attempts [(0, tollColumn true)] =
      (tollStart true penalty).pivoted 0 (tollColumn true).castSucc := by
  refine Tableau.attempt_of_pivot (Tableau.pivot_eq_ok ?_)
  rw [entry_tollStart, if_pos rfl, abs_one]
  exact default_epsilon.2.le

/-- A run on one of the problems that ends where no column improves, all of it sharp. -/
theorem sharpRun_tollProblem
    (ending : (runNormalized (tollProblem passable) (withPenalty penalty)).ending = .ok .optimal)
    (sharp : ∀ T ∈ (runNormalized (tollProblem passable) (withPenalty penalty)).tableaus
      (tollStart passable penalty), T.Sharp) :
    SharpRun (tollProblem passable) (withPenalty penalty) ∧
      (runNormalized (tollProblem passable).normalized (withPenalty penalty)).ending =
        .ok .optimal := by
  unfold SharpRun
  rw [normalized_tollProblem]
  exact ⟨sharp, ending⟩

/-- The plain objective is sharp at every tableau of the two runs. -/
theorem sharp_plain_tollProblem :
    (∀ passable, (((tollProblem passable).tableau .plain Options.default.epsilon).attempts
      []).Sharp) ∧
      (((tollProblem true).tableau .plain Options.default.epsilon).attempts
        [(0, tollColumn true)]).Sharp := by
  decide +kernel

theorem exists_penalty_impassable :
    ∃ least, ∀ penalty, least < penalty →
      SharpRun (tollProblem false) (withPenalty penalty) ∧
        (runNormalized (tollProblem false).normalized (withPenalty penalty)).ending =
          .ok .optimal := by
  rcases (tollProblem false).exists_penalty_sharp default_epsilon.1 []
    (sharp_plain_tollProblem.1 false) with ⟨least, sharp⟩
  refine ⟨least, fun penalty larger => sharpRun_tollProblem false ?_ ?_⟩
  · rw [run_impassable]
    rfl
  · rw [run_impassable]
    intro T member
    rw [List.mem_singleton.mp member]
    exact sharp penalty larger

theorem exists_penalty_passable :
    ∃ least, ∀ penalty, least < penalty →
      SharpRun (tollProblem true) (withPenalty penalty) ∧
        (runNormalized (tollProblem true).normalized (withPenalty penalty)).ending =
          .ok .optimal := by
  rcases sharp_plain_tollProblem with ⟨start, moved⟩
  rcases (tollProblem true).exists_penalty_sharp default_epsilon.1 [] (start true) with
    ⟨first, sharp⟩
  rcases (tollProblem true).exists_penalty_sharp default_epsilon.1 _ moved with
    ⟨second, movedSharp⟩
  refine ⟨max (2 ^ 21 + 1) (max first second), fun penalty larger => ?_⟩
  simp only [max_lt_iff] at larger
  rcases larger with ⟨dear, aboveFirst, aboveSecond⟩
  rcases run_passable dear with ⟨step, next, run⟩
  refine sharpRun_tollProblem true (run ▸ rfl) ?_
  rw [run]
  intro T member
  rcases List.mem_cons.mp member with rfl | later
  · exact sharp penalty aboveFirst
  · rw [List.mem_singleton.mp later, next, ← attempts_tollStart]
    exact movedSharp penalty aboveSecond

end Toll

/-- With the default options the method reports that the equation cannot be
satisfied, whether the variable takes part in it or not, though its runs are
sharp.  Under a penalty that is large enough they are sharp too, and then the
method tells the two problems apart. -/
theorem tollProblem_truthful :
    (∀ passable, SharpRun (tollProblem passable) Options.default ∧
      (solve (tollProblem passable) Options.default).toOption.map Solution.outcome =
        some .infeasible) ∧
      (tollProblem true).Feasible [1] ∧
      ∃ options : Options ℚ, options.validate = .ok () ∧
        (Options.default : Options ℚ).bigM < options.bigM ∧
        (∀ passable, SharpRun (tollProblem passable) options) ∧
        (∃ solution, solve (tollProblem true) options = .ok solution ∧
          solution.outcome = .optimal ∧ solution.decisionValues 1 = [1] ∧
          (tollProblem true).Optimal [1]) ∧
        ∃ solution, solve (tollProblem false) options = .ok solution ∧
          solution.outcome = .infeasible ∧ (tollProblem false).Infeasible := by
  rcases exists_exact_penalty (tollProblem true) with ⟨first, passable⟩
  rcases exists_exact_penalty (tollProblem false) with ⟨second, impassable⟩
  rcases exists_penalty_passable with ⟨third, runs⟩
  rcases exists_penalty_impassable with ⟨fourth, stays⟩
  rcases exists_gt (max (max first second) (max (max third fourth)
    (Options.default : Options ℚ).bigM)) with ⟨penalty, larger⟩
  simp only [max_lt_iff] at larger
  rcases larger with ⟨⟨aboveFirst, aboveSecond⟩, ⟨aboveThird, aboveFourth⟩, aboveDefault⟩
  rcases runs penalty aboveThird with ⟨sharp, ending⟩
  rcases stays penalty aboveFourth with ⟨stillSharp, stillEnding⟩
  have default : Options.default.validate (K := ℚ) = .ok () := by decide +kernel
  rcases Options.validate_eq_ok default with ⟨_, positive, tolerant⟩
  have valid : (withPenalty penalty).validate = .ok () :=
    Options.validate_of_pos default_epsilon.1 (positive.trans aboveDefault) tolerant
  rcases passable _ valid aboveFirst sharp with ⟨solution, solved, optimal, misled, _⟩
  rcases impassable _ valid aboveSecond stillSharp with ⟨other, otherSolved, reached, truth, _⟩
  have optimum : solution.outcome = .optimal := by
    rcases optimal_or_infeasible_of_ending solved ending with optimum | none
    · exact optimum
    · exact absurd feasible_tollProblem (misled none [1])
  have none : other.outcome = .infeasible := by
    rcases optimal_or_infeasible_of_ending otherSolved stillEnding with optimum | none
    · exact absurd (reached optimum).feasible (infeasible_tollProblem _)
    · exact none
  have best := optimal optimum
  have point := eq_one_of_feasible best.feasible
  rw [point] at best
  refine ⟨by decide +kernel, feasible_tollProblem, withPenalty penalty, valid, aboveDefault, ?_,
    ⟨solution, solved, optimum, point, best⟩, other, otherSolved, none, truth none⟩
  rintro (_ | _)
  · exact stillSharp
  · exact sharp

end BigM
end LinearProgram
