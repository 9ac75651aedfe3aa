import LinearProgram.Proofs.ArtificialSum

namespace LinearProgram
namespace Problem

/-!
# Directions without end

Column values that solve the equations with right hand sides of zero, are
nonnegative and have no artificial part can be added to every feasible point,
as often as one likes.  If they raise the objective, the problem has no optimum.
The ray of a column without positive entries is such a direction, as soon as it
moves no artificial column.
-/

variable {m n : Nat}

/-- A direction that leads from feasible points to feasible points. -/
structure Recedes (p : Problem ℚ m n) (d : Fin p.width → ℚ) : Prop where
  nonnegative : ∀ j, 0 ≤ d j
  homogeneous : ∀ row : Fin m, ∑ j : Fin p.width, p.equationEntry row p.tags[j] * d j = 0
  noArtificial : p.NoArtificial d

theorem gain_add_mul (p : Problem ℚ m n) (y d : Fin n → ℚ) (distance : ℚ) :
    p.gain (fun k => y k + distance * d k) = p.gain y + distance * p.gain d := by
  simp only [gain, mul_add, Finset.sum_add_distrib, mul_left_comm _ distance, ← Finset.mul_sum]

namespace Recedes

variable {p : Problem ℚ m n} {d : Fin p.width → ℚ} (recedes : p.Recedes d) {y : Fin n → ℚ}
  (admits : p.Admits y)
include recedes admits

theorem admits_add_mul {distance : ℚ} (forward : 0 ≤ distance) :
    p.Admits fun k => y k + distance * p.decisionPart d k := by
  have equations : p.Equations fun j => p.lift y j + distance * d j := by
    intro row
    simp only [mul_add, Finset.sum_add_distrib, mul_left_comm _ distance, ← Finset.mul_sum,
      recedes.homogeneous row, mul_zero, add_zero]
    exact admits.equations_lift row
  have nonnegative : ∀ j, 0 ≤ p.lift y j + distance * d j := fun j =>
    add_nonneg (admits.lift_nonneg j) (mul_nonneg forward (recedes.nonnegative j))
  have noArtificial : p.NoArtificial fun j => p.lift y j + distance * d j := by
    intro j artificial
    simp only [p.noArtificial_lift y j artificial, recedes.noArtificial j artificial, mul_zero,
      add_zero]
  have moved := p.admits_decisionPart equations nonnegative noArtificial
  have point : p.decisionPart (fun j => p.lift y j + distance * d j) =
      fun k => y k + distance * p.decisionPart d k :=
    funext fun k => congrArg (· + _) (congrFun (p.decisionPart_lift y) k)
  rwa [point] at moved

/-- A direction that raises the objective passes every bound. -/
theorem unbounded (rising : 0 < p.gain (p.decisionPart d)) : p.Unbounded := by
  refine ⟨⟨_, (p.feasible_ofFn_iff y).mpr admits⟩, fun bound => ?_⟩
  have far : 0 ≤ |bound - p.gain y| / p.gain (p.decisionPart d) + 1 := by positivity
  refine ⟨_, (p.feasible_ofFn_iff _).mpr (recedes.admits_add_mul admits far), ?_⟩
  have travelled : |bound - p.gain y| / p.gain (p.decisionPart d) * p.gain (p.decisionPart d) =
      |bound - p.gain y| := div_mul_cancel₀ _ rising.ne'
  have above := le_abs_self (bound - p.gain y)
  rw [merit_ofFn, gain_add_mul]
  linarith

end Recedes

/-! ## Rays -/

namespace Represents

variable {p : Problem ℚ m n} {mode : ObjectiveMode ℚ} {T : Tableau ℚ m p.width}

theorem sum_equationEntry_ray (represents : p.Represents mode T) (column : Fin p.width)
    (row : Fin m) : ∑ j, p.equationEntry row p.tags[j] * T.ray column j = 0 :=
  represents.canonical.unitBasis.sum_mul_ray_eq_zero
    (fun v solves => (represents.solves_iff v).mp solves row) column

theorem recedes_ray (represents : p.Represents mode T) {column : Fin p.width}
    (below : ∀ row, T.entry row column.castSucc ≤ 0)
    (noArtificial : p.NoArtificial (T.ray column)) : p.Recedes (T.ray column) :=
  ⟨Tableau.ray_nonneg below, represents.sum_equationEntry_ray column, noArtificial⟩

end Represents

end Problem
end LinearProgram
