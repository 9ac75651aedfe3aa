import LinearProgram.Tableau.Basic

namespace LinearProgram

/-!
# Entries that the tolerance does not blur

The tolerance of a tableau treats small entries as zeros.  In a sharp tableau
nothing is lost by that, since every entry is zero or larger than the
tolerance in size.  In an exactly canonical tableau the basic columns are unit
vectors without any allowance.
-/

namespace Tableau

variable {K : Type} [Scalar K] {m N : Nat}

/-- Every entry is zero or larger than the tolerance in size. -/
def Sharp (T : Tableau K m N) : Prop :=
  ∀ i j, T.cell i j = 0 ∨ T.epsilon < Scalar.abs (T.cell i j)

/-- The basic columns are pairwise different unit vectors with reduced cost
zero, and the right hand side is none of them. -/
structure Canonical (T : Tableau K m N) : Prop where
  isColumn : ∀ row : Fin m, T.basis[row].val < N
  isUnit : ∀ (row : Fin m) (i : Fin (m + 1)),
    T.cell i T.basis[row] = if i = row.castSucc then 1 else 0
  distinct : ∀ row other : Fin m, T.basis[row] = T.basis[other] → row = other

end Tableau

end LinearProgram
