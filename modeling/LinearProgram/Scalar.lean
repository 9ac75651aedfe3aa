namespace LinearProgram

/-!
# The arithmetic of a linear program

Every algorithm of this library is written once, over an arbitrary type of
numbers that carries the operations below.  Two instances give it its two
meanings: binary floating point, in which problems are solved, and the
rational numbers, in which the results are exact and theorems are stated.

The class promises no laws.  Each algorithm therefore fixes the order of its
operations and the direction of each comparison, so that its meaning is
settled also for values that no ordering relates.
-/

/-- The operations and tests on numbers that solving a linear program needs. -/
class Scalar (K : Type) extends Zero K, One K, Neg K, Add K, Sub K, Mul K, Div K, LT K, LE K where
  /-- The absolute value. -/
  abs : K → K
  /-- The number that a natural number denotes. -/
  ofNat : Nat → K
  /-- The sum of no terms.  It is a field of its own because a format with
  signed zeros has two candidates, and only the negative one leaves every
  other number as it is when it is added. -/
  emptySum : K
  /-- Whether the number is an ordinary one, neither infinite nor undefined. -/
  isFinite : K → Bool
  /-- Whether the number equals zero. -/
  isZero : K → Bool
  /-- The strict order is decidable. -/
  decidableLT : DecidableLT K
  /-- The order is decidable. -/
  decidableLE : DecidableLE K

attribute [reducible, instance] Scalar.decidableLT Scalar.decidableLE

/-- Exact arithmetic. -/
instance : Scalar Rat where
  zero := 0
  one := 1
  abs := Rat.abs
  ofNat value := (value : Rat)
  emptySum := 0
  isFinite _ := true
  isZero value := decide (value = 0)
  decidableLT := inferInstance
  decidableLE := inferInstance

/-- Binary floating point of double precision. -/
instance : Scalar Float where
  zero := 0.0
  one := 1.0
  abs := Float.abs
  ofNat := Float.ofNat
  emptySum := -0.0
  isFinite := Float.isFinite
  isZero value := value == 0.0
  decidableLT := fun left right => inferInstanceAs (Decidable (left < right))
  decidableLE := fun left right => inferInstanceAs (Decidable (left ≤ right))

namespace Scalar

variable {K : Type} [Scalar K]

/-- The sum of a list, from left to right. -/
def sum (terms : List K) : K :=
  terms.foldl (· + ·) emptySum

/-- The scalar product of two lists, which ends with the shorter one. -/
def dot (left right : List K) : K :=
  sum (List.zipWith (· * ·) left right)

/-- The larger of two numbers.  A second number that no ordering relates to
the first is passed over. -/
def larger (current candidate : K) : K :=
  if current < candidate then candidate else current

end Scalar

end LinearProgram
