import Mathlib
import LinearProgram.Grid
import LinearProgram.Scalar

namespace LinearProgram

/-!
# The operations of exact arithmetic

Over the rational numbers the operations of the library are the usual ones, so
that the algebra of an ordered field applies to everything it computes.
-/

/-! ## Entries -/

theorem toList_eq_ofFn {α : Type} {n : Nat} (entries : Vector α n) :
    entries.toList = List.ofFn fun i : Fin n => entries[i] := by
  apply List.ext_getElem <;> simp

theorem toList_eq_map_finRange {α : Type} {n : Nat} (entries : Vector α n) :
    entries.toList = (List.finRange n).map fun i => entries[i] := by
  rw [toList_eq_ofFn, List.ofFn_eq_map]

/-- A list is given entry by entry on the numbers below its length. -/
theorem exists_eq_ofFn {α : Type} {n : Nat} {entries : List α} (length : entries.length = n) :
    ∃ entry : Fin n → α, entries = List.ofFn entry := by
  subst length
  exact ⟨entries.get, (List.ofFn_get entries).symm⟩

namespace Scalar

/-! ## Operations -/

@[simp]
theorem abs_rat (x : ℚ) : Scalar.abs x = |x| := by
  change (if 0 ≤ x then x else -x) = |x|
  split
  · next nonnegative => rw [abs_of_nonneg nonnegative]
  · next negative => rw [abs_of_neg (not_le.mp negative)]

@[simp]
theorem isZero_rat (x : ℚ) : Scalar.isZero x = decide (x = 0) := rfl

theorem larger_rat (x y : ℚ) : larger x y = max x y := by
  unfold larger
  split
  · next less => exact (max_eq_right less.le).symm
  · next notLess => exact (max_eq_left (not_lt.mp notLess)).symm

theorem sum_rat (terms : List ℚ) : Scalar.sum terms = terms.sum := by
  rw [List.sum_eq_foldl]
  rfl

/-- The scalar product of two points given entry by entry. -/
theorem dot_ofFn_ofFn {n : Nat} (left right : Fin n → ℚ) :
    dot (List.ofFn left) (List.ofFn right) = ∑ k, left k * right k := by
  have products : List.zipWith (· * ·) (List.ofFn left) (List.ofFn right) =
      List.ofFn fun k => left k * right k := by
    apply List.ext_getElem <;> simp
  rw [dot, sum_rat, ← List.sum_ofFn]
  exact congrArg List.sum products

/-- The scalar product of a stored vector with a point given entry by entry. -/
theorem dot_ofFn {n : Nat} (left : Vector ℚ n) (right : Fin n → ℚ) :
    dot left.toList (List.ofFn right) = ∑ k : Fin n, left[k] * right k := by
  rw [toList_eq_ofFn, dot_ofFn_ofFn]

theorem dot_map_neg (left right : List ℚ) :
    dot (left.map (- ·)) right = -dot left right := by
  unfold dot
  rw [sum_rat, sum_rat]
  induction left generalizing right with
  | nil => rfl
  | cons value rest ih =>
    cases right with
    | nil => rfl
    | cons other others =>
      rw [List.map_cons, List.zipWith_cons_cons, List.zipWith_cons_cons, List.sum_cons,
        List.sum_cons, ih, neg_mul, neg_add]

end Scalar

/-- A sum over lists that are laid out one after the other. -/
theorem sum_flatMap_finRange {α : Type} {k : Nat} (part : Fin k → List α) (f : α → ℚ) :
    (((List.finRange k).flatMap part).map f).sum = ∑ source : Fin k, ((part source).map f).sum := by
  rw [List.map_flatMap, List.flatMap_def, List.sum_flatten, List.map_map, ← List.sum_ofFn,
    List.ofFn_eq_map]
  rfl

end LinearProgram
