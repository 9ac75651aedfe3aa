import LinearProgram.Proofs.Rational

namespace LinearProgram

/-!
# Signs in exact and in binary arithmetic

Few laws of numbers hold in floating point, but those about the sign of a
number do.  The class collects the ones under which an objective without costs
lets no column enter.  In binary arithmetic zero has two signs, and the
negation of zero is not zero itself, which is why the laws mention it.
-/

/-- How the sign of a number is related to zero and to the negation of zero. -/
class SignLaws (K : Type) [Scalar K] : Prop where
  isZero_zero : Scalar.isZero (0 : K) = true
  not_neg_of_nonneg : ∀ {x : K}, 0 ≤ x → ¬ x < 0
  neg_le_neg_zero : ∀ {x : K}, 0 < x → -x ≤ -0
  not_lt_neg_zero : ∀ {x : K}, 0 < x → ¬ x < -0

instance : SignLaws ℚ where
  isZero_zero := rfl
  not_neg_of_nonneg nonnegative := not_lt.mpr nonnegative
  neg_le_neg_zero positive := neg_le_neg positive.le
  not_lt_neg_zero positive := by
    rw [neg_zero]
    exact not_lt.mpr positive.le

/-! ## Binary floating point -/

namespace Binary

open Float.Model UnpackedFloat

theorem lt_iff {x y : Float} :
    x < y ↔ x.toModel.unpack.compare y.toModel.unpack = some .lt := by
  change decide (UnpackedFloat.lt _ _ = true) = true ↔ _
  rw [decide_eq_true_eq, UnpackedFloat.lt, beq_iff_eq]

theorem le_iff {x y : Float} :
    x ≤ y ↔ (x.toModel.unpack.compare y.toModel.unpack).any (·.isLE) = true := by
  change decide (UnpackedFloat.le _ _ = true) = true ↔ _
  rw [decide_eq_true_eq, UnpackedFloat.le]

/-- The numbers above zero, infinity included. -/
def Above : UnpackedFloat → Prop
  | .infinity .positive => True
  | .finite .positive _ _ _ => True
  | _ => False

theorem above_of_compare {x : UnpackedFloat}
    (greater : UnpackedFloat.compare (.zero .positive) x = some .lt) : Above x := by
  cases x with
  | infinity sign => cases sign <;> simp_all [UnpackedFloat.compare, Above]
  | finite sign mantissa exponent large =>
    cases sign <;> simp_all [UnpackedFloat.compare, Above]
  | _ => simp_all [UnpackedFloat.compare]

theorem Above.compare_zero {x : UnpackedFloat} (above : Above x) (sign : Sign) :
    x.compare (.zero sign) = some .gt := by
  cases x with
  | infinity own => cases own <;> simp_all [UnpackedFloat.compare, Above]
  | finite own mantissa exponent large => cases own <;> simp_all [UnpackedFloat.compare, Above]
  | _ => exact above.elim

/-- A number that is not below zero is zero or above it, or no number at all. -/
theorem compare_zero_of_le {x : UnpackedFloat} {sign : Sign}
    (atLeast : (UnpackedFloat.compare (.zero sign) x).any (·.isLE) = true) :
    x.compare (.zero sign) ≠ some .lt := by
  cases x with
  | infinity own => cases own <;> simp_all [UnpackedFloat.compare]
  | finite own mantissa exponent large => cases own <;> simp_all [UnpackedFloat.compare]
  | _ => simp_all [UnpackedFloat.compare]

theorem Above.exists_pack_neg {x : UnpackedFloat} (above : Above x) :
    ∃ exponent mantissa, UnpackedFloat.pack Format.binary64 x.neg =
      packComponents Format.binary64 .negative exponent mantissa := by
  cases x with
  | infinity sign =>
    cases sign with
    | negative => exact above.elim
    | positive => exact ⟨_, _, rfl⟩
  | finite sign mantissa exponent large =>
    cases sign with
    | negative => exact above.elim
    | positive =>
      unfold UnpackedFloat.neg UnpackedFloat.pack
      dsimp only
      split
      · exact ⟨_, _, rfl⟩
      · split
        · exact ⟨_, _, rfl⟩
        · exact ⟨_, _, rfl⟩
  | _ => exact above.elim

/-- A word with a negative sign that stands for a number is at most zero. -/
theorem compare_unpack_negative {exponent : BitVec Format.binary64.exponentBits}
    {mantissa : BitVec Format.binary64.mantissaBitsWithoutImplicit}
    (defined : exponent = -1#_ → mantissa = 0#_) (sign : Sign) :
    ((UnpackedFloat.unpack Format.binary64
      (packComponents Format.binary64 .negative exponent mantissa)).compare
        (.zero sign)).any (·.isLE) = true := by
  unfold UnpackedFloat.unpack
  simp only [unpackMantissa_packComponents, unpackExponent_packComponents,
    unpackSign_packComponents, Sign.ofBitVec_toBitVec]
  split
  · next top =>
    rw [if_pos (defined top)]
    rfl
  · split
    · split
      · rfl
      · rfl
    · rfl

theorem Above.neg_le_zero {x : UnpackedFloat} (above : Above x) (sign : Sign) :
    ((UnpackedFloat.unpack Format.binary64 (UnpackedFloat.pack Format.binary64 x.neg)).compare
      (.zero sign)).any (·.isLE) = true := by
  rcases above.exists_pack_neg with ⟨exponent, mantissa, packed⟩
  have valid : Format.binary64.Valid (UnpackedFloat.pack Format.binary64 x.neg) := valid_pack
  rw [packed] at valid ⊢
  refine compare_unpack_negative (fun top => ?_) sign
  by_contra payload
  -- The one word that is valid without being a number has a positive sign.
  have undefined := valid.eq_packedNaN (by simpa using top) (by simpa using payload)
  have signs := congrArg unpackSign undefined
  rw [packedNaN, unpackSign_packComponents, unpackSign_packComponents] at signs
  exact absurd signs (by decide)

end Binary

instance : SignLaws Float where
  isZero_zero := by decide +kernel
  not_neg_of_nonneg nonnegative negative :=
    Binary.compare_zero_of_le (Binary.le_iff.mp nonnegative) (Binary.lt_iff.mp negative)
  neg_le_neg_zero positive :=
    Binary.le_iff.mpr ((Binary.above_of_compare (Binary.lt_iff.mp positive)).neg_le_zero .negative)
  not_lt_neg_zero positive smaller := by
    have greater := (Binary.above_of_compare (Binary.lt_iff.mp positive)).compare_zero .negative
    exact nomatch greater.symm.trans (Binary.lt_iff.mp smaller)

end LinearProgram
