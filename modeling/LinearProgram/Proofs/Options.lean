import LinearProgram.Proofs.Rational
import LinearProgram.Options

namespace LinearProgram

/-!
# Valid options

Valid options have three positive numbers in every arithmetic.  Exact numbers
are always finite, so there nothing else is asked of them.
-/

section

variable {K : Type} [Scalar K]

theorem Options.pos_of_checkPositive {setting : Setting} {value : K}
    (accepted : checkPositive setting value = .ok ()) : 0 < value := by
  unfold checkPositive at accepted
  split at accepted
  · next both => exact both.2
  · exact nomatch accepted

/-- Valid options have a positive tolerance, penalty and duality gap. -/
theorem Options.validate_eq_ok {options : Options K} (valid : options.validate = .ok ()) :
    0 < options.epsilon ∧ 0 < options.bigM ∧ 0 < options.dualityTolerance := by
  unfold validate at valid
  cases first : checkPositive .epsilon options.epsilon with
  | error cause => simp [first, bind, Except.bind] at valid
  | ok _ =>
    cases second : checkPositive .bigM options.bigM with
    | error cause => simp [first, second, bind, Except.bind] at valid
    | ok _ =>
      simp only [first, second, bind, Except.bind] at valid
      exact ⟨pos_of_checkPositive first, pos_of_checkPositive second, pos_of_checkPositive valid⟩

/-- Of two valid penalties it does not matter which one the other options come with. -/
theorem Options.validate_bigM {options : Options K} {penalty : K}
    (valid : checkPositive .bigM options.bigM = .ok ())
    (validPenalty : checkPositive .bigM penalty = .ok ()) :
    { options with bigM := penalty }.validate = options.validate := by
  simp only [validate, valid, validPenalty]

end

theorem Options.validate_of_pos {options : Options ℚ} (epsilon : 0 < options.epsilon)
    (bigM : 0 < options.bigM) (dualityTolerance : 0 < options.dualityTolerance) :
    options.validate = .ok () := by
  have accepted : ∀ (setting : Setting) (value : ℚ), 0 < value →
      checkPositive setting value = .ok () := fun _ _ positive => if_pos ⟨rfl, positive⟩
  unfold validate
  rw [accepted _ _ epsilon, accepted _ _ bigM, accepted _ _ dualityTolerance]
  rfl

end LinearProgram
