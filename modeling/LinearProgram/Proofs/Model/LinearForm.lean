import LinearProgram.Proofs.Rational
import LinearProgram.Model.Basic

namespace LinearProgram

/-!
# Sums of terms

An author writes a sum term by term and may come back to a variable as often
as he likes.  The form that is kept has one coefficient for each variable,
and the coefficients of the written terms have been added up in it, so the
form and the written terms mention the same variables and have the same value
wherever the variables are declared.

The list of terms of such a form stands for a map from variables to
coefficients.  The map depends, for each variable, on the written terms about
that variable and on their order among each other, and on nothing else.
-/

namespace LinearForm

/-- The form of a sum that is written term by term. -/
def ofTerms {K : Type} [Scalar K] (written : List (Nat × K)) : LinearForm K :=
  written.foldl (fun form term => form.add term.1 term.2) {}

/-! ## Variables -/

section Mention

variable {K : Type}

/-- The form has a coefficient for the variable. -/
def Mentions (form : LinearForm K) (index : Nat) : Prop :=
  ∃ term ∈ form.terms, term.1 = index

theorem undeclared?_eq_none_iff (form : LinearForm K) (count : Nat) :
    form.undeclared? count = none ↔ ∀ index, form.Mentions index → index < count := by
  simp [undeclared?, Mentions]

theorem mentions_of_undeclared? {form : LinearForm K} {count index : Nat}
    (found : form.undeclared? count = some index) : form.Mentions index ∧ count ≤ index := by
  rcases Option.map_eq_some_iff.mp found with ⟨term, first, rfl⟩
  exact ⟨⟨term, List.mem_of_find?_eq_some first, rfl⟩, by simpa using List.find?_some first⟩

variable [Scalar K]

theorem exists_mem_addTo_iff (index other : Nat) (coefficient : K) (terms : List (Nat × K)) :
    (∃ term ∈ addTo index coefficient terms, term.1 = other) ↔
      (∃ term ∈ terms, term.1 = other) ∨ index = other := by
  induction terms with
  | nil => simp [addTo]
  | cons first rest ih =>
    rw [addTo]
    split
    · next same =>
      simp only [List.exists_mem_cons_iff]
      rw [← same, or_right_comm, or_self]
    · simp only [List.exists_mem_cons_iff, ih, or_assoc]

theorem mentions_add_iff (form : LinearForm K) (index other : Nat) (coefficient : K) :
    (form.add index coefficient).Mentions other ↔ form.Mentions other ∨ index = other :=
  exists_mem_addTo_iff index other coefficient form.terms

theorem mentions_foldl_add_iff (form : LinearForm K) (written : List (Nat × K)) (index : Nat) :
    (written.foldl (fun form term => form.add term.1 term.2) form).Mentions index ↔
      form.Mentions index ∨ ∃ term ∈ written, term.1 = index := by
  induction written generalizing form with
  | nil => simp
  | cons first rest ih =>
    rw [List.foldl_cons, ih, mentions_add_iff, List.exists_mem_cons_iff, or_assoc]

/-- A form mentions the variables of its written terms. -/
theorem mentions_ofTerms_iff (written : List (Nat × K)) (index : Nat) :
    (ofTerms written).Mentions index ↔ ∃ term ∈ written, term.1 = index := by
  have nothing : ¬ ({} : LinearForm K).Mentions index := by
    rintro ⟨_, member, _⟩
    exact nomatch member
  rw [ofTerms, mentions_foldl_add_iff]
  exact or_iff_right nothing

end Mention

/-! ## Maps -/

section Map

variable {K : Type}

/-- The form has no two terms about one variable. -/
def Distinct (form : LinearForm K) : Prop :=
  (form.terms.map Prod.fst).Nodup

instance (form : LinearForm K) : Decidable form.Distinct :=
  inferInstanceAs (Decidable (form.terms.map Prod.fst).Nodup)

theorem coefficient?_cons (other : Nat) (total : K) (rest : List (Nat × K)) (index : Nat) :
    coefficient? ⟨(other, total) :: rest⟩ index =
      if other = index then some total else coefficient? ⟨rest⟩ index := by
  by_cases same : other = index
  · simp [coefficient?, same]
  · simp [coefficient?, same]

theorem coefficient?_eq_none_iff (form : LinearForm K) (index : Nat) :
    form.coefficient? index = none ↔ index ∉ form.terms.map Prod.fst := by
  rw [coefficient?, Option.map_eq_none_iff, List.find?_eq_none]
  simp only [decide_eq_true_eq, List.mem_map, not_exists, not_and]

theorem mem_terms_iff {form : LinearForm K} (distinct : form.Distinct) (index : Nat)
    (coefficient : K) :
    (index, coefficient) ∈ form.terms ↔ form.coefficient? index = some coefficient := by
  obtain ⟨terms⟩ := form
  unfold Distinct at distinct
  induction terms with
  | nil => exact ⟨nofun, nofun⟩
  | cons first rest ih =>
    obtain ⟨other, total⟩ := first
    rw [List.map_cons, List.nodup_cons] at distinct
    rw [coefficient?_cons, List.mem_cons, Prod.mk.injEq]
    by_cases same : other = index
    · have absent : (index, coefficient) ∉ rest := fun member =>
        distinct.1 (List.mem_map.mpr ⟨_, member, same.symm⟩)
      rw [if_pos same, Option.some.injEq, or_iff_left absent, and_iff_right same.symm]
      exact eq_comm
    · rw [if_neg same, ← ih distinct.2]
      exact or_iff_right fun both => same both.1.symm

/-- Two lists of terms that stand for one map are the same but for their order. -/
theorem perm_iff_coefficient?_eq {form other : LinearForm K} (distinct : form.Distinct)
    (otherDistinct : other.Distinct) :
    form.terms.Perm other.terms ↔ ∀ index, form.coefficient? index = other.coefficient? index := by
  rw [List.perm_ext_iff_of_nodup (List.Nodup.of_map _ distinct) (List.Nodup.of_map _ otherDistinct),
    Prod.forall]
  simp only [mem_terms_iff distinct, mem_terms_iff otherDistinct]
  exact forall_congr' fun index => Option.ext_iff.symm

theorem coefficient?_eq_of_perm {form order : LinearForm K} (distinct : form.Distinct)
    (terms : form.terms.Perm order.terms) (index : Nat) :
    form.coefficient? index = order.coefficient? index := by
  have orderDistinct : order.Distinct := (terms.map Prod.fst).nodup_iff.mp distinct
  exact (perm_iff_coefficient?_eq distinct orderDistinct).mp terms index

/-- The same calls for each variable, in the same order. -/
def SameCalls (written other : List (Nat × K)) : Prop :=
  ∀ index, (written.filter fun term => term.1 = index) = other.filter fun term => term.1 = index

variable [Scalar K]

theorem coefficient?_addTo (index other : Nat) (amount : K) (terms : List (Nat × K)) :
    coefficient? ⟨addTo index amount terms⟩ other =
      if index = other then some ((coefficient? ⟨terms⟩ other).getD 0 + amount)
      else coefficient? ⟨terms⟩ other := by
  induction terms with
  | nil =>
    rw [addTo, coefficient?_cons]
    rfl
  | cons first rest ih =>
    obtain ⟨own, total⟩ := first
    rw [addTo]
    split
    · next same =>
      rw [coefficient?_cons, coefficient?_cons, same]
      split
      · rfl
      · rfl
    · next different =>
      rw [coefficient?_cons, coefficient?_cons, ih]
      split
      · next here => rw [if_neg fun same => different (here.trans same.symm)]
      · rfl

/-- The coefficient of a variable comes from the terms about it, in their order. -/
theorem coefficient?_foldl_add (form : LinearForm K) (written : List (Nat × K)) (index : Nat) :
    (written.foldl (fun form term => form.add term.1 term.2) form).coefficient? index =
      (written.filter fun term => term.1 = index).foldl
        (fun total term => some (total.getD 0 + term.2)) (form.coefficient? index) := by
  induction written generalizing form with
  | nil => rfl
  | cons first rest ih =>
    have step : (form.add first.1 first.2).coefficient? index =
        if first.1 = index then some ((form.coefficient? index).getD 0 + first.2)
        else form.coefficient? index := coefficient?_addTo first.1 index first.2 form.terms
    rw [List.foldl_cons, ih, step, List.filter_cons]
    by_cases own : first.1 = index
    · simp [own]
    · simp [own]

theorem distinct_add {form : LinearForm K} (distinct : form.Distinct) (index : Nat) (amount : K) :
    (form.add index amount).Distinct := by
  obtain ⟨terms⟩ := form
  unfold Distinct at distinct ⊢
  rw [add]
  induction terms with
  | nil => exact List.nodup_singleton _
  | cons first rest ih =>
    obtain ⟨other, total⟩ := first
    rw [List.map_cons, List.nodup_cons] at distinct
    rw [addTo]
    split
    · exact List.nodup_cons.mpr distinct
    · next different =>
      refine List.nodup_cons.mpr ⟨fun member => ?_, ih distinct.2⟩
      rcases (exists_mem_addTo_iff index other amount rest).mp (List.mem_map.mp member) with
        later | same
      · exact distinct.1 (List.mem_map.mpr later)
      · exact different same.symm

theorem distinct_ofTerms (written : List (Nat × K)) : (ofTerms written).Distinct :=
  List.foldlRecOn written _ List.nodup_nil fun _ distinct term _ =>
    distinct_add distinct term.1 term.2

/-- Calls about different variables can change places. -/
theorem perm_ofTerms {written other : List (Nat × K)} (same : SameCalls written other) :
    (ofTerms written).terms.Perm (ofTerms other).terms := by
  refine (perm_iff_coefficient?_eq (distinct_ofTerms written) (distinct_ofTerms other)).mpr
    fun index => ?_
  rw [ofTerms, ofTerms, coefficient?_foldl_add, coefficient?_foldl_add, same index]

end Map

/-! ## Values -/

/-- The coefficient of a variable, zero where the form does not mention it. -/
def coefficient (form : LinearForm ℚ) (index : Nat) : ℚ :=
  (form.coefficient? index).getD 0

/-- The value of a form where the first variables have the given values. -/
def value {k : Nat} (form : LinearForm ℚ) (v : Fin k → ℚ) : ℚ :=
  ∑ source : Fin k, form.coefficient source * v source

/-- The value of a sum as it is written. -/
def writtenValue (written : List (Nat × ℚ)) (v : List ℚ) : ℚ :=
  (written.map fun term => term.2 * v.getD term.1 0).sum

/-- The coefficients of a variable add up. -/
theorem coefficient_add (form : LinearForm ℚ) (index other : Nat) (amount : ℚ) :
    (form.add index amount).coefficient other =
      form.coefficient other + if index = other then amount else 0 := by
  rw [coefficient, add, coefficient?_addTo]
  split
  · rfl
  · exact (add_zero _).symm

theorem value_add {k : Nat} (form : LinearForm ℚ) {index : Nat} (declared : index < k)
    (amount : ℚ) (v : Fin k → ℚ) :
    (form.add index amount).value v = form.value v + amount * v ⟨index, declared⟩ := by
  have place : ∀ source : Fin k, index = source ↔ (⟨index, declared⟩ : Fin k) = source :=
    fun _ => ⟨fun same => Fin.ext same, congrArg Fin.val⟩
  simp only [value, coefficient_add, add_mul, Finset.sum_add_distrib, ite_mul, zero_mul, place,
    Fintype.sum_ite_eq]

theorem value_foldl_add {k : Nat} (form : LinearForm ℚ) {written : List (Nat × ℚ)}
    (declared : ∀ term ∈ written, term.1 < k) (v : Fin k → ℚ) :
    (written.foldl (fun form term => form.add term.1 term.2) form).value v =
      form.value v + writtenValue written (List.ofFn v) := by
  induction written generalizing form with
  | nil => simp [writtenValue]
  | cons first rest ih =>
    have own : first.1 < k := declared first List.mem_cons_self
    have later := ih (form.add first.1 first.2) fun term member =>
      declared term (List.mem_cons_of_mem first member)
    rw [List.foldl_cons, later, value_add form own, add_assoc]
    simp [writtenValue, own]

/-- A form has the value of its written terms. -/
theorem value_ofTerms {k : Nat} {written : List (Nat × ℚ)}
    (declared : ∀ term ∈ written, term.1 < k) (v : Fin k → ℚ) :
    (ofTerms written).value v = writtenValue written (List.ofFn v) := by
  have nothing : ({} : LinearForm ℚ).value v = 0 := by
    simp [value, coefficient, coefficient?]
  rw [ofTerms, value_foldl_add _ declared, nothing, zero_add]

end LinearForm
end LinearProgram
