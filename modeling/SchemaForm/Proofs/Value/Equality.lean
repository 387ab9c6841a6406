import SchemaForm.Value.Equality
import SchemaForm.Proofs.Number.Quotient

/-!
# Whole numbers in two forms

A whole number may be held as such or as a floating point number. Equality looks at the value alone:

* `Binary64.eq_ofInt_of_toInt?` — a whole number has one floating point number, zero apart;
* `Binary64.sameNumber_iff_of_toInt?` — so that a floating point number is the same as a whole one
  exactly if it is that whole number;
* `Value.same_float_of_toInt?` — the same values are the same as either of the two forms.
-/

namespace SchemaForm

namespace Binary64

/-- The whole number that a finite number is, without fractions. -/
theorem toInt?_finite_eq_some_iff {negative : Bool} {m : Nat} {e : Int} {h : Canonical m e} {n : Int} :
    (finite negative m e h).toInt? = some n ↔
      ∃ k, n = withSign negative k ∧ k * power 2 (-e) = m * power 2 e := by
  by_cases hnonneg : 0 ≤ e
  · have hread : (finite negative m e h).toInt? = some (withSign negative (m * power 2 e)) := by
      simp only [toInt?, if_pos hnonneg, withSign]
      rfl
    rw [hread, Option.some.injEq, power_of_nonpos 2 (by omega : -e ≤ 0)]
    constructor
    · rintro rfl
      exact ⟨m * power 2 e, rfl, Nat.mul_one _⟩
    · rintro ⟨k, rfl, hk⟩
      rw [← hk, Nat.mul_one]
  · have hpos : 0 < power 2 (-e) := power_pos two_pos _
    rw [power_of_nonpos 2 (by omega : e ≤ 0), Nat.mul_one]
    by_cases hwhole : m % power 2 (-e) = 0
    · have hread : (finite negative m e h).toInt? = some (withSign negative (m / power 2 (-e))) := by
        simp only [toInt?, if_neg hnonneg, if_pos hwhole, withSign]
        rfl
      rw [hread, Option.some.injEq]
      constructor
      · rintro rfl
        exact ⟨m / power 2 (-e), rfl, Nat.div_mul_cancel (Nat.dvd_of_mod_eq_zero hwhole)⟩
      · rintro ⟨k, rfl, hk⟩
        rw [← hk, Nat.mul_div_cancel k hpos]
    · refine iff_of_false ?_ ?_
      · simp [toInt?, hnonneg, hwhole]
      · rintro ⟨k, -, hk⟩
        exact hwhole (by rw [← hk, Nat.mul_mod_left])

/-- A whole number other than zero is held by one floating point number at most. -/
theorem eq_ofInt_of_toInt? {x : Binary64} {n : Int} (h : x.toInt? = some n) (hn : n ≠ 0) :
    x = ofInt n := by
  cases x with
  | infinite negative => exact absurd h (by simp [toInt?])
  | nan => exact absurd h (by simp [toInt?])
  | finite negative m e hcanonical =>
    obtain ⟨k, rfl, hk⟩ := toInt?_finite_eq_some_iff.mp h
    have hk0 : k ≠ 0 := by
      rintro rfl
      exact hn (withSign_zero negative)
    have hm : m ≠ 0 := by
      rintro rfl
      rw [Nat.zero_mul] at hk
      exact (Nat.mul_pos (Nat.pos_of_ne_zero hk0) (power_pos two_pos _)).ne' hk
    have hsign : decide (withSign negative k < 0) = negative := by
      cases negative with
      | false => simp [withSign]
      | true =>
        simp only [withSign, if_true, decide_eq_true_eq]
        omega
    rw [ofInt, hsign, natAbs_withSign]
    exact (ofRatio_of_canonical negative hcanonical hm Nat.one_pos (by rw [Nat.one_mul]; exact hk)).symm

/-- Zero of either sign is the whole number zero. -/
theorem toInt?_eq_zero_iff {x : Binary64} : x.toInt? = some 0 ↔ x.isZero = true := by
  cases x with
  | infinite negative => simp [toInt?, isZero]
  | nan => simp [toInt?, isZero]
  | finite negative m e hcanonical =>
    have hpos : ∀ exponent, power 2 exponent ≠ 0 := fun exponent => (power_pos two_pos exponent).ne'
    rw [toInt?_finite_eq_some_iff, isZero, beq_iff_eq]
    constructor
    · rintro ⟨k, hzero, hk⟩
      have hk0 : k = 0 := by simpa using congrArg Int.natAbs hzero.symm
      rw [hk0, Nat.zero_mul, eq_comm, Nat.mul_eq_zero] at hk
      exact hk.resolve_right (hpos e)
    · rintro rfl
      exact ⟨0, (withSign_zero negative).symm, by rw [Nat.zero_mul, Nat.zero_mul]⟩

theorem ne_nan_of_toInt? {x : Binary64} {n : Int} (h : x.toInt? = some n) : x ≠ .nan := by
  rintro rfl
  exact absurd h (by simp [toInt?])

theorem sameNumber_iff {x y : Binary64} (hx : x ≠ .nan) :
    x.sameNumber y = true ↔ x.isZero = true ∧ y.isZero = true ∨ x = y := by
  cases x <;> cases y <;> simp_all [sameNumber, isZero]

/-- What is the same as a whole number is that whole number. -/
theorem sameNumber_iff_of_toInt? {x y : Binary64} {n : Int} (h : x.toInt? = some n) :
    x.sameNumber y = true ↔ y.toInt? = some n := by
  rw [sameNumber_iff (ne_nan_of_toInt? h), ← toInt?_eq_zero_iff, ← toInt?_eq_zero_iff, h]
  constructor
  · rintro (⟨hn, hy⟩ | rfl)
    · rw [hn, hy]
    · exact h
  · intro hy
    by_cases hn : n = 0
    · subst hn
      exact Or.inl ⟨rfl, hy⟩
    · exact Or.inr ((eq_ofInt_of_toInt? h hn).trans (eq_ofInt_of_toInt? hy hn).symm)

end Binary64

/-- The whole number and the floating point number that holds it are the same as the same numbers. -/
theorem Number.same_float_of_toInt? {x : Binary64} {n : Int} (h : x.toInt? = some n) (number : Number) :
    (Number.float x).same number = (Number.int n).same number := by
  rw [Bool.eq_iff_iff]
  cases number with
  | int m =>
    simp only [same, h, beq_iff_eq, Option.some.injEq]
  | float y =>
    simp only [same, Binary64.sameNumber_iff_of_toInt? h, beq_iff_eq]

namespace Value

/-- The same values are the same as a whole number and as the floating point number that holds it. -/
theorem same_float_of_toInt? {x : Binary64} {n : Int} (h : x.toInt? = some n) (w : Value) :
    (Value.float x).same w = (Value.int n).same w := by
  simp only [same, standsFor, Number.same_float_of_toInt? h]

end Value

end SchemaForm
