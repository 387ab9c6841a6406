import SchemaForm.Proofs.Number.Rounding
import Mathlib.Algebra.Order.Field.Power
import Mathlib.Data.Int.Log
import Mathlib.Data.Rat.Floor
import Mathlib.Tactic.FieldSimp
import Mathlib.Tactic.Linarith

/-!
# Quotients in the 64-bit format

Rounding is given the two terms of a quotient, and a decimal is rounded by one of five rules that are told
from its exponent. What comes out depends on the value alone:

* `floorLog2_eq_log` — the exponent is found from the binary logarithm of the quotient;
* `ofRatio_congr` — two pairs of terms with one quotient are rounded alike;
* `ofRatio_of_canonical` — a number of the format is rounded to itself;
* `ofDecimal_eq_ofRatio` — the rules for very large and very small decimals give what rounding gives;
* `ofDecimal_congr` — two spellings of one decimal are read alike.
-/

namespace SchemaForm

/-! ## Powers -/

theorem power_pos {base : Nat} (hbase : 0 < base) (exponent : Int) : 0 < power base exponent :=
  Nat.pow_pos hbase

theorem power_of_nonpos (base : Nat) {exponent : Int} (h : exponent ≤ 0) :
    power base exponent = 1 := by
  rw [power, Int.toNat_of_nonpos h]
  rfl

/-- The power and its inverse: one of them is one. -/
theorem power_div_power (base : Nat) (exponent : Int) :
    (power base exponent : ℚ) / power base (-exponent) = (base : ℚ) ^ exponent := by
  obtain ⟨k, rfl | rfl⟩ := exponent.eq_nat_or_neg
  · rw [power_of_nonpos base (by omega : -(k : Int) ≤ 0), power_natCast]
    simp
  · rw [power_of_nonpos base (by omega : -(k : Int) ≤ 0), neg_neg, power_natCast]
    simp

/-! ## Binary logarithms -/

theorem log_two_eq {r : ℚ} {k : Int} (hlow : (2 : ℚ) ^ k ≤ r) (hhigh : r < (2 : ℚ) ^ (k + 1)) :
    Int.log 2 r = k := by
  have hpos : 0 < r := lt_of_lt_of_le (zpow_pos two_pos k) hlow
  have hle : k ≤ Int.log 2 r :=
    (Int.zpow_le_iff_le_log one_lt_two hpos).mp (by exact_mod_cast hlow)
  have hlt : Int.log 2 r < k + 1 :=
    (Int.lt_zpow_iff_log_lt one_lt_two hpos).mp (by exact_mod_cast hhigh)
  omega

theorem log2_cast_bounds {n : Nat} (hn : n ≠ 0) :
    (2 : ℚ) ^ (n.log2 : Int) ≤ n ∧ (n : ℚ) < (2 : ℚ) ^ ((n.log2 : Int) + 1) := by
  have hlow : 2 ^ n.log2 ≤ n := Nat.log2_self_le hn
  have hhigh : n < 2 ^ (n.log2 + 1) := Nat.lt_log2_self
  constructor
  · exact_mod_cast hlow
  · exact_mod_cast hhigh

namespace Binary64

/-- Whether a power of two is reached, told without fractions. -/
theorem reached_iff (num : Nat) {den : Nat} (hden : 0 < den) (k : Int) :
    (if 0 ≤ k then den * power 2 k ≤ num else den ≤ num * power 2 (-k)) ↔
      (2 : ℚ) ^ k ≤ num / den := by
  have hd : (0 : ℚ) < den := by exact_mod_cast hden
  rw [le_div_iff₀ hd]
  split
  · next h =>
    lift k to Nat using h
    rw [power_natCast, zpow_natCast, mul_comm]
    norm_cast
  · next h =>
    obtain ⟨j, rfl⟩ : ∃ j : Nat, k = -j := ⟨(-k).toNat, by omega⟩
    rw [neg_neg, power_natCast, zpow_neg, zpow_natCast, inv_mul_le_iff₀ (pow_pos two_pos j), mul_comm]
    norm_cast

/-- The logarithm that is guessed from the two terms is that of the quotient, or the next one. -/
theorem floorLog2_eq_log {num den : Nat} (hnum : num ≠ 0) (hden : 0 < den) :
    floorLog2 num den = Int.log 2 ((num : ℚ) / den) := by
  have hd : (0 : ℚ) < den := by exact_mod_cast hden
  obtain ⟨hnlow, hnhigh⟩ := log2_cast_bounds hnum
  obtain ⟨hdlow, hdhigh⟩ := log2_cast_bounds hden.ne'
  have hlow : (2 : ℚ) ^ ((num.log2 : Int) - den.log2 - 1) ≤ num / den := by
    rw [le_div_iff₀ hd, show (num.log2 : Int) - den.log2 - 1 = num.log2 - (den.log2 + 1) by omega,
      zpow_sub₀ two_ne_zero, div_mul_eq_mul_div, div_le_iff₀ (zpow_pos two_pos _)]
    exact mul_le_mul hnlow hdhigh.le hd.le (Nat.cast_nonneg _)
  have hhigh : (num : ℚ) / den < (2 : ℚ) ^ ((num.log2 : Int) - den.log2 + 1) := by
    rw [div_lt_iff₀ hd, show (num.log2 : Int) - den.log2 + 1 = (num.log2 + 1) - den.log2 by omega,
      zpow_sub₀ two_ne_zero, div_mul_eq_mul_div, lt_div_iff₀ (zpow_pos two_pos _)]
    exact mul_lt_mul hnhigh hdlow (zpow_pos two_pos _) (zpow_pos two_pos _).le
  unfold floorLog2
  simp only [reached_iff num hden]
  split
  · next hreached => exact (log_two_eq hreached hhigh).symm
  · next hreached =>
    refine (log_two_eq hlow ?_).symm
    rw [sub_add_cancel]
    exact not_le.mp hreached

/-- The logarithm of a quotient that is given by a mantissa and an exponent. -/
theorem floorLog2_of_eq {m num den : Nat} {e : Int} (hm : m ≠ 0) (hnum : num ≠ 0) (hden : 0 < den)
    (hvalue : num * power 2 (-e) = m * (den * power 2 e)) : floorLog2 num den = m.log2 + e := by
  have hpow : (0 : ℚ) < 2 ^ e := zpow_pos two_pos e
  have hratio : (num : ℚ) / den = m * 2 ^ e := by
    have hd : (0 : ℚ) < den := by exact_mod_cast hden
    have hscale : (0 : ℚ) < power 2 (-e) := by exact_mod_cast power_pos two_pos (-e)
    have hcast : (num : ℚ) * power 2 (-e) = m * (den * power 2 e) := by exact_mod_cast hvalue
    have htwo : (power 2 e : ℚ) / power 2 (-e) = 2 ^ e := by exact_mod_cast power_div_power 2 e
    rw [← htwo]
    field_simp
    linarith
  obtain ⟨hlow, hhigh⟩ := log2_cast_bounds hm
  rw [floorLog2_eq_log hnum hden, hratio]
  apply log_two_eq
  · rw [zpow_add₀ two_ne_zero]
    exact mul_le_mul_of_nonneg_right hlow hpow.le
  · rw [add_right_comm, zpow_add₀ two_ne_zero]
    exact mul_lt_mul_of_pos_right hhigh hpow

/-! ## Rounding -/

/-- The mantissa of a quotient, whichever way the exponent points. -/
theorem mantissa_eq (num den : Nat) (e : Int) :
    (if 0 ≤ e then roundDiv num (den * power 2 e) else roundDiv (num * power 2 (-e)) den) =
      roundDiv (num * power 2 (-e)) (den * power 2 e) := by
  split
  · next h => rw [power_of_nonpos 2 (by omega : -e ≤ 0), Nat.mul_one]
  · next h => rw [power_of_nonpos 2 (by omega : e ≤ 0), Nat.mul_one]

/-- A common factor of the two terms does not matter. -/
theorem ofRatio_mul_right (negative : Bool) (num : Nat) {den c : Nat} (hden : 0 < den) (hc : 0 < c) :
    ofRatio negative (num * c) (den * c) = ofRatio negative num den := by
  by_cases hnum : num = 0
  · subst hnum
    simp [ofRatio]
  · have hnum' : num * c ≠ 0 := Nat.mul_ne_zero hnum hc.ne'
    have hlog : floorLog2 (num * c) (den * c) = floorLog2 num den := by
      rw [floorLog2_eq_log hnum' (Nat.mul_pos hden hc), floorLog2_eq_log hnum hden]
      push_cast
      rw [mul_div_mul_right _ _ (by exact_mod_cast hc.ne')]
    simp only [ofRatio, if_neg hnum, if_neg hnum', hlog, mantissa_eq]
    rw [Nat.mul_right_comm num c, Nat.mul_right_comm den c, roundDiv_mul_right _ _ hc]

theorem ofRatio_congr (negative : Bool) {num den num' den' : Nat} (hden : 0 < den) (hden' : 0 < den')
    (h : num * den' = num' * den) : ofRatio negative num den = ofRatio negative num' den' := by
  rw [← ofRatio_mul_right negative num hden hden', ← ofRatio_mul_right negative num' hden' hden, h,
    Nat.mul_comm den]

/-- A number of the format is what a quotient of its value is rounded to. -/
theorem ofRatio_of_canonical (negative : Bool) {m num den : Nat} {e : Int} (h : Canonical m e)
    (hm : m ≠ 0) (hden : 0 < den) (hvalue : num * power 2 (-e) = m * (den * power 2 e)) :
    ofRatio negative num den = .finite negative m e h := by
  have hscaled : 0 < den * power 2 e := Nat.mul_pos hden (power_pos two_pos e)
  have hnum : num ≠ 0 := by
    rintro rfl
    rw [Nat.zero_mul] at hvalue
    exact (Nat.mul_pos (Nat.pos_of_ne_zero hm) hscaled).ne hvalue
  obtain ⟨hlength, hmin, -, hfull⟩ := id h
  have hexponent : max (floorLog2 num den - (precision - 1)) minExponent = e := by
    have hlog : m.log2 < 53 := (Nat.log2_lt hm).mpr hlength
    rw [floorLog2_of_eq hm hnum hden hvalue]
    simp only [precision, minExponent] at hmin hfull ⊢
    rcases hfull with hfull | hfull
    · have hlog' : 52 ≤ m.log2 := (Nat.le_log2 hm).mpr hfull
      omega
    · omega
  have hmantissa : roundDiv (num * power 2 (-e)) (den * power 2 e) = m := by
    rw [hvalue]
    exact roundDiv_mul_self m hscaled
  have hshort : m ≠ power 2 precision := Nat.ne_of_lt hlength
  simp only [ofRatio, if_neg hnum, hexponent, mantissa_eq, hmantissa, if_neg hshort, pack, dif_pos h]

/-- The sign is put on what the amount is rounded to. -/
def signed (negative : Bool) : Binary64 → Binary64
  | .finite _ mantissa exponent canonical => .finite negative mantissa exponent canonical
  | .infinite _ => .infinite negative
  | .nan => .nan

theorem signed_pack (negative : Bool) (m : Nat) (e : Int) :
    (pack false m e).signed negative = pack negative m e := by
  unfold pack
  split <;> rfl

theorem signed_ofRatio (negative : Bool) (num den : Nat) :
    (ofRatio false num den).signed negative = ofRatio negative num den := by
  by_cases hnum : num = 0
  · simp only [ofRatio, if_pos hnum]
    rfl
  · simp only [ofRatio, if_neg hnum, mantissa_eq]
    split <;> exact signed_pack ..

/-! ### Quotients out of range -/

theorem pack_eq_infinite (negative : Bool) (m : Nat) {e : Int} (h : maxExponent < e) :
    pack negative m e = .infinite negative :=
  dif_neg fun hcanonical => absurd hcanonical.2.2.1 (not_le.mpr h)

/-- What has more binary digits than the greatest number is infinite. -/
theorem ofRatio_eq_infinite (negative : Bool) {num den : Nat} (hden : 0 < den)
    (h : (2 : ℚ) ^ (1024 : Int) ≤ num / den) : ofRatio negative num den = .infinite negative := by
  have hpos : (0 : ℚ) < num / den := lt_of_lt_of_le (zpow_pos two_pos _) h
  have hnum : num ≠ 0 := by
    rintro rfl
    simp at hpos
  have hlog : 1024 ≤ floorLog2 num den := by
    rw [floorLog2_eq_log hnum hden, ← Int.zpow_le_iff_le_log one_lt_two hpos, Nat.cast_ofNat]
    exact h
  have hlarge : maxExponent < max (floorLog2 num den - (precision - 1)) minExponent := by
    simp only [maxExponent, precision, minExponent]
    omega
  simp only [ofRatio, if_neg hnum, mantissa_eq]
  split
  · exact pack_eq_infinite negative _ (by omega)
  · exact pack_eq_infinite negative _ hlarge

theorem roundDiv_eq_zero {num den : Nat} (h : 2 * num < den) : roundDiv num den = 0 := by
  rw [roundDiv, Nat.div_eq_of_lt (by omega), Nat.mod_eq_of_lt (by omega), if_pos h]

/-- What is nearer to zero than to the least positive number is zero. -/
theorem ofRatio_eq_zero (negative : Bool) {num den : Nat}
    (h : 2 * (num * power 2 (-minExponent)) < den) : ofRatio negative num den = zero negative := by
  by_cases hnum : num = 0
  · rw [ofRatio, if_pos hnum]
  have hden : 0 < den := lt_of_le_of_lt (Nat.zero_le _) h
  have hd : (0 : ℚ) < den := by exact_mod_cast hden
  have hsmall : (num : ℚ) / den < (2 : ℚ) ^ minExponent := by
    have htwo : (power 2 minExponent : ℚ) / power 2 (-minExponent) = 2 ^ minExponent := by
      exact_mod_cast power_div_power 2 minExponent
    have hscale : 0 < power 2 (-minExponent) := power_pos two_pos _
    -- the power is far too large to be written out
    generalize power 2 (-minExponent) = scale at h htwo hscale
    have hless : num * scale < 1 * den := by omega
    rw [← htwo, power_of_nonpos 2 (by decide : minExponent ≤ 0),
      div_lt_div_iff₀ hd (by exact_mod_cast hscale)]
    exact_mod_cast hless
  have hlog : floorLog2 num den < minExponent := by
    have hpos : (0 : ℚ) < num / den := div_pos (by exact_mod_cast Nat.pos_of_ne_zero hnum) hd
    rw [floorLog2_eq_log hnum hden, ← Int.lt_zpow_iff_log_lt one_lt_two hpos]
    exact_mod_cast hsmall
  have hexponent : max (floorLog2 num den - (precision - 1)) minExponent = minExponent := by
    simp only [precision] at hlog ⊢
    omega
  have hmantissa : roundDiv (num * power 2 (-minExponent)) (den * power 2 minExponent) = 0 := by
    rw [power_of_nonpos 2 (by decide : minExponent ≤ 0), Nat.mul_one]
    exact roundDiv_eq_zero h
  have hshort : (0 : Nat) ≠ power 2 precision := (power_pos two_pos _).ne
  simp only [ofRatio, if_neg hnum, hexponent, mantissa_eq, hmantissa, if_neg hshort]
  rfl

/-! ## Decimals -/

/-- A decimal is a quotient: what is answered from the exponent alone is what rounding would answer. -/
theorem ofDecimal_eq_ofRatio (negative : Bool) (digits : Nat) (exponent : Int) :
    ofDecimal ⟨negative, digits, exponent⟩ =
      ofRatio negative (digits * power 10 exponent) (power 10 (-exponent)) := by
  by_cases hdigits : digits = 0
  · simp [ofDecimal, ofRatio, hdigits]
  have hone : 1 ≤ digits := Nat.pos_of_ne_zero hdigits
  simp only [ofDecimal, if_neg hdigits]
  split
  · next hhuge =>
    -- beyond all finite numbers
    refine (ofRatio_eq_infinite negative (power_pos (by decide) _) ?_).symm
    have hlarge : 2 ^ 1024 ≤ digits * power 10 exponent := by
      calc 2 ^ 1024 ≤ 10 ^ 310 := by decide +kernel
        _ ≤ power 10 exponent := Nat.pow_le_pow_right (by decide) (by omega)
        _ ≤ digits * power 10 exponent := Nat.le_mul_of_pos_left _ hone
    rw [power_of_nonpos 10 (by omega : -exponent ≤ 0), Nat.cast_one, div_one]
    exact_mod_cast hlarge
  · split
    · next hpos => rw [power_of_nonpos 10 (by omega : -exponent ≤ 0)]
    · next hneg =>
      rw [power_of_nonpos 10 (by omega : exponent ≤ 0), Nat.mul_one]
      split
      · next htiny =>
        -- below half of the least number
        refine (ofRatio_eq_zero negative ?_).symm
        obtain ⟨k, hk⟩ : ∃ k : Nat, -exponent = (330 + k : Nat) := ⟨(-exponent - 330).toNat, by omega⟩
        rw [hk] at htiny ⊢
        have hshort : digits < 8 ^ k := by
          rw [show (8 : Nat) = 2 ^ 3 from rfl, ← pow_mul, ← Nat.log2_lt hdigits]
          omega
        have hscale : 2 * power 2 (-minExponent) ≤ 10 ^ 330 := by decide +kernel
        calc 2 * (digits * power 2 (-minExponent))
            = digits * (2 * power 2 (-minExponent)) := Nat.mul_left_comm ..
          _ < 8 ^ k * (2 * power 2 (-minExponent)) :=
            Nat.mul_lt_mul_of_pos_right hshort (Nat.mul_pos two_pos (power_pos two_pos _))
          _ ≤ 10 ^ k * 10 ^ 330 := Nat.mul_le_mul (Nat.pow_le_pow_left (by decide) k) hscale
          _ = power 10 ((330 + k : Nat) : Int) := by rw [power_natCast, pow_add, Nat.mul_comm]
      · rfl

/-- A decimal is read by its value, however it is spelt. -/
theorem ofDecimal_congr (negative : Bool) {digits digits' : Nat} {exponent exponent' : Int}
    (h : digits * power 10 exponent * power 10 (-exponent') =
      digits' * power 10 exponent' * power 10 (-exponent)) :
    ofDecimal ⟨negative, digits, exponent⟩ = ofDecimal ⟨negative, digits', exponent'⟩ := by
  rw [ofDecimal_eq_ofRatio, ofDecimal_eq_ofRatio]
  exact ofRatio_congr negative (power_pos (by decide) _) (power_pos (by decide) _) h

theorem signed_ofDecimal (negative : Bool) (digits : Nat) (exponent : Int) :
    (ofDecimal ⟨false, digits, exponent⟩).signed negative = ofDecimal ⟨negative, digits, exponent⟩ := by
  rw [ofDecimal_eq_ofRatio, ofDecimal_eq_ofRatio, signed_ofRatio]

/-- A whole number as a decimal without a point. -/
theorem ofDecimal_natAbs (n : Int) : ofDecimal ⟨decide (n < 0), n.natAbs, 0⟩ = ofInt n := by
  rw [ofDecimal_eq_ofRatio, ofInt]
  congr 1
  exact Nat.mul_one _

end Binary64

end SchemaForm
