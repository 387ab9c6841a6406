import SchemaForm.Number.Binary64
import Mathlib.Algebra.Order.Ring.Nat
import Mathlib.Tactic.Ring
import Mathlib.Tactic.NormNum

/-!
# Rounding of whole numbers

What becomes of a whole number on its way through the 64-bit format. The mantissa has 53 binary
digits, so of a longer number the first 53 digits are kept, rounded, and the rest becomes zeros.

* `nearestWhole` — the number that is left, as a whole number again;
* `HasShortMantissa` — nothing but zeros is dropped, so that the number stays what it was;
* `finiteBound` — the first whole number that is too large for the format;
* `Rounds` — what the format makes of a whole number; `rounds_ofRatio` — it does so with every quotient
  that is one.

A numeral with a fraction of zeros is such a quotient, with a power of ten in both places; that is why
`ofRatio` is looked at with a common factor from the start.
-/

namespace SchemaForm

/-! ## Quotients -/

theorem power_natCast (base k : Nat) : power base (k : Int) = base ^ k := by
  simp [power]

theorem roundDiv_mul_right {c : Nat} (num den : Nat) (hc : 0 < c) :
    roundDiv (num * c) (den * c) = roundDiv num den := by
  have htwice : 2 * (num % den * c) = 2 * (num % den) * c := by ring
  unfold roundDiv
  simp only [Nat.mul_div_mul_right _ _ hc, Nat.mul_mod_mul_right, htwice,
    Nat.mul_lt_mul_right hc]

theorem roundDiv_mul_self {den : Nat} (n : Nat) (hd : 0 < den) : roundDiv (n * den) den = n := by
  simp [roundDiv, Nat.mul_div_cancel _ hd, hd]

@[simp] theorem roundDiv_one (n : Nat) : roundDiv n 1 = n := by
  simpa using roundDiv_mul_self n Nat.one_pos

/-- A rounded quotient is one of the two neighbours. -/
theorem roundDiv_bounds (num den : Nat) :
    num / den ≤ roundDiv num den ∧ roundDiv num den ≤ num / den + 1 := by
  simp only [roundDiv]
  split
  · omega
  · split
    · omega
    · split <;> omega

/-- Halfway below an even number the quotient is rounded up. -/
theorem roundDiv_lt_iff_of_even {num den q : Nat} (hd : 0 < den) (hq : q % 2 = 0) :
    roundDiv num den < q ↔ 2 * num + den < 2 * q * den := by
  have hsplit : den * (num / den) + num % den = num := Nat.div_add_mod num den
  have hrest : num % den < den := Nat.mod_lt num hd
  have hbounds := roundDiv_bounds num den
  have hcomm : 2 * q * den = den * (2 * q) := Nat.mul_comm _ _
  rcases lt_trichotomy (num / den + 1) q with hlt | heq | hgt
  · have hmul : den * (num / den + 2) ≤ den * q := Nat.mul_le_mul_left den hlt
    have hexpand : den * (num / den + 2) = den * (num / den) + 2 * den := by ring
    have hdouble : den * (2 * q) = 2 * (den * q) := by ring
    constructor <;> omega
  · have hodd : ¬ (num / den % 2 = 0) := by omega
    have hmul : den * (2 * q) = 2 * (den * (num / den)) + 2 * den := by rw [← heq]; ring
    simp only [roundDiv]
    split
    · omega
    · split <;> omega
  · have hmul : den * q ≤ den * (num / den) := Nat.mul_le_mul_left den (by omega)
    have hdouble : den * (2 * q) = 2 * (den * q) := by ring
    constructor <;> omega

/-! ## Signs -/

/-- A whole number from its sign and its amount. -/
def withSign (negative : Bool) (n : Nat) : Int := if negative then -(n : Int) else n

@[simp] theorem withSign_zero (negative : Bool) : withSign negative 0 = 0 := by
  cases negative <;> rfl

@[simp] theorem natAbs_withSign (negative : Bool) (n : Nat) : (withSign negative n).natAbs = n := by
  cases negative <;> simp [withSign]

theorem withSign_natAbs (n : Int) : withSign (decide (n < 0)) n.natAbs = n := by
  by_cases h : n < 0
  · simp only [withSign, h, decide_true, if_true]
    omega
  · simp only [withSign, h, decide_false, Bool.false_eq_true, if_false]
    omega

theorem withSign_inj {negative : Bool} {m n : Nat} :
    withSign negative m = withSign negative n ↔ m = n := by
  constructor
  · intro h
    simpa using congrArg Int.natAbs h
  · rintro rfl
    rfl

namespace Binary64

theorem power_precision : power 2 precision = 2 ^ 53 := rfl

theorem power_precision_pred : power 2 (precision - 1) = 2 ^ 52 := rfl

/-! ## The exponent -/

/-- The binary logarithm of a quotient that is a whole number. -/
theorem floorLog2_mul_self {n c : Nat} (hn : n ≠ 0) (hc : 0 < c) : floorLog2 (n * c) c = n.log2 := by
  have hc0 : c ≠ 0 := Nat.pos_iff_ne_zero.mp hc
  have hnc : n * c ≠ 0 := Nat.mul_ne_zero hn hc0
  have hlower : n.log2 + c.log2 ≤ (n * c).log2 := by
    rw [Nat.le_log2 hnc, pow_add]
    exact Nat.mul_le_mul (Nat.log2_self_le hn) (Nat.log2_self_le hc0)
  have hupper : (n * c).log2 < n.log2 + c.log2 + 2 := by
    rw [Nat.log2_lt hnc, show n.log2 + c.log2 + 2 = (n.log2 + 1) + (c.log2 + 1) by omega, pow_add]
    exact Nat.mul_lt_mul'' Nat.lt_log2_self Nat.lt_log2_self
  have hreached : ∀ k : Nat, c * power 2 (k : Int) ≤ n * c ↔ k ≤ n.log2 := by
    intro k
    rw [power_natCast, Nat.le_log2 hn, Nat.mul_comm n c]
    exact Nat.mul_le_mul_left_iff hc
  unfold floorLog2
  rcases Nat.eq_or_lt_of_le hlower with heq | hlt
  · have hguess : ((n * c).log2 : Int) - c.log2 = (n.log2 : Int) := by omega
    have hle : c * power 2 (n.log2 : Int) ≤ n * c := (hreached _).mpr (le_refl _)
    simp [hguess, hle]
  · have hguess : ((n * c).log2 : Int) - c.log2 = ((n.log2 + 1 : Nat) : Int) := by omega
    have hnle : ¬ c * power 2 ((n.log2 + 1 : Nat) : Int) ≤ n * c := by
      rw [hreached]
      omega
    have hpos : (0 : Int) ≤ ((n.log2 + 1 : Nat) : Int) := Int.natCast_nonneg _
    simp only [hguess, hpos, if_true, hnle]
    simp

/-! ## Whole numbers in the format -/

/-- The first whole number that is too large for the format: halfway between the greatest number of the
format and the next power of two, which counts as even. -/
def finiteBound : Nat := 2 ^ 1024 - 2 ^ 970

/-- The place of the last digit of the mantissa, for a whole number. -/
def lastPlace (n : Nat) : Nat := 2 ^ (n.log2 - 52)

/-- The whole number that is left of one after rounding. -/
def nearestWhole (n : Nat) : Nat := roundDiv n (lastPlace n) * lastPlace n

/-- Whether all binary digits after the first 53 are zeros. -/
def HasShortMantissa (n : Nat) : Prop := lastPlace n ∣ n

instance (n : Nat) : Decidable (HasShortMantissa n) := by
  unfold HasShortMantissa; infer_instance

theorem lastPlace_pos (n : Nat) : 0 < lastPlace n := Nat.two_pow_pos _

theorem lastPlace_of_lt {n : Nat} (h : n < 2 ^ 53) : lastPlace n = 1 := by
  have hlog : n.log2 - 52 = 0 := by
    by_cases hn : n = 0
    · simp [hn]
    · have := (Nat.log2_lt hn).mpr h
      omega
  simp [lastPlace, hlog]

/-- A short number stays what it is. -/
theorem nearestWhole_of_lt {n : Nat} (h : n < 2 ^ 53) : nearestWhole n = n := by
  simp [nearestWhole, lastPlace_of_lt h]

/-- Exactly the numbers without digits that are dropped stay what they are. -/
theorem nearestWhole_eq_self_iff {n : Nat} : nearestWhole n = n ↔ HasShortMantissa n := by
  constructor
  · intro h
    exact ⟨roundDiv n (lastPlace n), by rw [Nat.mul_comm]; exact h.symm⟩
  · rintro ⟨q, hq⟩
    have hswap : n = q * lastPlace n := hq.trans (Nat.mul_comm _ _)
    have hdiv : roundDiv n (lastPlace n) = q := by
      calc roundDiv n (lastPlace n) = roundDiv (q * lastPlace n) (lastPlace n) := by rw [← hswap]
        _ = q := roundDiv_mul_self q (lastPlace_pos n)
    rw [nearestWhole, hdiv]
    exact hswap.symm

/-- Up to `2^53` every whole number is a number of the format. -/
theorem hasShortMantissa_of_le {n : Nat} (h : n ≤ 2 ^ 53) : HasShortMantissa n := by
  rcases Nat.lt_or_eq_of_le h with hlt | rfl
  · rw [HasShortMantissa, lastPlace_of_lt hlt]
    exact Nat.one_dvd n
  · decide

/-- The mantissa of a long number has 53 digits, or is the next power of two. -/
theorem roundDiv_lastPlace_bounds {n : Nat} (h : 2 ^ 53 ≤ n) :
    2 ^ 52 ≤ roundDiv n (lastPlace n) ∧ roundDiv n (lastPlace n) ≤ 2 ^ 53 := by
  have hn : n ≠ 0 := by
    have := Nat.two_pow_pos 53
    omega
  have hlog : 53 ≤ n.log2 := (Nat.le_log2 hn).mpr h
  have hlow : 2 ^ 52 ≤ n / lastPlace n := by
    rw [Nat.le_div_iff_mul_le (lastPlace_pos n), lastPlace, ← pow_add,
      show 52 + (n.log2 - 52) = n.log2 by omega]
    exact Nat.log2_self_le hn
  have hhigh : n / lastPlace n < 2 ^ 53 := by
    rw [Nat.div_lt_iff_lt_mul (lastPlace_pos n), lastPlace, ← pow_add,
      show 53 + (n.log2 - 52) = n.log2 + 1 by omega]
    exact Nat.lt_log2_self
  have hbounds := roundDiv_bounds n (lastPlace n)
  omega

theorem lt_finiteBound_iff {n : Nat} (h : 2 ^ 53 ≤ n) :
    n < finiteBound ↔
      n.log2 < 1023 ∨ n.log2 = 1023 ∧ roundDiv n (lastPlace n) < 2 ^ 53 := by
  have hn : n ≠ 0 := by
    have := Nat.two_pow_pos 53
    omega
  have hhalf : ∀ k < 1023, 2 ^ (k + 1) ≤ finiteBound := by
    intro k hk
    exact le_trans (Nat.pow_le_pow_right (by decide) hk) (by decide +kernel)
  have hfull : ∀ k, 1023 < k → finiteBound ≤ 2 ^ k := by
    intro k hk
    have hbound : finiteBound ≤ 2 ^ 1024 := by decide +kernel
    exact le_trans hbound (pow_le_pow_right₀ one_le_two hk)
  rcases lt_trichotomy n.log2 1023 with hlt | heq | hgt
  · simp only [hlt, true_or, iff_true]
    exact lt_of_lt_of_le Nat.lt_log2_self (hhalf _ hlt)
  · -- with the largest exponent the mantissa decides, and the bound lies half a place above the last one
    have hplace : lastPlace n = 2 ^ 971 := by rw [lastPlace, heq]
    have hbound : 2 * finiteBound + 2 ^ 971 = 2 * 2 ^ 53 * 2 ^ 971 := by decide +kernel
    rw [hplace, roundDiv_lt_iff_of_even (Nat.two_pow_pos 971) (by decide)]
    constructor
    · intro hlt
      exact Or.inr ⟨heq, by omega⟩
    · rintro (hlt | ⟨-, hlt⟩) <;> omega
  · constructor
    · intro hlt
      exact absurd hlt (not_lt.mpr (le_trans (hfull _ hgt) (Nat.log2_self_le hn)))
    · rintro (hlt | ⟨heq, -⟩) <;> omega

/-! ## Reading the whole number back -/

theorem isFinite_of_toInt? {x : Binary64} {n : Int} (h : x.toInt? = some n) : x.isFinite = true := by
  cases x with
  | finite => rfl
  | infinite negative => exact absurd h (by simp [toInt?])
  | nan => exact absurd h (by simp [toInt?])

theorem toInt?_zero (negative : Bool) : (zero negative).toInt? = some 0 := by
  have hneg : ¬ (0 : Int) ≤ minExponent := by decide
  simp only [zero, toInt?, if_neg hneg, Nat.zero_mod, Nat.zero_div, if_true]
  cases negative <;> rfl

theorem canonical_natCast_iff {m k : Nat} (hlow : 2 ^ 52 ≤ m) (hhigh : m < 2 ^ 53) :
    Canonical m (k : Int) ↔ k ≤ 971 := by
  have hmin : minExponent ≤ (k : Int) := by simp only [minExponent]; omega
  have hmax : ((k : Int) ≤ maxExponent) ↔ k ≤ 971 := by simp only [maxExponent]; omega
  have hlow' : power 2 (precision - 1) ≤ m := hlow
  have hhigh' : m < power 2 precision := hhigh
  simp [Canonical, hmin, hmax, hlow', hhigh']

theorem toInt?_pack_natCast (negative : Bool) {m k : Nat} (hlow : 2 ^ 52 ≤ m) (hhigh : m < 2 ^ 53)
    (hk : k ≤ 971) : (pack negative m (k : Int)).toInt? = some (withSign negative (m * 2 ^ k)) := by
  rw [pack, dif_pos ((canonical_natCast_iff hlow hhigh).mpr hk)]
  simp [toInt?, power_natCast, withSign]

theorem pack_natCast_eq_infinite (negative : Bool) {m k : Nat} (hlow : 2 ^ 52 ≤ m)
    (hhigh : m < 2 ^ 53) (hk : ¬ k ≤ 971) : pack negative m (k : Int) = .infinite negative := by
  rw [pack, dif_neg (fun h => hk ((canonical_natCast_iff hlow hhigh).mp h))]

/-- A number below the first digit that would be dropped is exact, with zeros behind the point. -/
theorem toInt?_pack_neg (negative : Bool) {n k : Nat} (hk : 0 < k) (hk' : k ≤ 52)
    (hlow : 2 ^ 52 ≤ n * 2 ^ k) (hhigh : n * 2 ^ k < 2 ^ 53) :
    (pack negative (n * 2 ^ k) (-(k : Int))).toInt? = some (withSign negative n) := by
  have hcanonical : Canonical (n * 2 ^ k) (-(k : Int)) := by
    refine ⟨hhigh, ?_, ?_, Or.inl hlow⟩
    · simp only [minExponent]; omega
    · simp only [maxExponent]; omega
  have hneg : ¬ (0 : Int) ≤ -(k : Int) := by omega
  have hpos : 0 < 2 ^ k := Nat.two_pow_pos k
  rw [pack, dif_pos hcanonical]
  simp only [toInt?, if_neg hneg, neg_neg, power_natCast, Nat.mul_mod_left,
    Nat.mul_div_cancel _ hpos, if_true, withSign]
  rfl

/-- The exponent of a quotient that is a whole number puts the last digit of the mantissa 52 places
behind the first digit of the number. -/
theorem exponent_mul_self {n c : Nat} (hn : n ≠ 0) (hc : 0 < c) :
    max (floorLog2 (n * c) c - (precision - 1)) minExponent = (n.log2 : Int) - 52 := by
  rw [floorLog2_mul_self hn hc]
  simp only [precision, minExponent]
  omega

/-- What the format makes of a whole number with a sign: the nearest number that it has, or an
infinity. -/
def Rounds (negative : Bool) (n : Nat) (x : Binary64) : Prop :=
  (n < finiteBound → x.toInt? = some (withSign negative (nearestWhole n))) ∧
    (finiteBound ≤ n → x = .infinite negative)

/-- A mantissa of full length fits if its exponent does. -/
theorem rounds_pack (negative : Bool) {n m k : Nat} (hlow : 2 ^ 52 ≤ m) (hhigh : m < 2 ^ 53)
    (hwhole : m * 2 ^ k = nearestWhole n) (hfits : k ≤ 971 ↔ n < finiteBound) :
    Rounds negative n (pack negative m (k : Int)) := by
  constructor
  · intro hsmall
    rw [toInt?_pack_natCast negative hlow hhigh (hfits.mpr hsmall), hwhole]
  · intro hlarge
    exact pack_natCast_eq_infinite negative hlow hhigh (fun hk => not_lt.mpr hlarge (hfits.mp hk))

/-- Of a short number nothing is dropped. -/
theorem toInt?_ofRatio_of_lt (negative : Bool) {n c : Nat} (hn : n ≠ 0) (hc : 0 < c)
    (hshort : n < 2 ^ 53) : (ofRatio negative (n * c) c).toInt? = some (withSign negative n) := by
  have hnum : n * c ≠ 0 := Nat.mul_ne_zero hn (Nat.pos_iff_ne_zero.mp hc)
  have hlower : 2 ^ n.log2 ≤ n := Nat.log2_self_le hn
  have hupper : n < 2 ^ (n.log2 + 1) := Nat.lt_log2_self
  have hlog : n.log2 < 53 := (Nat.log2_lt hn).mpr hshort
  simp only [ofRatio, if_neg hnum, exponent_mul_self hn hc]
  rcases Nat.lt_or_eq_of_le (Nat.le_of_lt_succ hlog) with hlt | heq
  · -- the mantissa is filled up with zeros behind the point
    have hplace : (n.log2 : Int) - 52 = -((52 - n.log2 : Nat) : Int) := by omega
    have hneg : ¬ (0 : Int) ≤ -((52 - n.log2 : Nat) : Int) := by omega
    have hmantissa : roundDiv (n * c * 2 ^ (52 - n.log2)) c = n * 2 ^ (52 - n.log2) := by
      rw [Nat.mul_right_comm]
      exact roundDiv_mul_self _ hc
    have hlow : 2 ^ 52 ≤ n * 2 ^ (52 - n.log2) := by
      calc 2 ^ 52 = 2 ^ n.log2 * 2 ^ (52 - n.log2) := by rw [← pow_add]; congr 1; omega
        _ ≤ n * 2 ^ (52 - n.log2) := Nat.mul_le_mul_right _ hlower
    have hhigh : n * 2 ^ (52 - n.log2) < 2 ^ 53 := by
      calc n * 2 ^ (52 - n.log2) < 2 ^ (n.log2 + 1) * 2 ^ (52 - n.log2) :=
            Nat.mul_lt_mul_of_pos_right hupper (Nat.two_pow_pos _)
        _ = 2 ^ 53 := by rw [← pow_add]; congr 1; omega
    have hne : ¬ n * 2 ^ (52 - n.log2) = power 2 precision := Nat.ne_of_lt hhigh
    rw [hplace]
    simp only [if_neg hneg, neg_neg, power_natCast, hmantissa, if_neg hne]
    exact toInt?_pack_neg negative (by omega) (by omega) hlow hhigh
  · have hplace : (n.log2 : Int) - 52 = ((0 : Nat) : Int) := by omega
    have hmantissa : roundDiv (n * c) (c * power 2 ((0 : Nat) : Int)) = n := by
      rw [power_natCast, pow_zero, Nat.mul_one]
      exact roundDiv_mul_self n hc
    have hne : ¬ n = power 2 precision := Nat.ne_of_lt hshort
    rw [heq] at hlower
    rw [hplace]
    simp only [Int.natCast_nonneg, if_true, hmantissa, if_neg hne]
    rw [toInt?_pack_natCast negative hlower hshort (Nat.zero_le 971), pow_zero, Nat.mul_one]

/-- Of a long number the mantissa is left, unless it is too large. -/
theorem rounds_ofRatio_of_le (negative : Bool) {n c : Nat} (hc : 0 < c) (hlong : 2 ^ 53 ≤ n) :
    Rounds negative n (ofRatio negative (n * c) c) := by
  have hn : n ≠ 0 := Nat.ne_of_gt (lt_of_lt_of_le (Nat.two_pow_pos 53) hlong)
  have hnum : n * c ≠ 0 := Nat.mul_ne_zero hn (Nat.pos_iff_ne_zero.mp hc)
  have hlog : 53 ≤ n.log2 := (Nat.le_log2 hn).mpr hlong
  have hplace : (n.log2 : Int) - 52 = ((n.log2 - 52 : Nat) : Int) := by omega
  have hmantissa : roundDiv (n * c) (c * power 2 ((n.log2 - 52 : Nat) : Int)) =
      roundDiv n (lastPlace n) := by
    rw [power_natCast, Nat.mul_comm c]
    exact roundDiv_mul_right n (lastPlace n) hc
  obtain ⟨hlow, hhigh⟩ := roundDiv_lastPlace_bounds hlong
  simp only [ofRatio, if_neg hnum, exponent_mul_self hn hc]
  rw [hplace]
  simp only [Int.natCast_nonneg, if_true, hmantissa]
  by_cases hcarry : roundDiv n (lastPlace n) = power 2 precision
  · -- rounding up has carried into a new first digit: the mantissa starts again one place further
    have hnext : ((n.log2 - 52 : Nat) : Int) + 1 = ((n.log2 - 51 : Nat) : Int) := by omega
    have hwhole : 2 ^ 52 * 2 ^ (n.log2 - 51) = nearestWhole n := by
      have hshift : n.log2 - 51 = (n.log2 - 52) + 1 := by omega
      rw [nearestWhole, hcarry, power_precision, lastPlace, hshift, pow_succ]
      ring
    have hfits : n.log2 - 51 ≤ 971 ↔ n < finiteBound := by
      rw [lt_finiteBound_iff hlong, hcarry, power_precision]
      simp only [lt_irrefl, and_false, or_false]
      omega
    rw [if_pos hcarry, hnext, power_precision_pred]
    exact rounds_pack negative (le_refl _) (by decide) hwhole hfits
  · have hlt : roundDiv n (lastPlace n) < 2 ^ 53 := lt_of_le_of_ne hhigh hcarry
    have hfits : n.log2 - 52 ≤ 971 ↔ n < finiteBound := by
      rw [lt_finiteBound_iff hlong]
      simp only [hlt, and_true]
      omega
    rw [if_neg hcarry]
    exact rounds_pack negative hlow hlt rfl hfits

/-- Every quotient that is a whole number is rounded like the number itself. -/
theorem rounds_ofRatio (negative : Bool) (n : Nat) {c : Nat} (hc : 0 < c) :
    Rounds negative n (ofRatio negative (n * c) c) := by
  rcases Nat.lt_or_ge n (2 ^ 53) with hshort | hlong
  · have hsmall : n < finiteBound := lt_trans hshort (by decide +kernel)
    refine ⟨fun _ => ?_, fun hlarge => absurd hsmall (not_lt.mpr hlarge)⟩
    rw [nearestWhole_of_lt hshort]
    by_cases hn : n = 0
    · subst hn
      rw [ofRatio, if_pos (Nat.zero_mul c), withSign_zero]
      exact toInt?_zero negative
    · exact toInt?_ofRatio_of_lt negative hn hc hshort
  · exact rounds_ofRatio_of_le negative hc hlong

/-! ## Decimals and whole numbers -/

/-- A decimal with nothing but zeros behind the point is rounded like the whole number in front of it. -/
theorem rounds_ofDecimal (negative : Bool) (n : Nat) {k : Nat} (hk : 0 < k) :
    Rounds negative n (ofDecimal ⟨negative, n * 10 ^ k, -(k : Int)⟩) := by
  have hpow : 0 < 10 ^ k := Nat.pow_pos (by decide)
  by_cases hn : n = 0
  · subst hn
    have hzero : ofRatio negative (0 * 10 ^ k) (10 ^ k) = zero negative := by
      rw [ofRatio, if_pos (Nat.zero_mul _)]
    have := rounds_ofRatio negative 0 hpow
    rw [hzero] at this
    simpa [ofDecimal] using this
  · have hdigits : n * 10 ^ k ≠ 0 := Nat.mul_ne_zero hn (Nat.pos_iff_ne_zero.mp hpow)
    -- the short answers for numbers that are far too large or far too small do not apply
    have hhuge : ¬ (310 : Int) ≤ -(k : Int) := by omega
    have hneg : ¬ (0 : Int) ≤ -(k : Int) := by omega
    have htiny : ¬ (((n * 10 ^ k).log2 : Int) + 1 ≤ 3 * ((k : Int) - 330)) := by
      have hlog : 3 * k ≤ (n * 10 ^ k).log2 := by
        rw [Nat.le_log2 hdigits, pow_mul]
        calc (2 ^ 3) ^ k ≤ 10 ^ k := Nat.pow_le_pow_left (by decide) k
          _ ≤ n * 10 ^ k := Nat.le_mul_of_pos_left _ (Nat.pos_of_ne_zero hn)
      omega
    have hexact : ofDecimal ⟨negative, n * 10 ^ k, -(k : Int)⟩ =
        ofRatio negative (n * 10 ^ k) (10 ^ k) := by
      simp only [ofDecimal, if_neg hdigits, if_neg hhuge, if_neg hneg, neg_neg, if_neg htiny,
        power_natCast]
    rw [hexact]
    exact rounds_ofRatio negative n hpow

/-- What is read back of a whole number that has gone through the format. -/
theorem toInt?_ofInt_withSign (negative : Bool) (n : Nat) :
    (ofInt (withSign negative n)).toInt? =
      if n < finiteBound then some (withSign negative (nearestWhole n)) else none := by
  have hrounds := rounds_ofRatio (decide (withSign negative n < 0)) n Nat.one_pos
  rw [Nat.mul_one] at hrounds
  have hofInt : ofInt (withSign negative n) = ofRatio (decide (withSign negative n < 0)) n 1 := by
    rw [ofInt, natAbs_withSign]
  rw [hofInt]
  by_cases hsmall : n < finiteBound
  · rw [if_pos hsmall, hrounds.1 hsmall]
    by_cases hn : n = 0
    · subst hn
      simp [nearestWhole_of_lt (Nat.two_pow_pos 53)]
    · -- only zero loses its sign on the way through the integers
      have hsign : decide (withSign negative n < 0) = negative := by
        cases negative with
        | false => simp [withSign]
        | true =>
          simp only [withSign, if_true, decide_eq_true_eq]
          omega
      rw [hsign]
  · rw [if_neg hsmall, hrounds.2 (not_lt.mp hsmall)]
    rfl

/-- Exactly the whole numbers below the bound are finite in the format. -/
theorem isSome_toInt?_ofInt {n : Int} : (ofInt n).toInt?.isSome ↔ n.natAbs < finiteBound := by
  rw [← withSign_natAbs n, toInt?_ofInt_withSign, natAbs_withSign]
  split <;> simp_all

theorem isFinite_ofInt_iff {n : Int} : (ofInt n).isFinite = true ↔ n.natAbs < finiteBound := by
  have hrounds := rounds_ofRatio (decide (n < 0)) n.natAbs Nat.one_pos
  rw [Nat.mul_one] at hrounds
  constructor
  · intro hfinite
    by_contra hlarge
    rw [ofInt, hrounds.2 (not_lt.mp hlarge)] at hfinite
    exact Bool.noConfusion hfinite
  · intro hsmall
    exact isFinite_of_toInt? (hrounds.1 hsmall)

/-- Exactly the finite ones with a short mantissa are numbers of the format. -/
theorem toInt?_ofInt_eq_self_iff {n : Int} :
    (ofInt n).toInt? = some n ↔ n.natAbs < finiteBound ∧ HasShortMantissa n.natAbs := by
  rw [← nearestWhole_eq_self_iff]
  generalize hnegative : decide (n < 0) = negative
  have hn : withSign negative n.natAbs = n := by rw [← hnegative, withSign_natAbs]
  have hread := toInt?_ofInt_withSign negative n.natAbs
  rw [hn] at hread
  rw [hread]
  by_cases hsmall : n.natAbs < finiteBound
  · rw [if_pos hsmall, Option.some.injEq]
    constructor
    · intro h
      exact ⟨hsmall, withSign_inj.mp (h.trans hn.symm)⟩
    · rintro ⟨-, h⟩
      rw [h, hn]
  · simp [hsmall]

end Binary64

end SchemaForm
