import SchemaForm.Number.Shortest
import SchemaForm.Proofs.Value.Equality

/-!
# The digits of a floating point number

The digits that are chosen for a number are read back as the number, and if it is a whole number below
`10^16`, then they are its own.

* `ofDecimal_stripZeros`, `ofDecimal_firstHit?`, `ofDecimal_exactDecimal` — what each step of the search
  leaves is read as the number;
* `ofDecimal_shortest` — so is the outcome;
* `shortest_of_whole` — the digits of a whole number are exact. Of a number with more than 53 binary digits
  others would do as well, but a multiple of ten below `10^16` has a bit to spare.
-/

namespace SchemaForm

namespace Binary64

/-! ## What is read back -/

theorem ofDecimal_zero (negative : Bool) (exponent : Int) :
    ofDecimal ⟨negative, 0, exponent⟩ = zero negative := by
  rw [ofDecimal, if_pos rfl]

/-- A power of ten moves between the digits and the exponent. -/
theorem power_succ_mul (exponent : Int) :
    power 10 (exponent + 1) * power 10 (-exponent) =
      10 * (power 10 exponent * power 10 (-(exponent + 1))) := by
  obtain ⟨k, rfl | rfl⟩ := exponent.eq_nat_or_neg
  · rw [power_of_nonpos 10 (by omega : -(k : Int) ≤ 0),
      power_of_nonpos 10 (by omega : -((k : Int) + 1) ≤ 0),
      show (k : Int) + 1 = ((k + 1 : Nat) : Int) by omega, power_natCast, power_natCast, pow_succ]
    ring
  · cases k with
    | zero => rfl
    | succ k =>
      rw [power_of_nonpos 10 (by omega : -((k + 1 : Nat) : Int) + 1 ≤ 0),
        power_of_nonpos 10 (by omega : -((k + 1 : Nat) : Int) ≤ 0), neg_neg,
        show -(-((k + 1 : Nat) : Int) + 1) = (k : Int) by omega, power_natCast, power_natCast, pow_succ]
      ring

/-- A zero at the end of the digits is as good as a place more. -/
theorem ofDecimal_ten_mul (negative : Bool) (digits : Nat) (exponent : Int) :
    ofDecimal ⟨negative, 10 * digits, exponent⟩ = ofDecimal ⟨negative, digits, exponent + 1⟩ := by
  apply ofDecimal_congr
  rw [Nat.mul_assoc, Nat.mul_assoc digits, power_succ_mul]
  ring

/-- Zeros at the end of the digits are as good as a greater exponent. -/
theorem ofDecimal_mul_pow (negative : Bool) (digits zeros : Nat) (exponent : Int) :
    ofDecimal ⟨negative, digits * 10 ^ zeros, exponent⟩ =
      ofDecimal ⟨negative, digits, exponent + zeros⟩ := by
  induction zeros generalizing digits exponent with
  | zero => simp
  | succ zeros ih =>
    rw [pow_succ, ← Nat.mul_assoc, Nat.mul_comm _ 10, ofDecimal_ten_mul, ih, add_assoc,
      Nat.cast_add_one, add_comm (1 : Int)]

/-- Moving zeros into the exponent does not change the number. -/
theorem ofDecimal_stripZeros (fuel digits : Nat) (exponent : Int) :
    ofDecimal ⟨false, (stripZeros fuel digits exponent).1, (stripZeros fuel digits exponent).2⟩ =
      ofDecimal ⟨false, digits, exponent⟩ := by
  induction fuel generalizing digits exponent with
  | zero => rfl
  | succ fuel ih =>
    rw [stripZeros]
    split
    · next hzero =>
      have hdigits : 10 * (digits / 10) = digits := Nat.mul_div_cancel' (Nat.dvd_of_mod_eq_zero hzero.2)
      rw [ih, ← ofDecimal_ten_mul, hdigits]
    · rfl

/-- Of two candidates the first that is read as the number. -/
theorem hit_of_ite {target : Binary64} {exponent : Int} {a b digits : Nat}
    (h : (if ofDecimal ⟨false, a, exponent⟩ = target then some a
      else if ofDecimal ⟨false, b, exponent⟩ = target then some b else none) = some digits) :
    ofDecimal ⟨false, digits, exponent⟩ = target ∧ (digits = a ∨ digits = b) := by
  split at h
  · next ha =>
    obtain rfl := Option.some.inj h
    exact ⟨ha, Or.inl rfl⟩
  · split at h
    · next hb =>
      obtain rfl := Option.some.inj h
      exact ⟨hb, Or.inr rfl⟩
    · exact absurd h (by simp)

/-- A numeral of a grid is read as the number. -/
theorem ofDecimal_nearestOnGrid? {target : Binary64} {num den digits : Nat} {exponent : Int}
    (h : nearestOnGrid? target num den exponent = some digits) :
    ofDecimal ⟨false, digits, exponent⟩ = target := by
  simp only [nearestOnGrid?, decide_eq_true_eq] at h
  exact (hit_of_ite h).1

/-- A numeral that was found on a grid reads back to the number. -/
theorem ofDecimal_firstHit? {target : Binary64} {num den : Nat} {top : Int} {counts : List Nat}
    {digits : Nat} {exponent : Int} (h : firstHit? target num den top counts = some (digits, exponent)) :
    ofDecimal ⟨false, digits, exponent⟩ = target := by
  induction counts with
  | nil => exact absurd h (by simp [firstHit?])
  | cons count more ih =>
    rw [firstHit?] at h
    split at h
    · next found hfound =>
      obtain ⟨rfl, rfl⟩ := Prod.mk.inj (Option.some.inj h)
      exact ofDecimal_nearestOnGrid? hfound
    · exact ih h

/-- The exact decimal does, too. -/
theorem ofDecimal_exactDecimal {m : Nat} {e : Int} (h : Canonical m e) (hm : m ≠ 0) :
    ofDecimal ⟨false, (exactDecimal m e).1, (exactDecimal m e).2⟩ = .finite false m e h := by
  rw [ofDecimal_eq_ofRatio]
  refine ofRatio_of_canonical false h hm (power_pos (by decide) _) ?_
  unfold exactDecimal
  split
  · next hnonneg =>
    rw [power_of_nonpos 2 (by omega : -e ≤ 0)]
    simp [power]
  · next hneg =>
    obtain ⟨k, rfl⟩ : ∃ k : Nat, e = -(k : Int) := ⟨(-e).toNat, by omega⟩
    rw [power_of_nonpos 2 (by omega : -(k : Int) ≤ 0), power_of_nonpos 10 (by omega : -(k : Int) ≤ 0),
      neg_neg, power_natCast, power_natCast, power_natCast, Nat.mul_one, Nat.mul_one, Nat.mul_assoc,
      ← mul_pow]
    norm_num

/-- So the numeral reads back to the number, whichever of the two it is. -/
theorem ofDecimal_firstNumeral {m : Nat} {e : Int} (h : Canonical m e) (hm : m ≠ 0) :
    ofDecimal ⟨false, (firstNumeral m e).1, (firstNumeral m e).2⟩ = .finite false m e h := by
  have hpack : pack false m e = .finite false m e h := dif_pos h
  rw [← hpack, firstNumeral]
  cases ratio m e with
  | mk num den =>
    dsimp only
    cases hfound : firstHit? (pack false m e) num den (magnitude num den) (List.range' 1 17) with
    | none =>
      rw [hpack]
      exact ofDecimal_exactDecimal h hm
    | some found => exact ofDecimal_firstHit? hfound

/-- The digits that are chosen are read as the number. -/
theorem ofDecimal_shortest {m : Nat} {e : Int} (h : Canonical m e) (hm : m ≠ 0) :
    ofDecimal ⟨false, (shortest m e).1, (shortest m e).2⟩ = .finite false m e h := by
  rw [shortest, ofDecimal_stripZeros]
  exact ofDecimal_firstNumeral h hm

/-! ## Whole numbers -/

/-- On a grid of whole numbers a numeral is at most one step above the number. -/
theorem le_of_nearestOnGrid? {target : Binary64} {num den digits : Nat} {exponent : Int}
    (hexponent : 0 ≤ exponent) (h : nearestOnGrid? target num den exponent = some digits) :
    digits ≤ num / (den * power 10 exponent) + 1 := by
  have hbounds := roundDiv_bounds num (den * power 10 exponent)
  simp only [nearestOnGrid?, if_pos hexponent, decide_eq_true_eq] at h
  rcases (hit_of_ite h).2 with rfl | rfl
  · exact hbounds.2
  · split <;> omega

theorem ofDecimal_whole (digits zeros : Nat) :
    ofDecimal ⟨false, digits, zeros⟩ = ofInt (digits * 10 ^ zeros : Nat) := by
  rw [ofDecimal_eq_ofRatio, power_of_nonpos 10 (by omega : -(zeros : Int) ≤ 0), power_natCast, ofInt,
    Int.natAbs_natCast, decide_eq_false (not_lt.mpr (Int.natCast_nonneg _))]

/-- On the grid of all whole numbers a whole number is its own numeral. -/
theorem nearestOnGrid?_of_whole (k : Nat) {den : Nat} (hden : 0 < den) :
    nearestOnGrid? (ofInt k) (k * den) den 0 = some k := by
  have hone : power 10 0 = 1 := rfl
  have hself : ofDecimal ⟨false, k, 0⟩ = ofInt k := by simpa using ofDecimal_whole k 0
  simp [nearestOnGrid?, hone, roundDiv_mul_self k hden, hself]

/-- Zeros at the end of the digits are so many digits more. -/
theorem length_toDigits_mul_pow {k : Nat} (hk : 0 < k) (zeros : Nat) :
    (Nat.toDigits 10 (k * 10 ^ zeros)).length = (Nat.toDigits 10 k).length + zeros := by
  refine eq_of_forall_ge_iff fun bound => ?_
  have hpos : 0 < (Nat.toDigits 10 k).length := Nat.length_toDigits_pos
  by_cases hbound : bound ≤ zeros
  · refine iff_of_false (fun hle => ?_) (by omega)
    have hle' := hle.trans hbound
    have hpos' : 0 < (Nat.toDigits 10 (k * 10 ^ zeros)).length := Nat.length_toDigits_pos
    rw [Nat.length_toDigits_le_iff (by decide) (by omega)] at hle'
    exact absurd hle' (not_lt.mpr (Nat.le_mul_of_pos_left _ hk))
  · obtain ⟨extra, rfl⟩ : ∃ extra, bound = extra + zeros := ⟨bound - zeros, by omega⟩
    rw [Nat.length_toDigits_le_iff (by decide) (by omega), Nat.add_le_add_iff_right,
      Nat.length_toDigits_le_iff (by decide) (by omega), pow_add]
    exact Nat.mul_lt_mul_right (Nat.pow_pos (by decide))

/-- The digits before the point of a whole number are all its digits. -/
theorem magnitude_of_whole {k den : Nat} (hk : 0 < k) (hden : 0 < den) :
    magnitude (k * den) den = (Nat.toDigits 10 k).length := by
  have hscaled : ∀ scale, k * den * scale / den = k * scale := fun scale => by
    rw [Nat.mul_right_comm, Nat.mul_div_cancel _ hden]
  rw [magnitude, hscaled, show (350 : Int) = ((350 : Nat) : Int) from rfl, power_natCast,
    length_toDigits_mul_pow hk]
  omega

/-- A multiple of ten up to `10^16` is a number of the format. -/
theorem hasShortMantissa_of_even {n : Nat} (heven : n % 2 = 0) (hbound : n ≤ 10 ^ 16) :
    HasShortMantissa n := by
  by_cases hshort : n ≤ 2 ^ 53
  · exact hasShortMantissa_of_le hshort
  · have hn : n ≠ 0 := by omega
    have hlow : 53 ≤ n.log2 := (Nat.le_log2 hn).mpr (by omega)
    have hhigh : n.log2 < 54 := (Nat.log2_lt hn).mpr (by omega)
    have hplace : lastPlace n = 2 := by rw [lastPlace, show n.log2 - 52 = 1 by omega, pow_one]
    rw [HasShortMantissa, hplace]
    exact Nat.dvd_of_mod_eq_zero heven

/-- What is read as a whole number and ends in a zero is that number. -/
theorem eq_of_ofDecimal_whole {digits zeros k : Nat} (hzeros : 0 < zeros)
    (hbound : digits * 10 ^ zeros ≤ 10 ^ 16)
    (hread : (ofDecimal ⟨false, digits, zeros⟩).toInt? = some (k : Int)) : digits * 10 ^ zeros = k := by
  obtain ⟨more, rfl⟩ : ∃ more, zeros = more + 1 := ⟨zeros - 1, by omega⟩
  have heven : digits * 10 ^ (more + 1) % 2 = 0 := by
    rw [pow_succ, show digits * (10 ^ more * 10) = 2 * (digits * 10 ^ more * 5) by ring,
      Nat.mul_mod_right]
  have hfinite : digits * 10 ^ (more + 1) < finiteBound := lt_of_le_of_lt hbound (by decide +kernel)
  have hexact : (ofInt (digits * 10 ^ (more + 1) : Nat)).toInt? =
      some ((digits * 10 ^ (more + 1) : Nat) : Int) :=
    toInt?_ofInt_eq_self_iff.mpr ⟨hfinite, hasShortMantissa_of_even heven hbound⟩
  rw [ofDecimal_whole, hexact, Option.some.injEq] at hread
  exact Int.ofNat.inj hread

/-- What is found on a grid of whole numbers is the number: on the grid of all of them it is found at
once, and any other numeral ends in a zero. -/
theorem eq_of_nearestOnGrid?_whole {k den digits count zeros : Nat} (hden : 0 < den)
    (hk : k < 10 ^ (count + zeros)) (htop : count + zeros ≤ 16)
    (hread : (ofInt k).toInt? = some (k : Int))
    (hfound : nearestOnGrid? (ofInt k) (k * den) den zeros = some digits) : digits * 10 ^ zeros = k := by
  by_cases hzeros : zeros = 0
  · subst hzeros
    rw [Nat.cast_zero, nearestOnGrid?_of_whole k hden, Option.some.injEq] at hfound
    rw [← hfound, pow_zero, Nat.mul_one]
  · have hbelow : k / 10 ^ zeros < 10 ^ count := by
      rw [Nat.div_lt_iff_lt_mul (Nat.pow_pos (by decide)), ← pow_add]
      exact hk
    have hdigits : digits ≤ 10 ^ count := by
      have hle := le_of_nearestOnGrid? (Int.natCast_nonneg zeros) hfound
      rw [power_natCast, Nat.mul_comm den, Nat.mul_div_mul_right _ _ hden] at hle
      omega
    have hbound : digits * 10 ^ zeros ≤ 10 ^ 16 := by
      calc digits * 10 ^ zeros ≤ 10 ^ count * 10 ^ zeros := Nat.mul_le_mul_right _ hdigits
        _ = 10 ^ (count + zeros) := (pow_add ..).symm
        _ ≤ 10 ^ 16 := Nat.pow_le_pow_right (by decide) htop
    have hread' : ofDecimal ⟨false, digits, zeros⟩ = ofInt k := ofDecimal_nearestOnGrid? hfound
    exact eq_of_ofDecimal_whole (Nat.pos_of_ne_zero hzeros) hbound (by rw [hread', hread])

/-- The search ends, at the grid of all whole numbers at the latest, with the digits of the number. By
induction on the number of grids that are left. -/
theorem firstHit?_of_whole {k den top : Nat} (hden : 0 < den) (hk : k < 10 ^ top) (htop : top ≤ 16)
    (hread : (ofInt k).toInt? = some (k : Int)) (grids : Nat) {count : Nat} (hcount : count ≤ top)
    (hgrids : top < count + grids) :
    ∃ digits zeros : Nat, firstHit? (ofInt k) (k * den) den top (List.range' count grids) =
      some (digits, (zeros : Int)) ∧ digits * 10 ^ zeros = k := by
  induction grids generalizing count with
  | zero => omega
  | succ grids ih =>
    obtain ⟨zeros, rfl⟩ : ∃ zeros, top = count + zeros := ⟨top - count, by omega⟩
    have hexponent : ((count + zeros : Nat) : Int) - count = (zeros : Int) := by omega
    rw [List.range'_succ, firstHit?, hexponent]
    cases hfound : nearestOnGrid? (ofInt k) (k * den) den zeros with
    | none =>
      have hzeros : zeros ≠ 0 := by
        rintro rfl
        rw [Nat.cast_zero, nearestOnGrid?_of_whole k hden] at hfound
        exact absurd hfound (by simp)
      exact ih (by omega) (by omega)
    | some digits => exact ⟨digits, zeros, rfl, eq_of_nearestOnGrid?_whole hden hk htop hread hfound⟩

/-- The terms of a whole number have no fraction. -/
theorem ratio_of_whole {m k : Nat} {e : Int} (hk : k * power 2 (-e) = m * power 2 e) :
    ∃ den, 0 < den ∧ ratio m e = (k * den, den) := by
  unfold ratio
  split
  · next hnonneg =>
    rw [power_of_nonpos 2 (by omega : -e ≤ 0), Nat.mul_one] at hk
    exact ⟨1, Nat.one_pos, by rw [hk, Nat.mul_one]⟩
  · next hneg =>
    rw [power_of_nonpos 2 (by omega : e ≤ 0), Nat.mul_one] at hk
    exact ⟨power 2 (-e), power_pos two_pos _, by rw [hk]⟩

theorem stripZeros_of_whole (fuel digits zeros : Nat) :
    ∃ digits' zeros' : Nat, stripZeros fuel digits zeros = (digits', (zeros' : Int)) ∧
      digits' * 10 ^ zeros' = digits * 10 ^ zeros := by
  induction fuel generalizing digits zeros with
  | zero => exact ⟨digits, zeros, rfl, rfl⟩
  | succ fuel ih =>
    rw [stripZeros]
    split
    · next hzero =>
      obtain ⟨digits', zeros', hstrip, hvalue⟩ := ih (digits / 10) (zeros + 1)
      refine ⟨digits', zeros', hstrip, ?_⟩
      have hdigits : digits / 10 * 10 = digits := Nat.div_mul_cancel (Nat.dvd_of_mod_eq_zero hzero.2)
      calc digits' * 10 ^ zeros' = digits / 10 * 10 ^ (zeros + 1) := hvalue
        _ = digits / 10 * 10 * 10 ^ zeros := by ring
        _ = digits * 10 ^ zeros := by rw [hdigits]
    · exact ⟨digits, zeros, rfl, rfl⟩

/-- The digits of a whole number below `10^16` are its own. -/
theorem shortest_of_whole {m k : Nat} {e : Int} (h : Canonical m e) (hk : 0 < k) (hbound : k < 10 ^ 16)
    (hread : (finite false m e h).toInt? = some (k : Int)) :
    ∃ digits zeros : Nat, shortest m e = (digits, (zeros : Int)) ∧ digits * 10 ^ zeros = k := by
  have hpack : pack false m e = ofInt k := by
    rw [pack, dif_pos h]
    exact eq_ofInt_of_toInt? hread (by omega)
  obtain ⟨k', hsame, hvalue⟩ := toInt?_finite_eq_some_iff.mp hread
  obtain rfl : k = k' := Int.ofNat.inj hsame
  obtain ⟨den, hden, hratio⟩ := ratio_of_whole hvalue
  have hlength : (Nat.toDigits 10 k).length ≤ 16 :=
    (Nat.length_toDigits_le_iff (by decide) (by decide)).mpr hbound
  have hpos : 0 < (Nat.toDigits 10 k).length := Nat.length_toDigits_pos
  have hdigits : k < 10 ^ (Nat.toDigits 10 k).length :=
    (Nat.length_toDigits_le_iff (by decide) hpos).mp (le_refl _)
  have hself : (ofInt k).toInt? = some (k : Int) := by
    rw [← eq_ofInt_of_toInt? hread (by omega)]
    exact hread
  obtain ⟨digits, zeros, hfound, hdigits⟩ :=
    firstHit?_of_whole hden hdigits hlength hself 17 (by omega : 1 ≤ _) (by omega)
  obtain ⟨digits', zeros', hstrip, hdigits'⟩ := stripZeros_of_whole 20 digits zeros
  refine ⟨digits', zeros', ?_, hdigits'.trans hdigits⟩
  have hfirst : firstNumeral m e = (digits, (zeros : Int)) := by
    rw [firstNumeral, hratio]
    dsimp only
    rw [hpack, magnitude_of_whole hk hden, hfound, Option.getD_some]
  rw [shortest, hfirst]
  exact hstrip

end Binary64

end SchemaForm
