import SchemaForm.Proofs.Number.Rounding
import SchemaForm.Proofs.Number.Spelling

/-!
# Numerals by their parts

What is read of a numeral that is put together from a sign, digits, a fraction and an exponent.

* `IsDigits` — texts of ASCII digits, and how they are taken off a text;
* `parseInt?_append` — a whole number;
* `Decimal.parse?_append`, with `Decimal.parse?_plain` and `Decimal.parse?_point` — a decimal;
* `Decimal.parseExponent?_written` — an exponent, which may be filled up with zeros.
-/

namespace SchemaForm

open SchemaForm.Text

/-! ## Digits -/

/-- The text is made of ASCII digits. -/
def IsDigits (text : List Char) : Prop := ∀ c ∈ text, isAsciiDigit c = true

namespace IsDigits

variable {text rest : List Char}

theorem append (h : IsDigits text) (hrest : IsDigits rest) : IsDigits (text ++ rest) := by
  intro c hc
  rcases List.mem_append.mp hc with hc | hc
  · exact h c hc
  · exact hrest c hc

theorem zeros (k : Nat) : IsDigits (List.replicate k '0') := by
  intro c hc
  rw [List.eq_of_mem_replicate hc]
  decide

theorem toDigits (n : Nat) : IsDigits (Nat.toDigits 10 n) := by
  intro c hc
  have hdigit := Nat.isDigit_of_mem_toDigits (by decide) (by decide) hc
  simpa [isAsciiDigit, Char.isDigit, UInt32.le_iff_toNat_le] using hdigit

theorem take (h : IsDigits text) (k : Nat) : IsDigits (text.take k) := by
  intro c hc
  exact h c (List.mem_of_mem_take hc)

theorem drop (h : IsDigits text) (k : Nat) : IsDigits (text.drop k) := by
  intro c hc
  exact h c (List.mem_of_mem_drop hc)

/-- Digits are taken off a text up to where there are no more. -/
theorem span_append (h : IsDigits text) (hrest : rest.head?.any isAsciiDigit = false) :
    (text ++ rest).takeWhile isAsciiDigit = text ∧ (text ++ rest).dropWhile isAsciiDigit = rest := by
  rw [List.takeWhile_append_of_pos h, List.dropWhile_append_of_pos h]
  cases rest with
  | nil => exact ⟨List.append_nil text, rfl⟩
  | cons c rest =>
    have hc : ¬ isAsciiDigit c = true := by simpa using hrest
    rw [List.takeWhile_cons_of_neg hc, List.dropWhile_cons_of_neg hc, List.append_nil]
    exact ⟨rfl, rfl⟩

/-- No sign or mark begins a text of digits. -/
theorem head?_ne (h : IsDigits text) (hnonempty : text ≠ []) (rest : List Char) {c : Char}
    (hc : isAsciiDigit c = false) : (text ++ rest).head? ≠ some c := by
  cases text with
  | nil => exact absurd rfl hnonempty
  | cons d text =>
    rw [List.cons_append, List.head?_cons, ne_eq, Option.some.injEq]
    exact ne_of_isAsciiDigit (h d (List.mem_cons_self ..)) hc

end IsDigits

theorem ofDigits_toDigits (n : Nat) : ofDigits (Nat.toDigits 10 n) = n :=
  Nat.ofDigitChars_toDigits (by decide) (by decide)

theorem ofDigits_append_zeros (text : List Char) (k : Nat) :
    ofDigits (text ++ List.replicate k '0') = ofDigits text * 10 ^ k := by
  rw [ofDigits, Nat.ofDigitChars_append, Nat.ofDigitChars_replicate_zero, ofDigits, Nat.mul_comm]

theorem ofDigits_zeros_append (k : Nat) (text : List Char) :
    ofDigits (List.replicate k '0' ++ text) = ofDigits text := by
  rw [ofDigits, Nat.ofDigitChars_append, Nat.ofDigitChars_replicate_zero, Nat.mul_zero, ofDigits]

/-! ## Numerals -/

/-- A sign and digits are read as the signed number of the digits. -/
theorem parseInt?_append {sign digits : List Char} {negative : Bool} (hsign : SignText sign negative)
    (hnonempty : digits ≠ []) (hdigits : IsDigits digits) :
    parseInt? (sign ++ digits) = some (withSign negative (ofDigits digits)) := by
  have htakeSign : takeSign (sign ++ digits) = (negative, digits) := by
    have hhead := fun c => hdigits.head?_ne hnonempty [] (c := c)
    rw [List.append_nil] at hhead
    exact takeSign_append hsign (hhead '+' (by decide)) (hhead '-' (by decide))
  have hall : digits.all isAsciiDigit = true := List.all_eq_true.mpr hdigits
  have hempty : digits.isEmpty = false := by simpa using hnonempty
  simp only [parseInt?, htakeSign, hall, hempty]
  rfl

namespace Decimal

/-- What is read of the parts of a numeral: a sign, digits, a fraction and an exponent. -/
theorem parse?_append {sign whole rest fraction tail : List Char} {negative : Bool} {exponent : Int}
    (hsign : SignText sign negative) (hnonempty : whole ≠ []) (hwhole : IsDigits whole)
    (hrest : rest.head?.any isAsciiDigit = false) (hfraction : takeFraction rest = (fraction, tail))
    (htail : parseExponent? tail = some exponent) :
    parse? (sign ++ (whole ++ rest)) =
      some ⟨negative, ofDigits (whole ++ fraction), exponent - fraction.length⟩ := by
  have htakeSign : takeSign (sign ++ (whole ++ rest)) = (negative, whole ++ rest) :=
    takeSign_append hsign (hwhole.head?_ne hnonempty rest (by decide))
      (hwhole.head?_ne hnonempty rest (by decide))
  have hempty : whole.isEmpty = false := by simpa using hnonempty
  obtain ⟨htake, hdrop⟩ := hwhole.span_append hrest
  simp only [parse?, htakeSign, htake, hdrop, hfraction, hempty, Bool.false_and, Bool.false_eq_true,
    if_false, htail, Option.map_some]

/-- What is read of a numeral without a point. -/
theorem parse?_plain {sign whole tail : List Char} {negative : Bool} {exponent : Int}
    (hsign : SignText sign negative) (hnonempty : whole ≠ []) (hwhole : IsDigits whole)
    (hmark : tail.head?.any isAsciiDigit = false) (hpoint : tail.head? ≠ some '.')
    (htail : parseExponent? tail = some exponent) :
    parse? (sign ++ (whole ++ tail)) = some ⟨negative, ofDigits whole, exponent⟩ := by
  have htakeFraction : takeFraction tail = ([], tail) := by
    unfold takeFraction
    split
    · exact absurd rfl hpoint
    · rfl
  have hparse := parse?_append hsign hnonempty hwhole hmark htakeFraction htail
  rwa [List.append_nil, List.length_nil, Nat.cast_zero, sub_zero] at hparse

/-- What is read of a numeral with a point. -/
theorem parse?_point {sign whole fraction tail : List Char} {negative : Bool} {exponent : Int}
    (hsign : SignText sign negative) (hnonempty : whole ≠ []) (hwhole : IsDigits whole)
    (hfraction : IsDigits fraction) (hmark : tail.head?.any isAsciiDigit = false)
    (htail : parseExponent? tail = some exponent) :
    parse? (sign ++ (whole ++ '.' :: (fraction ++ tail))) =
      some ⟨negative, ofDigits (whole ++ fraction), exponent - fraction.length⟩ := by
  obtain ⟨htake, hdrop⟩ := hfraction.span_append hmark
  have htakeFraction : takeFraction ('.' :: (fraction ++ tail)) = (fraction, tail) := by
    rw [takeFraction, htake, hdrop]
  have hpoint : ('.' :: (fraction ++ tail)).head?.any isAsciiDigit = false := rfl
  exact parse?_append hsign hnonempty hwhole hpoint htakeFraction htail

/-- An exponent may be filled up with zeros. -/
theorem parseExponent?_written (zeros : Nat) (power : Int) :
    parseExponent? ('e' :: (if power < 0 then '-' else '+') ::
      (List.replicate zeros '0' ++ Nat.toDigits 10 power.natAbs)) = some power := by
  have hsign : SignText [if power < 0 then '-' else '+'] (decide (power < 0)) := by
    by_cases hneg : power < 0
    · rw [if_pos hneg, decide_eq_true hneg]
      exact .minus
    · rw [if_neg hneg, decide_eq_false hneg]
      exact .plus
  have hdigits : IsDigits (List.replicate zeros '0' ++ Nat.toDigits 10 power.natAbs) :=
    (IsDigits.zeros zeros).append (.toDigits _)
  have hnonempty : List.replicate zeros '0' ++ Nat.toDigits 10 power.natAbs ≠ [] := by
    simp [Nat.toDigits_ne_nil]
  have hparse := parseInt?_append hsign hnonempty hdigits
  rw [ofDigits_zeros_append, ofDigits_toDigits, withSign_natAbs] at hparse
  exact hparse

end Decimal

end SchemaForm
