import SchemaForm.Coercion
import SchemaForm.Proofs.Number.Numeral

/-!
# Two readers of one text

A field accepts a text as a number by `typedNumber?` or `typedInteger?`; the form hands on what
`readNumber?` makes of it. On a text that was accepted the second reader is known exactly:

* `readNumber?_of_typedNumber?` — a floating point number comes out the same, if separators stand between
  digits only, and else not at all;
* `readNumber?_of_typedInteger?` — a whole number comes out the same if it is written without a point;
  with a point it goes through the 64-bit format.

`WholeText` names the parts of an accepted whole number: both readers are computed from them.
-/

namespace SchemaForm

open SchemaForm.Text

/-! ## Floating point numbers -/

/-- The two readers of floating point numbers differ only in where they let separators stand. -/
theorem floatOfNumeral?_of_typedNumber? {s : String} {x : Binary64} (h : typedNumber? s = some x) :
    floatOfNumeral? (numeral s) =
      if separatesDigits false (trim isWhiteSpace s.toList) then some x else none := by
  obtain ⟨d, hd, hx⟩ := Option.bind_eq_some_iff.mp h
  unfold looseDecimal? at hd
  split at hd
  · next d' hparse =>
    obtain rfl : d' = d := Option.some.inj hd
    have hchars := isNumeralChar_of_parse? hparse
    have hnone := separator_not_mem hchars
    rw [numeral_eq_trim fun c hc => Or.inr (hchars c hc), floatOfNumeral?,
      withoutSeparators?_of_not_mem hnone, separatesDigits_of_not_mem hnone, if_pos rfl,
      Option.bind_some, hparse]
    exact hx
  · split at hd
    · have hchars := isNumeralChar_of_parse? hd
      have hplain : IsPlain (trim isWhiteSpace s.toList) := by
        intro c hc
        by_cases hsep : c = separator
        · exact Or.inl hsep
        · exact Or.inr (hchars c (List.mem_filter.mpr ⟨hc, by simpa using hsep⟩))
      rw [numeral_eq_trim hplain, floatOfNumeral?, withoutSeparators?]
      by_cases hbetween : separatesDigits false (trim isWhiteSpace s.toList) = true
      · rw [if_pos hbetween, if_pos hbetween, Option.bind_some, hd]
        exact hx
      · rw [if_neg hbetween, if_neg hbetween]
        rfl
    · exact absurd hd (by simp)

/-- What is handed on of a text that was accepted as a number. -/
theorem readNumber?_of_typedNumber? {s : String} {x : Binary64} (h : typedNumber? s = some x) :
    readNumber? false s = if separatesDigits false s.toList then some (.float x) else none := by
  simp only [readNumber?, floatOfNumeral?_of_typedNumber? h, separatesDigits_trim]
  by_cases hbetween : separatesDigits false s.toList = true
  · simp [hbetween]
  · simp [hbetween]

/-! ## The parts of a whole number -/

/-- The parts of a text that is accepted as a whole number: a sign, digits in groups, and a fraction that
adds nothing; `digits` are those of the groups. -/
structure WholeText (sign : List Char) (negative : Bool) (grouped digits fraction : List Char) :
    Prop where
  isSign : SignText sign negative
  isGrouped : withoutSeparators? grouped = some digits
  nonempty : digits ≠ []
  isDigits : ∀ c ∈ digits, isAsciiDigit c = true
  isFraction : isZeroFraction fraction = true
  short : digits.length ≤ maxDigits

/-- A text that is accepted as a whole number has these parts. -/
theorem wholeText_of_typedInteger? {s : String} {n : Int} (h : typedInteger? s = some n) :
    ∃ sign negative grouped digits fraction, WholeText sign negative grouped digits fraction ∧
      trim isWhiteSpace s.toList = sign ++ (grouped ++ fraction) ∧
      n = withSign negative (ofDigits digits) := by
  obtain ⟨sign, htext, hsign⟩ := takeSign_spec (trim isWhiteSpace s.toList)
  unfold typedInteger? typedInteger at h
  dsimp only at h
  split at h
  · exact absurd h (by simp [Except.toOption])
  · next digits hgrouped =>
    split at h
    · exact absurd h (by simp [Except.toOption])
    · next hshape =>
      simp only [Bool.or_eq_true, Bool.not_eq_true', not_or, Bool.not_eq_false,
        List.isEmpty_iff, List.all_eq_true] at hshape
      obtain ⟨⟨hnonempty, hdigits⟩, hfraction⟩ := hshape
      split at h
      · exact absurd h (by simp [Except.toOption])
      · next hshort =>
        refine ⟨sign, _, _, digits, _,
          ⟨hsign, hgrouped, hnonempty, hdigits, hfraction, not_lt.mp hshort⟩, ?_, ?_⟩
        · rw [List.takeWhile_append_dropWhile]
          exact htext
        · exact (Option.some.inj h).symm

/-- A fraction that adds nothing is missing, or a point and zeros. -/
theorem isZeroFraction_cases {fraction : List Char} (h : isZeroFraction fraction = true) :
    fraction = [] ∨ ∃ k, 0 < k ∧ fraction = '.' :: List.replicate k '0' := by
  cases fraction with
  | nil => exact Or.inl rfl
  | cons c zeros =>
    simp only [isZeroFraction, Bool.and_eq_true, beq_iff_eq, Bool.not_eq_true',
      List.all_eq_true] at h
    obtain ⟨⟨rfl, hnonempty⟩, hzeros⟩ := h
    refine Or.inr ⟨zeros.length, ?_, ?_⟩
    · cases zeros with
      | nil => exact absurd hnonempty (by decide)
      | cons z zeros => exact Nat.succ_pos _
    · rw [← List.eq_replicate_of_mem hzeros]

namespace WholeText

variable {sign grouped digits fraction : List Char} {negative : Bool}

theorem withoutSeparators_grouped (w : WholeText sign negative grouped digits fraction) :
    separatesDigits false grouped = true ∧ withoutSeparators grouped = digits := by
  have h := w.isGrouped
  unfold withoutSeparators? at h
  split at h
  · next hbetween => exact ⟨hbetween, Option.some.inj h⟩
  · exact absurd h (by simp)

theorem isNumeralChar_fraction (w : WholeText sign negative grouped digits fraction) :
    ∀ c ∈ fraction, isNumeralChar c = true := by
  intro c hc
  rcases isZeroFraction_cases w.isFraction with rfl | ⟨k, -, rfl⟩
  · exact absurd hc (List.not_mem_nil)
  · rcases List.mem_cons.mp hc with rfl | hc
    · decide
    · rw [List.eq_of_mem_replicate hc]
      decide

theorem mem_grouped (w : WholeText sign negative grouped digits fraction) {c : Char}
    (hc : c ∈ grouped) : c = separator ∨ isAsciiDigit c = true := by
  by_cases hsep : c = separator
  · exact Or.inl hsep
  · refine Or.inr (w.isDigits c ?_)
    rw [← w.withoutSeparators_grouped.2]
    exact List.mem_filter.mpr ⟨hc, by simpa using hsep⟩

theorem isPlain (w : WholeText sign negative grouped digits fraction) :
    IsPlain (sign ++ (grouped ++ fraction)) := by
  intro c hc
  simp only [List.mem_append] at hc
  rcases hc with hc | hc | hc
  · exact Or.inr (w.isSign.isNumeralChar c hc)
  · exact (w.mem_grouped hc).imp_right isNumeralChar_of_isAsciiDigit
  · exact Or.inr (w.isNumeralChar_fraction c hc)

/-- The other reader, too, finds the separators in their places. -/
theorem withoutSeparators?_eq (w : WholeText sign negative grouped digits fraction) :
    withoutSeparators? (sign ++ (grouped ++ fraction)) = some (sign ++ (digits ++ fraction)) := by
  obtain ⟨hbetween, hdigits⟩ := w.withoutSeparators_grouped
  have hsign := separator_not_mem w.isSign.isNumeralChar
  have hfraction := separator_not_mem w.isNumeralChar_fraction
  have hmark : fraction.head?.any isAsciiDigit = false := by
    rcases isZeroFraction_cases w.isFraction with rfl | ⟨k, -, rfl⟩
    · rfl
    · rfl
  rw [withoutSeparators?, separatesDigits_sign w.isSign,
    separatesDigits_append hmark hfraction, if_pos hbetween, withoutSeparators_append,
    withoutSeparators_append, hdigits, withoutSeparators_eq_self hsign,
    withoutSeparators_eq_self hfraction]

/-- The digits come right after the sign. -/
theorem takeSign_eq (w : WholeText sign negative grouped digits fraction) :
    takeSign (sign ++ (digits ++ fraction)) = (negative, digits ++ fraction) := by
  have hdigits : IsDigits digits := w.isDigits
  exact takeSign_append w.isSign (hdigits.head?_ne w.nonempty fraction (by decide))
    (hdigits.head?_ne w.nonempty fraction (by decide))

/-- Without a point the whole number itself is read. -/
theorem integerOfNumeral_eq (w : WholeText sign negative grouped digits []) :
    integerOfNumeral (sign ++ grouped) = .ok (withSign negative (ofDigits digits)) := by
  have hsign := w.takeSign_eq
  have hplain := w.withoutSeparators?_eq
  rw [List.append_nil] at hsign
  rw [List.append_nil, List.append_nil] at hplain
  have hparse := parseInt?_append w.isSign w.nonempty w.isDigits
  have hshort : ¬ maxDigits < digits.length := not_lt.mpr w.short
  simp only [integerOfNumeral, hplain, hparse, hsign, if_neg hshort]

/-- With a point no whole number is read. -/
theorem integerOfNumeral_of_fraction {k : Nat}
    (w : WholeText sign negative grouped digits ('.' :: List.replicate k '0')) :
    integerOfNumeral (sign ++ (grouped ++ '.' :: List.replicate k '0')) = .error .malformed := by
  have hpoint : '.' ∈ sign ++ (digits ++ '.' :: List.replicate k '0') := by simp
  have hparse := parseInt?_eq_none hpoint (by decide) (by decide) (by decide)
  simp only [integerOfNumeral, w.withoutSeparators?_eq, hparse]

/-- With a point the text is a decimal with zeros behind the point. -/
theorem parse?_eq {k : Nat} (w : WholeText sign negative grouped digits ('.' :: List.replicate k '0')) :
    Decimal.parse? (sign ++ (digits ++ '.' :: List.replicate k '0')) =
      some ⟨negative, ofDigits digits * 10 ^ k, -(k : Int)⟩ := by
  have hparse := Decimal.parse?_point w.isSign w.nonempty w.isDigits (IsDigits.zeros k) rfl
    (rfl : Decimal.parseExponent? [] = some 0)
  rw [List.append_nil, ofDigits_append_zeros, List.length_replicate, zero_sub] at hparse
  exact hparse

/-- The point of the text is the one of the fraction. -/
theorem point_mem_iff (w : WholeText sign negative grouped digits fraction) {s : String}
    (htext : trim isWhiteSpace s.toList = sign ++ (grouped ++ fraction)) :
    '.' ∈ s.toList ↔ fraction ≠ [] := by
  obtain ⟨front, back, hs, hfront, hback⟩ := exists_trim_eq isWhiteSpace s.toList
  have hblank : isWhiteSpace '.' = false := by decide
  have hnotFront : '.' ∉ front := fun hc => by simp [hfront _ hc] at hblank
  have hnotBack : '.' ∉ back := fun hc => by simp [hback _ hc] at hblank
  have hnotSign : '.' ∉ sign := by cases w.isSign <;> decide
  have hnotGrouped : '.' ∉ grouped := by
    intro hc
    rcases w.mem_grouped hc with hc | hc <;> exact absurd hc (by decide)
  rw [hs, htext]
  simp only [List.mem_append, hnotFront, hnotSign, hnotGrouped, hnotBack, false_or, or_false]
  rcases isZeroFraction_cases w.isFraction with rfl | ⟨k, -, rfl⟩
  · simp
  · simp

/-- With a point the text is read through the 64-bit format. -/
theorem floatOfNumeral?_eq {k : Nat} (hk : 0 < k)
    (w : WholeText sign negative grouped digits ('.' :: List.replicate k '0')) :
    (floatOfNumeral? (sign ++ (grouped ++ '.' :: List.replicate k '0'))).map wholeIfIntegral =
      (Binary64.ofInt (withSign negative (ofDigits digits))).toInt?.map .int := by
  have hrounds := Binary64.rounds_ofDecimal negative (ofDigits digits) hk
  simp only [floatOfNumeral?, w.withoutSeparators?_eq, Option.bind_some, w.parse?_eq]
  rw [Binary64.toInt?_ofInt_withSign]
  generalize Binary64.ofDecimal ⟨negative, ofDigits digits * 10 ^ k, -(k : Int)⟩ = x at hrounds ⊢
  by_cases hsmall : ofDigits digits < Binary64.finiteBound
  · have hread := hrounds.1 hsmall
    have hfinite : x.isFinite = true := Binary64.isFinite_of_toInt? hread
    rw [if_pos hsmall, if_pos hfinite, Option.map_some, wholeIfIntegral, hread]
    rfl
  · rw [if_neg hsmall, hrounds.2 (not_lt.mp hsmall)]
    rfl

end WholeText

/-- What is handed on of a text that was accepted as a whole number. -/
theorem readNumber?_of_typedInteger? {s : String} {n : Int} (h : typedInteger? s = some n) :
    readNumber? true s =
      if '.' ∈ s.toList then (Binary64.ofInt n).toInt?.map .int else some (.int n) := by
  obtain ⟨sign, negative, grouped, digits, fraction, w, htext, rfl⟩ := wholeText_of_typedInteger? h
  have hnumeral : numeral s = sign ++ (grouped ++ fraction) := by
    rw [numeral_eq_trim (htext ▸ w.isPlain), htext]
  have hpoint := w.point_mem_iff htext
  rcases isZeroFraction_cases w.isFraction with rfl | ⟨k, hk, rfl⟩
  · rw [List.append_nil] at hnumeral
    rw [if_neg (fun hmem => hpoint.mp hmem rfl)]
    simp only [readNumber?, hnumeral, w.integerOfNumeral_eq, if_true]
  · -- the exact reader knows no point, so the text falls to the reader of the 64-bit format
    rw [if_pos (hpoint.mpr (by simp))]
    simp only [readNumber?, hnumeral, w.integerOfNumeral_of_fraction, if_true]
    exact w.floatOfNumeral?_eq hk

end SchemaForm
