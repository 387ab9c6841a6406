import SchemaForm.Value.Display
import SchemaForm.Proofs.Number.Readers
import SchemaForm.Proofs.Number.Shortest

/-!
# Numbers that are written and read again

The text of a number is a numeral, and the readers find the number in it again.

* `parse?_positional`, `parse?_scientific`, `parse?_shown` — the numerals that floating point numbers are
  written as, by their layout;
* `typedNumber?_shown`, `typedNumber?_intText` — what a field for numbers makes of the texts of numbers;
* `typedInteger?_intText`, `typedInteger?_shown` — what one for whole numbers does. From `10^16` on a
  floating point number is written with an exponent, which such a field does not read.
-/

namespace SchemaForm

open SchemaForm.Text

/-! ## Layouts -/

open Binary64 (ofDecimal shownLayout)

section

variable {sign digits : List Char} {negative : Bool}

/-- With the point among or around the digits the number comes out. -/
theorem parse?_positional (hsign : SignText sign negative) (hnonempty : digits ≠ [])
    (hdigits : IsDigits digits) (places : Int) :
    ∃ d, Decimal.parse? (sign ++ shownLayout.positional digits places) = some d ∧
      ofDecimal d = ofDecimal ⟨negative, ofDigits digits, places - digits.length⟩ := by
  have hnone : ([] : List Char).head?.any isAsciiDigit = false := rfl
  have hzero : Decimal.parseExponent? [] = some 0 := rfl
  unfold NumberLayout.positional
  split
  · next hfront =>
    -- zeros between the point and the digits
    have hwhole : IsDigits ['0'] := .zeros 1
    have hfraction : IsDigits (List.replicate (-places).toNat '0' ++ digits) :=
      (IsDigits.zeros _).append hdigits
    have hparse := Decimal.parse?_point hsign (by simp) hwhole hfraction hnone hzero
    have hvalue : ofDigits (['0'] ++ (List.replicate (-places).toNat '0' ++ digits)) =
        ofDigits digits := by
      rw [← List.append_assoc, show ['0'] ++ List.replicate (-places).toNat '0' =
        List.replicate ((-places).toNat + 1) '0' from rfl, ofDigits_zeros_append]
    have hplaces : (0 : Int) - (List.replicate (-places).toNat '0' ++ digits).length =
        places - digits.length := by
      rw [List.length_append, List.length_replicate]
      omega
    rw [List.append_nil, hvalue, hplaces] at hparse
    exact ⟨_, hparse, rfl⟩
  · next hfront =>
    obtain ⟨whole, rfl⟩ : ∃ whole : Nat, places = whole := ⟨places.toNat, by omega⟩
    dsimp only
    rw [Int.toNat_natCast]
    split
    · next hfill =>
      -- zeros between the digits and the point, and one behind it
      have hwhole : IsDigits (digits ++ List.replicate (whole - digits.length) '0') :=
        hdigits.append (.zeros _)
      have hfraction : IsDigits ['0'] := .zeros 1
      have hparse := Decimal.parse?_point hsign (by simp [hnonempty]) hwhole hfraction hnone hzero
      have hvalue : ofDigits (digits ++ List.replicate (whole - digits.length) '0' ++ ['0']) =
          ofDigits digits * 10 ^ (whole - digits.length + 1) := by
        rw [List.append_assoc, show List.replicate (whole - digits.length) '0' ++ ['0'] =
          List.replicate (whole - digits.length + 1) '0' from List.replicate_succ'.symm,
          ofDigits_append_zeros]
      refine ⟨_, hparse, ?_⟩
      rw [hvalue, Binary64.ofDecimal_mul_pow]
      congr 2
      rw [List.length_singleton]
      omega
    · next hsplit =>
      have htake : digits.take whole ≠ [] := by
        intro hempty
        rcases List.take_eq_nil_iff.mp hempty with hnone | hnone
        · omega
        · exact hnonempty hnone
      have hparse := Decimal.parse?_point hsign htake (hdigits.take whole) (hdigits.drop whole)
        hnone hzero
      have hplaces : (0 : Int) - (digits.drop whole).length = whole - digits.length := by
        rw [List.length_drop]
        omega
      rw [List.append_nil, List.take_append_drop, hplaces] at hparse
      exact ⟨_, hparse, rfl⟩

/-- With the point behind the first digit and an exponent it comes out too. -/
theorem parse?_scientific (hsign : SignText sign negative) (hnonempty : digits ≠ [])
    (hdigits : IsDigits digits) (power : Int) :
    Decimal.parse? (sign ++ shownLayout.scientific digits power) =
      some ⟨negative, ofDigits digits, power - (digits.length - 1)⟩ := by
  have hexponent := Decimal.parseExponent?_written
    (shownLayout.exponentWidth - (Nat.toDigits 10 power.natAbs).length) power
  have hlength : 0 < digits.length := List.length_pos_of_ne_nil hnonempty
  unfold NumberLayout.scientific
  dsimp only
  split
  · next hone =>
    have hplaces : power - (digits.length - 1) = power := by omega
    rw [hplaces]
    exact Decimal.parse?_plain hsign hnonempty hdigits rfl (by simp) hexponent
  · next hmore =>
    have htake : digits.take 1 ≠ [] := by
      intro hempty
      rcases List.take_eq_nil_iff.mp hempty with hnone | hnone
      · exact absurd hnone (by decide)
      · exact hnonempty hnone
    have hparse := Decimal.parse?_point hsign htake (hdigits.take 1) (hdigits.drop 1) rfl hexponent
    have hplaces : power - (digits.drop 1).length = power - (digits.length - 1) := by
      rw [List.length_drop]
      omega
    rw [List.take_append_drop, hplaces] at hparse
    rw [List.append_assoc]
    exact hparse

/-- The digits of a number with the exponent are read as the number, however they are laid out. -/
theorem parse?_unsigned (hsign : SignText sign negative) (n : Nat) (exponent : Int) :
    ∃ d, Decimal.parse? (sign ++ shownLayout.unsigned (Nat.toDigits 10 n) exponent) = some d ∧
      ofDecimal d = ofDecimal ⟨negative, n, exponent⟩ := by
  have hdigits : IsDigits (Nat.toDigits 10 n) := .toDigits n
  have hnonempty : Nat.toDigits 10 n ≠ [] := Nat.toDigits_ne_nil
  unfold NumberLayout.unsigned
  dsimp only
  split
  · obtain ⟨d, hparse, hd⟩ := parse?_positional hsign hnonempty hdigits
      ((Nat.toDigits 10 n).length + exponent - 1 + 1)
    refine ⟨d, hparse, hd.trans ?_⟩
    rw [ofDigits_toDigits]
    congr 2
    omega
  · refine ⟨_, parse?_scientific hsign hnonempty hdigits _, ?_⟩
    rw [ofDigits_toDigits]
    congr 2
    omega

end

/-- Zero has no other exponent than the least. -/
theorem Binary64.finite_zero {negative : Bool} {e : Int} (h : Canonical 0 e) :
    finite negative 0 e h = zero negative := by
  obtain ⟨-, -, -, hfull | rfl⟩ := id h
  · exact absurd hfull (by decide)
  · rfl

/-- The text of a number is a sign and the text of the amount. -/
theorem toList_shown (negative : Bool) {m : Nat} {e : Int} (h : Binary64.Canonical m e) :
    ∃ sign, SignText sign negative ∧ (Binary64.finite negative m e h).shown.toList = sign ++
      if m = 0 then shownLayout.positional ['0'] 1
      else shownLayout.unsigned (Nat.toDigits 10 (Binary64.shortest m e).1)
        (Binary64.shortest m e).2 := by
  simp only [Binary64.shown, Binary64.toText, String.toList_ofList]
  cases negative with
  | false => exact ⟨[], .none, rfl⟩
  | true => exact ⟨['-'], .minus, rfl⟩

/-- The text of a finite number is a numeral of the number. -/
theorem parse?_shown {x : Binary64} (h : x.isFinite = true) :
    ∃ d, Decimal.parse? x.shown.toList = some d ∧ ofDecimal d = x := by
  cases x with
  | infinite negative => exact Bool.noConfusion h
  | nan => exact Bool.noConfusion h
  | finite negative m e hcanonical =>
    obtain ⟨sign, hsign, htext⟩ := toList_shown negative hcanonical
    rw [htext]
    by_cases hm : m = 0
    · subst hm
      obtain ⟨d, hparse, hd⟩ := parse?_positional hsign (by simp) (IsDigits.zeros 1) 1
      have hzero : ofDigits (List.replicate 1 '0') = 0 := rfl
      rw [if_pos rfl, Binary64.finite_zero]
      refine ⟨d, hparse, hd.trans ?_⟩
      rw [hzero, Binary64.ofDecimal_zero]
    · obtain ⟨d, hparse, hd⟩ := parse?_unsigned hsign (Binary64.shortest m e).1 (Binary64.shortest m e).2
      rw [if_neg hm]
      refine ⟨d, hparse, hd.trans ?_⟩
      rw [← Binary64.signed_ofDecimal, Binary64.ofDecimal_shortest hcanonical hm]
      rfl

/-! ## Readers -/

theorem trim_eq_self_of_isPlain {text : List Char} (h : IsPlain text) :
    trim isWhiteSpace text = text := by
  refine trim_eq_self fun c hc => ?_
  by_contra hspace
  have hblank := isBlank_of_isPlain h c hc
  rw [isBlank_of_isWhiteSpace ((Bool.not_eq_false _).mp hspace)] at hblank
  exact Bool.noConfusion hblank

/-- A field for numbers reads a numeral as its number. -/
theorem typedNumber?_of_parse? {s : String} {d : Decimal} (h : Decimal.parse? s.toList = some d)
    (hfinite : (ofDecimal d).isFinite = true) : typedNumber? s = some (ofDecimal d) := by
  have hplain : IsPlain s.toList := fun c hc => Or.inr (isNumeralChar_of_parse? h c hc)
  rw [typedNumber?, trim_eq_self_of_isPlain hplain, looseDecimal?, h]
  exact if_pos hfinite

theorem separatesDigits_of_parse? {s : String} {d : Decimal} (h : Decimal.parse? s.toList = some d) :
    separatesDigits false s.toList = true :=
  separatesDigits_of_not_mem (separator_not_mem (isNumeralChar_of_parse? h)) false

/-- The text of a finite number is read as the number. -/
theorem typedNumber?_shown {x : Binary64} (h : x.isFinite = true) : typedNumber? x.shown = some x := by
  obtain ⟨d, hparse, rfl⟩ := parse?_shown h
  exact typedNumber?_of_parse? hparse h

theorem readNumber?_shown {x : Binary64} (h : x.isFinite = true) :
    readNumber? false x.shown = some (.float x) := by
  obtain ⟨d, hparse, -⟩ := parse?_shown h
  rw [readNumber?_of_typedNumber? (typedNumber?_shown h), if_pos (separatesDigits_of_parse? hparse)]

/-! ### Whole numbers -/

theorem intChars_eq (n : Int) :
    ∃ sign, SignText sign (decide (n < 0)) ∧ intChars n = sign ++ Nat.toDigits 10 n.natAbs := by
  unfold intChars
  by_cases hneg : n < 0
  · rw [if_pos hneg, decide_eq_true hneg]
    exact ⟨['-'], .minus, rfl⟩
  · rw [if_neg hneg, decide_eq_false hneg]
    exact ⟨[], .none, rfl⟩

theorem parse?_intText (n : Int) :
    Decimal.parse? (intText n).toList = some ⟨decide (n < 0), n.natAbs, 0⟩ := by
  obtain ⟨sign, hsign, htext⟩ := intChars_eq n
  have hparse := Decimal.parse?_plain hsign Nat.toDigits_ne_nil (.toDigits n.natAbs) rfl (by simp)
    (rfl : Decimal.parseExponent? [] = some 0)
  rwa [List.append_nil, ofDigits_toDigits, ← htext, ← String.toList_ofList (l := intChars n)] at hparse

/-- A field for numbers reads the text of a whole number as the nearest number that it has. -/
theorem typedNumber?_intText {n : Int} (h : (Binary64.ofInt n).isFinite = true) :
    typedNumber? (intText n) = some (Binary64.ofInt n) := by
  rw [← Binary64.ofDecimal_natAbs] at h ⊢
  exact typedNumber?_of_parse? (parse?_intText n) h

theorem readNumber?_false_intText {n : Int} (h : (Binary64.ofInt n).isFinite = true) :
    readNumber? false (intText n) = some (.float (Binary64.ofInt n)) := by
  rw [readNumber?_of_typedNumber? (typedNumber?_intText h),
    if_pos (separatesDigits_of_parse? (parse?_intText n))]

namespace WholeText

variable {sign digits fraction : List Char} {negative : Bool} {s : String}

theorem trim_eq (w : WholeText sign negative digits digits fraction)
    (htext : s.toList = sign ++ (digits ++ fraction)) :
    trim isWhiteSpace s.toList = sign ++ (digits ++ fraction) := by
  rw [htext, trim_eq_self_of_isPlain w.isPlain]

/-- A text of these parts, without separators, is accepted as the whole number. -/
theorem typedInteger?_eq (w : WholeText sign negative digits digits fraction)
    (htext : s.toList = sign ++ (digits ++ fraction)) :
    typedInteger? s = some (withSign negative (ofDigits digits)) := by
  have hbefore : ∀ c ∈ digits, (c != '.') = true := by
    intro c hc
    simpa using ne_of_isAsciiDigit (w.isDigits c hc) (by decide)
  have hspan : fraction.takeWhile (· != '.') = [] ∧ fraction.dropWhile (· != '.') = fraction := by
    rcases isZeroFraction_cases w.isFraction with rfl | ⟨k, -, rfl⟩
    · exact ⟨rfl, rfl⟩
    · exact ⟨rfl, rfl⟩
  have hall : digits.all isAsciiDigit = true := List.all_eq_true.mpr w.isDigits
  have hempty : digits.isEmpty = false := by simpa using w.nonempty
  have hshort : ¬ maxDigits < digits.length := not_lt.mpr w.short
  simp only [typedInteger?, typedInteger, w.trim_eq htext, w.takeSign_eq,
    List.takeWhile_append_of_pos hbefore, List.dropWhile_append_of_pos hbefore, hspan.1, hspan.2,
    List.append_nil, w.isGrouped, hall, hempty, w.isFraction, if_neg hshort]
  rfl

/-- Coercion reads the same whole number if there is no point. -/
theorem readNumber?_eq (w : WholeText sign negative digits digits [])
    (htext : s.toList = sign ++ (digits ++ [])) :
    readNumber? true s = some (.int (withSign negative (ofDigits digits))) := by
  have hpoint : '.' ∉ s.toList := fun hmem => (w.point_mem_iff (w.trim_eq htext)).mp hmem rfl
  rw [readNumber?_of_typedInteger? (w.typedInteger?_eq htext), if_neg hpoint]

end WholeText

/-- Digits without separators are their own groups. -/
theorem IsDigits.withoutSeparators?_eq {digits : List Char} (h : IsDigits digits) :
    withoutSeparators? digits = some digits :=
  withoutSeparators?_of_not_mem
    (separator_not_mem fun c hc => isNumeralChar_of_isAsciiDigit (h c hc))

/-- The text of a whole number has a sign and digits. -/
theorem wholeText_intText {n : Int} (h : (Nat.toDigits 10 n.natAbs).length ≤ maxDigits) :
    ∃ sign, WholeText sign (decide (n < 0)) (Nat.toDigits 10 n.natAbs) (Nat.toDigits 10 n.natAbs) [] ∧
      (intText n).toList = sign ++ (Nat.toDigits 10 n.natAbs ++ []) := by
  obtain ⟨sign, hsign, htext⟩ := intChars_eq n
  have hdigits : IsDigits (Nat.toDigits 10 n.natAbs) := .toDigits _
  refine ⟨sign, ⟨hsign, hdigits.withoutSeparators?_eq, Nat.toDigits_ne_nil, hdigits, rfl, h⟩, ?_⟩
  rw [List.append_nil, ← htext, intText, String.toList_ofList]

theorem typedInteger?_intText {n : Int} (h : (Nat.toDigits 10 n.natAbs).length ≤ maxDigits) :
    typedInteger? (intText n) = some n := by
  obtain ⟨sign, w, htext⟩ := wholeText_intText h
  rw [w.typedInteger?_eq htext, ofDigits_toDigits, withSign_natAbs]

theorem readNumber?_true_intText {n : Int} (h : (Nat.toDigits 10 n.natAbs).length ≤ maxDigits) :
    readNumber? true (intText n) = some (.int n) := by
  obtain ⟨sign, w, htext⟩ := wholeText_intText h
  rw [w.readNumber?_eq htext, ofDigits_toDigits, withSign_natAbs]

/-- A whole number of at most sixteen digits is written with all of them, a point and a zero. -/
theorem unsigned_whole {digits : List Char} {zeros : Nat} (hnonempty : digits ≠ [])
    (hlength : digits.length + zeros ≤ 16) :
    shownLayout.unsigned digits zeros = digits ++ List.replicate zeros '0' ++ ['.', '0'] := by
  have hpos : 0 < digits.length := List.length_pos_of_ne_nil hnonempty
  have hpower : shownLayout.positionalFrom ≤ (digits.length : Int) + zeros - 1 ∧
      (digits.length : Int) + zeros - 1 < shownLayout.positionalBelow := by
    simp only [shownLayout]
    omega
  have hplaces : (digits.length : Int) + zeros - 1 + 1 = (digits.length + zeros : Nat) := by omega
  have hfront : ¬ ((digits.length + zeros : Nat) : Int) ≤ 0 := by omega
  simp only [NumberLayout.unsigned, if_pos hpower, hplaces, NumberLayout.positional, if_neg hfront,
    Int.toNat_natCast, if_pos (Nat.le_add_right ..), Nat.add_sub_cancel_left]
  rfl

/-- The amount of a whole number below `10^16` is written with all its digits. -/
theorem exists_digits_of_whole {m k : Nat} {e : Int} (h : Binary64.Canonical m e)
    (hk : k * power 2 (-e) = m * power 2 e) (hbound : k < 10 ^ 16) :
    ∃ digits, digits ≠ [] ∧ IsDigits digits ∧ digits.length ≤ 16 ∧ ofDigits digits = k ∧
      (if m = 0 then shownLayout.positional ['0'] 1
        else shownLayout.unsigned (Nat.toDigits 10 (Binary64.shortest m e).1)
          (Binary64.shortest m e).2) = digits ++ ['.', '0'] := by
  have hpos : ∀ exponent, power 2 exponent ≠ 0 := fun exponent => (power_pos two_pos exponent).ne'
  by_cases hm : m = 0
  · have hk0 : k = 0 := by
      rw [hm, Nat.zero_mul, Nat.mul_eq_zero] at hk
      exact hk.resolve_right (hpos _)
    rw [if_pos hm, hk0]
    exact ⟨['0'], by simp, .zeros 1, by decide, rfl, rfl⟩
  · have hk0 : 0 < k := by
      refine Nat.pos_of_ne_zero fun hzero => ?_
      rw [hzero, Nat.zero_mul, eq_comm, Nat.mul_eq_zero] at hk
      exact hk.elim hm (hpos _)
    have hread : (Binary64.finite false m e h).toInt? = some (k : Int) :=
      Binary64.toInt?_finite_eq_some_iff.mpr ⟨k, rfl, hk⟩
    -- the shortest numeral lacks the last zeros of the number; they are written behind it again
    obtain ⟨n, zeros, hshortest, hvalue⟩ := Binary64.shortest_of_whole h hk0 hbound hread
    have hn : 0 < n := by
      refine Nat.pos_of_ne_zero fun hzero => ?_
      rw [hzero, Nat.zero_mul] at hvalue
      omega
    have hlength : (Nat.toDigits 10 n).length + zeros ≤ 16 := by
      rw [← Binary64.length_toDigits_mul_pow hn, hvalue,
        Nat.length_toDigits_le_iff (by decide) (by decide)]
      exact hbound
    refine ⟨Nat.toDigits 10 n ++ List.replicate zeros '0', ?_, (IsDigits.toDigits n).append (.zeros _),
      ?_, ?_, ?_⟩
    · simp [Nat.toDigits_ne_nil]
    · rw [List.length_append, List.length_replicate]
      exact hlength
    · rw [ofDigits_append_zeros, ofDigits_toDigits, hvalue]
    · rw [if_neg hm, hshortest]
      exact unsigned_whole Nat.toDigits_ne_nil hlength

/-- A floating point number that is a whole number below `10^16` is written as one, with a fraction of
zero. -/
theorem wholeText_shown {x : Binary64} {n : Int} (hread : x.toInt? = some n)
    (hbound : n.natAbs < 10 ^ 16) :
    ∃ sign negative digits, WholeText sign negative digits digits ['.', '0'] ∧
      x.shown.toList = sign ++ (digits ++ ['.', '0']) ∧ withSign negative (ofDigits digits) = n := by
  cases x with
  | infinite negative => exact absurd hread (by simp [Binary64.toInt?])
  | nan => exact absurd hread (by simp [Binary64.toInt?])
  | finite negative m e hcanonical =>
    obtain ⟨k, rfl, hk⟩ := Binary64.toInt?_finite_eq_some_iff.mp hread
    rw [natAbs_withSign] at hbound
    obtain ⟨sign, hsign, htext⟩ := toList_shown negative hcanonical
    obtain ⟨digits, hnonempty, hdigits, hlength, hvalue, hbody⟩ :=
      exists_digits_of_whole hcanonical hk hbound
    have hshort : digits.length ≤ maxDigits := hlength.trans (by decide)
    refine ⟨sign, negative, digits, ⟨hsign, hdigits.withoutSeparators?_eq, hnonempty, hdigits, rfl,
      hshort⟩, ?_, ?_⟩
    · rw [htext, hbody]
    · rw [hvalue]

theorem typedInteger?_shown {x : Binary64} {n : Int} (hread : x.toInt? = some n)
    (hbound : n.natAbs < 10 ^ 16) : typedInteger? x.shown = some n := by
  obtain ⟨sign, negative, digits, w, htext, hn⟩ := wholeText_shown hread hbound
  rw [w.typedInteger?_eq htext, hn]

/-- There is a point in a number that is written without an exponent. -/
theorem point_mem_positional (digits : List Char) (places : Int) :
    '.' ∈ shownLayout.positional digits places := by
  unfold NumberLayout.positional
  split
  · simp
  · dsimp only
    split
    · simp [shownLayout]
    · simp

/-- The text of a finite number is never a sign and digits alone. -/
theorem exists_mark_mem_shown {x : Binary64} (h : x.isFinite = true) :
    ∃ c ∈ x.shown.toList, isAsciiDigit c = false ∧ c ≠ '+' ∧ c ≠ '-' := by
  cases x with
  | infinite negative => exact Bool.noConfusion h
  | nan => exact Bool.noConfusion h
  | finite negative m e hcanonical =>
    obtain ⟨sign, -, htext⟩ := toList_shown negative hcanonical
    rw [htext]
    split
    · exact ⟨'.', List.mem_append_right _ (point_mem_positional _ _), by decide⟩
    · unfold NumberLayout.unsigned
      dsimp only
      split
      · exact ⟨'.', List.mem_append_right _ (point_mem_positional _ _), by decide⟩
      · refine ⟨'e', List.mem_append_right _ ?_, by decide⟩
        simp [NumberLayout.scientific]

/-- So coercion reads it through the 64-bit format, as the number that it is, with an exponent or without. -/
theorem readNumber?_true_shown {x : Binary64} {n : Int} (hread : x.toInt? = some n) :
    readNumber? true x.shown = some (.int n) := by
  have hfinite := Binary64.isFinite_of_toInt? hread
  obtain ⟨d, hparse, -⟩ := parse?_shown hfinite
  have hchars := isNumeralChar_of_parse? hparse
  have hnumeral : numeral x.shown = x.shown.toList := by
    have hplain : IsPlain x.shown.toList := fun c hc => Or.inr (hchars c hc)
    have htrim := trim_eq_self_of_isPlain hplain
    rw [numeral_eq_trim (htrim.symm ▸ hplain), htrim]
  have hwhole : integerOfNumeral x.shown.toList = .error .malformed := by
    obtain ⟨c, hmem, hdigit, hplus, hminus⟩ := exists_mark_mem_shown hfinite
    simp only [integerOfNumeral, withoutSeparators?_of_not_mem (separator_not_mem hchars),
      parseInt?_eq_none hmem hdigit hplus hminus]
  have hfloat : floatOfNumeral? x.shown.toList = some x := by
    rw [← hnumeral, floatOfNumeral?_of_typedNumber? (typedNumber?_shown hfinite), separatesDigits_trim,
      if_pos (separatesDigits_of_parse? hparse)]
  simp only [readNumber?, hnumeral, hwhole, hfloat, if_true, Option.map_some, wholeIfIntegral, hread]

end SchemaForm
