import SchemaForm.Number.Typed
import Mathlib.Data.List.TakeWhile

/-!
# The spelling of numerals

Two readers of numbers look at one text. They differ in what they cut off around a numeral, in the
digits that they know and in where they let separators stand, but on the texts that a field accepts all
of this comes down to plain facts on characters:

* `numeral_eq_trim` — a text of characters of numerals is the same to both once the white space is off;
* `SignText` — what a sign at the front of a numeral may be, and the number's being negative;
* `separatesDigits_sign`, `separatesDigits_append` — separators stand where they stand, whatever comes in
  front of the digits or after them;
* `isNumeralChar_of_parse?` — a numeral has no characters but those of numerals.
-/

namespace SchemaForm

open SchemaForm.Text

/-! ## Blanks around a text -/

namespace Text

theorem exists_dropWhile_eq (drop : Char → Bool) (text : List Char) :
    ∃ front, text = front ++ text.dropWhile drop ∧ ∀ c ∈ front, drop c = true := by
  refine ⟨text.takeWhile drop, List.takeWhile_append_dropWhile.symm, fun c hc => ?_⟩
  exact List.mem_takeWhile_imp hc

/-- What is cut off a text on both sides is made of characters of the class. -/
theorem exists_trim_eq (drop : Char → Bool) (text : List Char) :
    ∃ front back, text = front ++ trim drop text ++ back ∧
      (∀ c ∈ front, drop c = true) ∧ ∀ c ∈ back, drop c = true := by
  obtain ⟨front, hfront, hdrop⟩ := exists_dropWhile_eq drop text
  obtain ⟨back, hback, hdrop'⟩ := exists_dropWhile_eq drop (text.dropWhile drop).reverse
  refine ⟨front, back.reverse, ?_, hdrop, fun c hc => hdrop' c (List.mem_reverse.mp hc)⟩
  have hend : text.dropWhile drop = trim drop text ++ back.reverse := by
    rw [trim, trimEnd, ← List.reverse_append, ← hback, List.reverse_reverse]
  rw [List.append_assoc, ← hend]
  exact hfront

/-- A text without characters of the class is what is left between such characters. -/
theorem trim_append_append {drop : Char → Bool} {front text back : List Char}
    (hfront : ∀ c ∈ front, drop c = true) (htext : ∀ c ∈ text, drop c = false)
    (hback : ∀ c ∈ back, drop c = true) : trim drop (front ++ text ++ back) = text := by
  have hstart : (front ++ text ++ back).dropWhile drop = (text ++ back).dropWhile drop := by
    rw [List.append_assoc]
    exact List.dropWhile_append_of_pos hfront
  cases text with
  | nil =>
    have hnone : back.dropWhile drop = [] := List.dropWhile_eq_nil_iff.mpr hback
    rw [trim, hstart, List.nil_append, hnone]
    rfl
  | cons c text =>
    have hkeep : ((c :: text) ++ back).dropWhile drop = (c :: text) ++ back := by
      rw [List.cons_append, List.dropWhile_cons_of_neg]
      simp [htext c (List.mem_cons_self ..)]
    have hend : (back.reverse ++ (c :: text).reverse).dropWhile drop =
        ((c :: text).reverse).dropWhile drop :=
      List.dropWhile_append_of_pos fun d hd => hback d (List.mem_reverse.mp hd)
    have hself : trim drop (c :: text) = c :: text := trim_eq_self htext
    have hkeep' : (c :: text).dropWhile drop = c :: text := by
      rw [List.dropWhile_cons_of_neg]
      simp [htext c (List.mem_cons_self ..)]
    rw [trim, hkeep', trimEnd] at hself
    rw [trim, hstart, hkeep, trimEnd, List.reverse_append, hend]
    exact hself

end Text

/-! ## Characters of numerals -/

/-- Whether a character may stand in a numeral, separators apart. -/
def isNumeralChar (c : Char) : Bool :=
  isAsciiDigit c || c == '+' || c == '-' || c == '.' || c == 'e' || c == 'E'

theorem isBlank_of_isAsciiDigit {c : Char} (h : isAsciiDigit c = true) : isBlank c = false := by
  simp only [isAsciiDigit, Bool.and_eq_true, decide_eq_true_eq] at h
  simp only [isBlank, isWhiteSpace, Bool.or_eq_false_iff, Bool.and_eq_false_iff, beq_eq_false_iff_ne,
    decide_eq_false_iff_not]
  omega

/-- A digit is none of the signs and marks of a numeral. -/
theorem ne_of_isAsciiDigit {c d : Char} (h : isAsciiDigit c = true) (hd : isAsciiDigit d = false) :
    c ≠ d := by
  rintro rfl
  rw [h] at hd
  exact Bool.noConfusion hd

theorem isNumeralChar_iff {c : Char} :
    isNumeralChar c = true ↔
      isAsciiDigit c = true ∨ c = '+' ∨ c = '-' ∨ c = '.' ∨ c = 'e' ∨ c = 'E' := by
  simp [isNumeralChar, or_assoc]

theorem isNumeralChar_of_isAsciiDigit {c : Char} (h : isAsciiDigit c = true) :
    isNumeralChar c = true := isNumeralChar_iff.mpr (Or.inl h)

theorem isNumeralChar_of_mem_singleton {c : Char} (h : isNumeralChar c = true) :
    ∀ d ∈ [c], isNumeralChar d = true := fun _ hd => List.mem_singleton.mp hd ▸ h

theorem separator_ne_of_isNumeralChar {c : Char} (h : isNumeralChar c = true) : c ≠ separator := by
  rcases isNumeralChar_iff.mp h with hdigit | rfl | rfl | rfl | rfl | rfl
  · exact ne_of_isAsciiDigit hdigit (by decide)
  all_goals decide

/-- The characters that both readers see the same way: those of numerals, and separators. -/
def IsPlain (text : List Char) : Prop := ∀ c ∈ text, c = separator ∨ isNumeralChar c = true

theorem isBlank_of_isPlain {text : List Char} (h : IsPlain text) : ∀ c ∈ text, isBlank c = false := by
  intro c hc
  rcases h c hc with rfl | hchar
  · decide
  · rcases isNumeralChar_iff.mp hchar with hdigit | rfl | rfl | rfl | rfl | rfl
    · exact isBlank_of_isAsciiDigit hdigit
    all_goals decide

theorem asciiDigits_of_isPlain {text : List Char} (h : IsPlain text) : asciiDigits text = text := by
  have hself : ∀ c ∈ text, asciiDigit c = c := by
    intro c hc
    rcases h c hc with rfl | hchar
    · exact asciiDigit_of_lt (by decide)
    · rcases isNumeralChar_iff.mp hchar with hdigit | rfl | rfl | rfl | rfl | rfl
      · exact asciiDigit_of_isAsciiDigit hdigit
      all_goals exact asciiDigit_of_lt (by decide)
  rw [asciiDigits, List.map_congr_left hself, List.map_id']

/-- Both readers see the same numeral in a text of plain characters. -/
theorem numeral_eq_trim {s : String} (h : IsPlain (trim isWhiteSpace s.toList)) :
    numeral s = trim isWhiteSpace s.toList := by
  obtain ⟨front, back, htext, hfront, hback⟩ := exists_trim_eq isWhiteSpace s.toList
  have htrim : trim isBlank s.toList = trim isWhiteSpace s.toList := by
    calc trim isBlank s.toList
        = trim isBlank (front ++ trim isWhiteSpace s.toList ++ back) := congrArg _ htext
      _ = trim isWhiteSpace s.toList :=
        trim_append_append (fun c hc => isBlank_of_isWhiteSpace (hfront c hc))
          (isBlank_of_isPlain h) (fun c hc => isBlank_of_isWhiteSpace (hback c hc))
  rw [numeral, htrim, asciiDigits_of_isPlain h]

/-! ## Signs -/

/-- What stands for the sign at the front of a numeral, and whether the number is negative. -/
inductive SignText : List Char → Bool → Prop
  | none : SignText [] false
  | plus : SignText ['+'] false
  | minus : SignText ['-'] true

theorem takeSign_spec (text : List Char) :
    ∃ sign, text = sign ++ (takeSign text).2 ∧ SignText sign (takeSign text).1 := by
  unfold takeSign
  split
  · exact ⟨['+'], rfl, .plus⟩
  · exact ⟨['-'], rfl, .minus⟩
  · exact ⟨[], rfl, .none⟩

/-- In front of a digit or a separator only the sign is taken. -/
theorem takeSign_append {sign rest : List Char} {negative : Bool} (h : SignText sign negative)
    (hplus : rest.head? ≠ some '+') (hminus : rest.head? ≠ some '-') :
    takeSign (sign ++ rest) = (negative, rest) := by
  cases h with
  | none =>
    rw [List.nil_append]
    unfold takeSign
    split
    · exact absurd rfl hplus
    · exact absurd rfl hminus
    · rfl
  | plus => rfl
  | minus => rfl

theorem SignText.isNumeralChar {sign : List Char} {negative : Bool} (h : SignText sign negative) :
    ∀ c ∈ sign, SchemaForm.isNumeralChar c = true := by
  cases h with
  | none => exact fun c hc => absurd hc List.not_mem_nil
  | plus => exact isNumeralChar_of_mem_singleton (by decide)
  | minus => exact isNumeralChar_of_mem_singleton (by decide)

/-! ## Separators -/

theorem separator_not_mem {text : List Char} (h : ∀ c ∈ text, isNumeralChar c = true) :
    separator ∉ text := fun hmem => separator_ne_of_isNumeralChar (h separator hmem) rfl

theorem withoutSeparators_append (text rest : List Char) :
    withoutSeparators (text ++ rest) = withoutSeparators text ++ withoutSeparators rest :=
  List.filter_append ..

/-- A sign in front does not matter to the separators. -/
theorem separatesDigits_sign {sign : List Char} {negative : Bool} (h : SignText sign negative)
    (rest : List Char) : separatesDigits false (sign ++ rest) = separatesDigits false rest := by
  cases h with
  | none => rfl
  | plus => rfl
  | minus => rfl

/-- A fraction or exponent behind the digits does not matter to the separators among them. -/
theorem separatesDigits_append {rest : List Char} (hmark : rest.head?.any isAsciiDigit = false)
    (hrest : separator ∉ rest) (afterDigit : Bool) (text : List Char) :
    separatesDigits afterDigit (text ++ rest) = separatesDigits afterDigit text := by
  induction text generalizing afterDigit with
  | nil => simp [separatesDigits, separatesDigits_of_not_mem hrest]
  | cons c text ih =>
    have hnext : (text ++ rest).head?.any isAsciiDigit = text.head?.any isAsciiDigit := by
      cases text with
      | nil => rw [List.nil_append, hmark]; rfl
      | cons d text => rfl
    simp only [List.cons_append, separatesDigits, hnext, ih]

theorem ne_separator_of_isWhiteSpace {c : Char} (h : isWhiteSpace c = true) : c ≠ separator := by
  rintro rfl
  exact absurd h (by decide)

theorem isAsciiDigit_of_isWhiteSpace {c : Char} (h : isWhiteSpace c = true) :
    isAsciiDigit c = false := by
  by_contra hd
  have hblank := isBlank_of_isAsciiDigit ((Bool.not_eq_false _).mp hd)
  rw [isBlank_of_isWhiteSpace h] at hblank
  exact Bool.noConfusion hblank

theorem separatesDigits_append_of_isWhiteSpace {front : List Char}
    (h : ∀ c ∈ front, isWhiteSpace c = true) (rest : List Char) :
    separatesDigits false (front ++ rest) = separatesDigits false rest := by
  induction front with
  | nil => rfl
  | cons c front ih =>
    have hc := h c (List.mem_cons_self ..)
    have hne : (c == separator) = false := beq_eq_false_iff_ne.mpr (ne_separator_of_isWhiteSpace hc)
    rw [List.cons_append, separatesDigits, hne, isAsciiDigit_of_isWhiteSpace hc]
    exact ih fun d hd => h d (List.mem_cons_of_mem _ hd)

/-- White space around a numeral does not matter to the separators. -/
theorem separatesDigits_trim (text : List Char) :
    separatesDigits false (trim isWhiteSpace text) = separatesDigits false text := by
  obtain ⟨front, back, htext, hfront, hback⟩ := exists_trim_eq isWhiteSpace text
  have hmark : back.head?.any isAsciiDigit = false := by
    cases back with
    | nil => rfl
    | cons c back => exact isAsciiDigit_of_isWhiteSpace (hback c (List.mem_cons_self ..))
  have hnone : separator ∉ back := fun hc => ne_separator_of_isWhiteSpace (hback _ hc) rfl
  calc separatesDigits false (trim isWhiteSpace text)
      = separatesDigits false (trim isWhiteSpace text ++ back) :=
        (separatesDigits_append hmark hnone false _).symm
    _ = separatesDigits false (front ++ (trim isWhiteSpace text ++ back)) :=
        (separatesDigits_append_of_isWhiteSpace hfront _).symm
    _ = separatesDigits false text := by rw [← List.append_assoc, ← htext]

/-! ## Numerals -/

theorem isAsciiDigit_of_mem_takeWhile {text : List Char} {c : Char}
    (h : c ∈ text.takeWhile isAsciiDigit) : isAsciiDigit c = true := List.mem_takeWhile_imp h

/-- There are only digits and a sign in the numeral of a whole number. -/
theorem sign_or_digit_of_parseInt? {text : List Char} {n : Int} (h : parseInt? text = some n) :
    ∀ c ∈ text, c = '+' ∨ c = '-' ∨ isAsciiDigit c = true := by
  obtain ⟨sign, htext, hsign⟩ := takeSign_spec text
  unfold parseInt? at h
  dsimp only at h
  split at h
  · next hdigits =>
    simp only [Bool.and_eq_true, List.all_eq_true] at hdigits
    intro c hc
    rw [htext, List.mem_append] at hc
    rcases hc with hc | hc
    · generalize (takeSign text).1 = negative at hsign
      cases hsign with
      | none => cases hc
      | plus => exact .inl (List.mem_singleton.mp hc)
      | minus => exact .inr (.inl (List.mem_singleton.mp hc))
    · exact .inr (.inr (hdigits.2 c hc))
  · exact absurd h (by simp)

theorem isNumeralChar_of_parseInt? {text : List Char} {n : Int} (h : parseInt? text = some n) :
    ∀ c ∈ text, isNumeralChar c = true := by
  intro c hc
  rcases sign_or_digit_of_parseInt? h c hc with rfl | rfl | hdigit
  · decide
  · decide
  · exact isNumeralChar_of_isAsciiDigit hdigit

/-- A text with anything else in it writes no whole number. -/
theorem parseInt?_eq_none {text : List Char} {c : Char} (hc : c ∈ text) (hdigit : isAsciiDigit c = false)
    (hplus : c ≠ '+') (hminus : c ≠ '-') : parseInt? text = none := by
  refine Option.eq_none_iff_forall_ne_some.mpr fun n hn => ?_
  rcases sign_or_digit_of_parseInt? hn c hc with rfl | rfl | hyes
  · exact hplus rfl
  · exact hminus rfl
  · rw [hdigit] at hyes
    cases hyes

theorem isNumeralChar_of_parseExponent? {text : List Char} {n : Int}
    (h : Decimal.parseExponent? text = some n) : ∀ c ∈ text, isNumeralChar c = true := by
  cases text with
  | nil => simp
  | cons mark rest =>
    simp only [Decimal.parseExponent?, Bool.or_eq_true, beq_iff_eq] at h
    split at h
    · next hmark =>
      intro c hc
      rcases List.mem_cons.mp hc with rfl | hc
      · rcases hmark with rfl | rfl <;> decide
      · exact isNumeralChar_of_parseInt? h c hc
    · exact absurd h (by simp)

/-- Digits behind a point, if there is one, and the rest of the text make up the text. -/
theorem takeFraction_spec (text : List Char) :
    ∃ point, text = point ++ (Decimal.takeFraction text).1 ++ (Decimal.takeFraction text).2 ∧
      (∀ c ∈ point, isNumeralChar c = true) ∧
      ∀ c ∈ (Decimal.takeFraction text).1, isAsciiDigit c = true := by
  unfold Decimal.takeFraction
  split
  · next rest =>
    have hpoint : isNumeralChar '.' = true := by decide
    refine ⟨['.'], ?_, isNumeralChar_of_mem_singleton hpoint, fun c hc => isAsciiDigit_of_mem_takeWhile hc⟩
    rw [List.append_assoc, List.takeWhile_append_dropWhile]
    rfl
  · exact ⟨[], rfl, by simp, by simp⟩

/-- A numeral has no characters but those of numerals. -/
theorem isNumeralChar_of_parse? {text : List Char} {d : Decimal} (h : Decimal.parse? text = some d) :
    ∀ c ∈ text, isNumeralChar c = true := by
  obtain ⟨sign, htext, hsign⟩ := takeSign_spec text
  obtain ⟨point, hrest, hpoint, hfraction⟩ :=
    takeFraction_spec ((takeSign text).2.dropWhile isAsciiDigit)
  unfold Decimal.parse? at h
  dsimp only at h
  split at h
  · exact absurd h (by simp)
  · obtain ⟨n, hexponent, -⟩ := Option.map_eq_some_iff.mp h
    intro c hc
    rw [htext, ← List.takeWhile_append_dropWhile (p := isAsciiDigit) (l := (takeSign text).2),
      hrest] at hc
    simp only [List.mem_append] at hc
    rcases hc with hc | hc | (hc | hc) | hc
    · exact hsign.isNumeralChar c hc
    · exact isNumeralChar_of_isAsciiDigit (isAsciiDigit_of_mem_takeWhile hc)
    · exact hpoint c hc
    · exact isNumeralChar_of_isAsciiDigit (hfraction c hc)
    · exact isNumeralChar_of_parseExponent? hexponent c hc

end SchemaForm
