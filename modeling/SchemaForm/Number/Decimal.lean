import SchemaForm.Text.Digit

/-!
# Decimal numerals

* `power` — a whole number multiplied with itself;
* `Decimal` — a signed whole number times a power of ten;
* `Decimal.parse?` — the numerals written as an optional sign, digits with at most one point among
  them, and an optional exponent;
* `parseInt?` — the numerals of whole numbers, a sign and digits;
* `withoutSeparators?` — a numeral whose digits are set in groups, with the separators taken out.

Both parsers take ASCII digits only; what else may stand in a numeral (blanks around it, digits of
another script, separators) is the business of whoever reads it.
-/

namespace SchemaForm

open SchemaForm.Text

/-- The power of a whole number; an exponent below zero counts as zero. -/
def power (base : Nat) (exponent : Int) : Nat := base.pow exponent.toNat

/-- The number `(-1)^negative · digits · 10^exponent`. -/
structure Decimal where
  negative : Bool
  digits : Nat
  exponent : Int
  deriving DecidableEq, Repr

/-- The longest numeral, in digits, that is read or written as a whole number. -/
def maxDigits : Nat := 4300

/-- The number written by ASCII digits. -/
def ofDigits (text : List Char) : Nat := Nat.ofDigitChars 10 text 0

/-- Takes a sign off the front; without one the number is not negative. -/
def takeSign : List Char → Bool × List Char
  | '+' :: rest => (false, rest)
  | '-' :: rest => (true, rest)
  | text => (false, text)

/-- The whole number written by digits with an optional sign in front. -/
def parseInt? (text : List Char) : Option Int :=
  let (negative, digits) := takeSign text
  if !digits.isEmpty && digits.all isAsciiDigit then
    some (if negative then -(ofDigits digits : Int) else ofDigits digits)
  else none

namespace Decimal

/-- The exponent after the digits: nothing, or an `e` and a whole number. -/
def parseExponent? : List Char → Option Int
  | [] => some 0
  | mark :: rest => if mark == 'e' || mark == 'E' then parseInt? rest else none

/-- The digits after the point, if a point comes next, and the rest of the text. -/
def takeFraction : List Char → List Char × List Char
  | '.' :: rest => (rest.takeWhile isAsciiDigit, rest.dropWhile isAsciiDigit)
  | text => ([], text)

/-- Reads a numeral; `none` if the text is none. There must be a digit before or after the point. -/
def parse? (text : List Char) : Option Decimal :=
  let (negative, unsigned) := takeSign text
  let whole := unsigned.takeWhile isAsciiDigit
  let (fraction, rest) := takeFraction (unsigned.dropWhile isAsciiDigit)
  if whole.isEmpty && fraction.isEmpty then none
  else (parseExponent? rest).map fun exponent =>
    ⟨negative, ofDigits (whole ++ fraction), exponent - fraction.length⟩

end Decimal

/-! ## Digits in groups -/

/-- The character between groups of digits. -/
def separator : Char := '_'

/-- The text without its separators. -/
def withoutSeparators (text : List Char) : List Char := text.filter (· != separator)

/-- Whether every separator stands between two digits; `afterDigit` says what came before. -/
def separatesDigits (afterDigit : Bool) : List Char → Bool
  | [] => true
  | c :: rest =>
    if c == separator then
      afterDigit && (rest.head?.any isAsciiDigit) && separatesDigits false rest
    else separatesDigits (isAsciiDigit c) rest

/-- The numeral without its separators, if each of them stands between two digits. -/
def withoutSeparators? (text : List Char) : Option (List Char) :=
  if separatesDigits false text then some (withoutSeparators text) else none

/-- A text without separators is its own numeral. -/
theorem withoutSeparators_eq_self {text : List Char} (h : separator ∉ text) :
    withoutSeparators text = text := by
  refine List.filter_eq_self.2 fun c hc => ?_
  simp only [bne_iff_ne, ne_eq]
  exact fun hs => h (hs ▸ hc)

theorem separatesDigits_of_not_mem {text : List Char} (h : separator ∉ text) (afterDigit : Bool) :
    separatesDigits afterDigit text = true := by
  induction text generalizing afterDigit with
  | nil => rfl
  | cons c rest ih =>
    simp only [List.mem_cons, not_or] at h
    have hc : (c == separator) = false := by simpa [beq_eq_false_iff_ne] using Ne.symm h.1
    simp [separatesDigits, hc, ih h.2]

theorem withoutSeparators?_of_not_mem {text : List Char} (h : separator ∉ text) :
    withoutSeparators? text = some text := by
  simp [withoutSeparators?, separatesDigits_of_not_mem h, withoutSeparators_eq_self h]

end SchemaForm
