import SchemaForm.Text.Blank
import SchemaForm.Number.Binary64

/-!
# Numerals of every script

How the library itself reads numbers from text: blanks around a numeral do not matter, decimal digits
of every script count, and single separators may stand between digits.

* `numeral` — the text in ASCII digits, without the blanks;
* `integerOfNumeral` — a whole number of up to `maxDigits` digits;
* `floatOfNumeral?` — a finite floating point number.
-/

namespace SchemaForm

open SchemaForm.Text

/-- Why a text writes no whole number. -/
inductive IntegerFault where
  | malformed
  | tooLong (digits : Nat)
  deriving DecidableEq, Repr

/-- A text without the blanks around it, with ASCII digits for those of other scripts. -/
def numeral (s : String) : List Char := asciiDigits (trim isBlank s.toList)

/-- The whole number of a numeral, or what is wrong with it. -/
def integerOfNumeral (numeral : List Char) : Except IntegerFault Int :=
  match withoutSeparators? numeral with
  | none => .error .malformed
  | some plain =>
    match parseInt? plain with
    | none => .error .malformed
    | some n =>
      let digits := (takeSign plain).2.length
      if maxDigits < digits then .error (.tooLong digits) else .ok n

/-- The finite floating point number of a numeral. -/
def floatOfNumeral? (numeral : List Char) : Option Binary64 :=
  ((withoutSeparators? numeral).bind Decimal.parse?).bind fun d =>
    let x := Binary64.ofDecimal d
    if x.isFinite then some x else none

end SchemaForm
