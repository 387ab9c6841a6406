import SchemaForm.Number.Numeral

/-!
# Numerals that are typed in

Which texts a field for numbers accepts, and as what number: the grammars of the `TypeAdapter` of a property.
White space around a numeral does not matter, and separators may stand among its digits; only ASCII digits
count.

* `typedNumber?` — a finite floating point number;
* `typedInteger?` — a whole number of up to `maxDigits` digits, also when written with a fraction of
  zeros. A sign is no digit, so that a negative number may have as many of them as another. So it is in
  release 2.14 of `pydantic`; earlier releases took the sign for one more digit. Texts outside this grammar
  that some releases read as well, such as `0-1`, are no whole numbers here.
-/

namespace SchemaForm

open SchemaForm.Text

/-! ## Numbers -/

/-- Whether two separators follow each other. -/
def hasDoubleSeparator : List Char → Bool
  | a :: b :: rest => (a == separator && b == separator) || hasDoubleSeparator (b :: rest)
  | _ => false

/-- Whether there are separators that may simply be dropped: some, none of them at an end of the text,
no two in a row. Where they stand otherwise does not matter. -/
def hasLooseSeparators (text : List Char) : Bool :=
  text.contains separator && text.head? != some separator && text.getLast? != some separator &&
    !hasDoubleSeparator text

/-- The numeral of a text, read again without its separators if it is none as it stands. -/
def looseDecimal? (text : List Char) : Option Decimal :=
  match Decimal.parse? text with
  | some d => some d
  | none => if hasLooseSeparators text then Decimal.parse? (withoutSeparators text) else none

/-- The finite number that a text writes. -/
def typedNumber? (s : String) : Option Binary64 :=
  (looseDecimal? (trim isWhiteSpace s.toList)).bind fun d =>
    let x := Binary64.ofDecimal d
    if x.isFinite then some x else none

/-! ## Whole numbers -/

/-- Whether what follows the digits of a whole number adds nothing: it is empty, or a point and
zeros. -/
def isZeroFraction : List Char → Bool
  | [] => true
  | c :: zeros => c == '.' && !zeros.isEmpty && zeros.all (· == '0')

/-- The whole number that a text writes, or what is wrong with it. The digits alone are counted: neither the
sign nor the separators nor the fraction. -/
def typedInteger (s : String) : Except IntegerFault Int :=
  let (negative, unsigned) := takeSign (trim isWhiteSpace s.toList)
  let grouped := unsigned.takeWhile (· != '.')
  match withoutSeparators? grouped with
  | none => .error .malformed
  | some digits =>
    if digits.isEmpty || !digits.all isAsciiDigit || !isZeroFraction (unsigned.dropWhile (· != '.')) then
      .error .malformed
    else if maxDigits < digits.length then .error (.tooLong digits.length)
    else .ok (if negative then -(ofDigits digits : Int) else ofDigits digits)

/-- The whole number that a text writes. -/
def typedInteger? (s : String) : Option Int := (typedInteger s).toOption

/-- The first whole number above those of 64 bits; its negative is the least of them. -/
def wordBound : Int := 0x8000000000000000

/-- The whole numbers of 64 bits, without the least one. -/
def inWordRange (n : Int) : Bool := -wordBound < n && n < wordBound

end SchemaForm
