import SchemaForm.Number.Binary64

/-!
# The shortest text of a floating point number

A number is written with the fewest digits that read back to it, and of the numerals with that many
digits with the nearest.

* `shortest` — digits and exponent of a positive number: for one, two, up to seventeen digits the two
  neighbours of the number on that decimal grid are read back, and the first grid with a hit wins;
* `NumberLayout` — where the point goes and when an exponent is written;
* `Binary64.toText` — the text in a layout, `Binary64.shown` in the one that the library uses.
-/

namespace SchemaForm

namespace Binary64

/-- A positive number as a quotient. -/
def ratio (mantissa : Nat) (exponent : Int) : Nat × Nat :=
  if 0 ≤ exponent then (mantissa * power 2 exponent, 1) else (mantissa, power 2 (-exponent))

/-- The digits before the point of a positive quotient above `10^-350`; not positive if the first
digit other than zero comes after the point. -/
def magnitude (num den : Nat) : Int :=
  ((Nat.toDigits 10 (num * power 10 350 / den)).length : Int) - 350

/-- The nearest of the two neighbours of `num / den` on the grid of multiples of `10^exponent` that
reads back to the number; halfway the even one. -/
def nearestOnGrid? (target : Binary64) (num den : Nat) (exponent : Int) : Option Nat :=
  let (scaledNum, scaledDen) :=
    if 0 ≤ exponent then (num, den * power 10 exponent) else (num * power 10 (-exponent), den)
  let below := scaledNum / scaledDen
  let hit (digits : Nat) : Bool := decide (ofDecimal ⟨false, digits, exponent⟩ = target)
  let nearest := roundDiv scaledNum scaledDen
  let other := if nearest = below then below + 1 else below
  if hit nearest then some nearest else if hit other then some other else none

/-- Moves trailing zeros of the digits into the exponent, up to `fuel` of them. -/
def stripZeros : Nat → Nat → Int → Nat × Int
  | 0, digits, exponent => (digits, exponent)
  | fuel + 1, digits, exponent =>
    if digits ≠ 0 ∧ digits % 10 = 0 then stripZeros fuel (digits / 10) (exponent + 1)
    else (digits, exponent)

/-- The first grid, from `count` digits on, that has a numeral of the number. -/
def firstHit? (target : Binary64) (num den : Nat) (top : Int) :
    List Nat → Option (Nat × Int)
  | [] => none
  | count :: more =>
    match nearestOnGrid? target num den (top - count) with
    | some digits => some (digits, top - count)
    | none => firstHit? target num den top more

/-- The exact decimal of a positive number. -/
def exactDecimal (mantissa : Nat) (exponent : Int) : Nat × Int :=
  if 0 ≤ exponent then (mantissa * power 2 exponent, 0)
  else (mantissa * power 5 (-exponent), exponent)

/-- The numeral on the first grid that has one. -/
def firstNumeral (mantissa : Nat) (exponent : Int) : Nat × Int :=
  let (num, den) := ratio mantissa exponent
  let found := firstHit? (pack false mantissa exponent) num den (magnitude num den)
    (List.range' 1 17)
  found.getD (exactDecimal mantissa exponent)

/-- Digits and exponent of the shortest numeral of a positive finite number. -/
def shortest (mantissa : Nat) (exponent : Int) : Nat × Int :=
  let numeral := firstNumeral mantissa exponent
  stripZeros 20 numeral.1 numeral.2

end Binary64

/-! ## Layout -/

/-- How a floating point number is laid out. -/
structure NumberLayout where
  /-- The least power of ten of the first digit that is written without an exponent. -/
  positionalFrom : Int
  /-- The first power of ten of the first digit that is written with one. -/
  positionalBelow : Int
  /-- What follows a whole number written without an exponent. -/
  wholeEnd : String
  /-- The least number of digits of an exponent. -/
  exponentWidth : Nat
  infinity : String
  notANumber : String

namespace NumberLayout

/-- The digits with the point after the first `places` of them, zeros filled in. -/
def positional (layout : NumberLayout) (digits : List Char) (places : Int) : List Char :=
  if places ≤ 0 then
    '0' :: '.' :: (List.replicate (-places).toNat '0' ++ digits)
  else
    let whole := places.toNat
    if digits.length ≤ whole then
      digits ++ List.replicate (whole - digits.length) '0' ++ layout.wholeEnd.toList
    else digits.take whole ++ '.' :: digits.drop whole

/-- The digits with the point after the first, and the exponent. -/
def scientific (layout : NumberLayout) (digits : List Char) (power : Int) : List Char :=
  let point := if digits.length ≤ 1 then digits else digits.take 1 ++ '.' :: digits.drop 1
  let exponent := Nat.toDigits 10 power.natAbs
  point ++ 'e' :: (if power < 0 then '-' else '+') ::
    (List.replicate (layout.exponentWidth - exponent.length) '0' ++ exponent)

/-- The text of digits times a power of ten. -/
def unsigned (layout : NumberLayout) (digits : List Char) (exponent : Int) : List Char :=
  let power := digits.length + exponent - 1
  if layout.positionalFrom ≤ power ∧ power < layout.positionalBelow then
    layout.positional digits (power + 1)
  else layout.scientific digits power

end NumberLayout

namespace Binary64

/-- The text of a number in a layout; a zero keeps its sign. -/
def toText (layout : NumberLayout) : Binary64 → String
  | .nan => layout.notANumber
  | .infinite negative => if negative then "-" ++ layout.infinity else layout.infinity
  | .finite negative mantissa exponent _ =>
    let body :=
      if mantissa = 0 then layout.positional ['0'] 1
      else
        let numeral := shortest mantissa exponent
        layout.unsigned (Nat.toDigits 10 numeral.1) numeral.2
    String.ofList (if negative then '-' :: body else body)

/-- Numbers from `10^-4` to below `10^16` are written without an exponent, a whole one with `.0`; an
exponent has a sign and two digits or more. -/
def shownLayout : NumberLayout :=
  { positionalFrom := -4
    positionalBelow := 16
    wholeEnd := ".0"
    exponentWidth := 2
    infinity := "inf"
    notANumber := "nan" }

/-- The text under which a number is shown. -/
def shown (x : Binary64) : String := x.toText shownLayout

end Binary64

end SchemaForm
