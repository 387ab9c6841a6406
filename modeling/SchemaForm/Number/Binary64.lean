import SchemaForm.Number.Decimal

/-!
# Binary floating point numbers

The 64-bit format as exact numbers: a finite one is a sign and a mantissa times a power of two, with
the exponent fixed by the mantissa, so that two finite numbers of one sign are equal as data exactly
if they are equal as numbers. All arithmetic is on whole numbers.

* `roundDiv` — the quotient of two whole numbers, rounded to the nearest, a tie to the even one;
* `Binary64.ofRatio` — the nearest representable number of a quotient;
* `Binary64.ofDecimal`, `Binary64.ofInt` — of a decimal numeral and of a whole number;
* `Binary64.toInt?` — the whole number that a finite number is;
* `Binary64.sameNumber` — equality as numbers: both zeros are one, and what is not a number differs
  from all.
-/

namespace SchemaForm

/-- The quotient rounded to the nearest whole number; halfway the even one is taken. -/
def roundDiv (num den : Nat) : Nat :=
  let quotient := num / den
  let twice := 2 * (num % den)
  if twice < den then quotient
  else if den < twice then quotient + 1
  else if quotient % 2 = 0 then quotient
  else quotient + 1

namespace Binary64

/-- The bits of a mantissa. -/
def precision : Int := 53

/-- The least exponent of two. -/
def minExponent : Int := -1074

/-- The greatest exponent of two. -/
def maxExponent : Int := 971

/-- Mantissa and exponent are in range, and the mantissa has its full length unless the exponent is
the least. -/
def Canonical (mantissa : Nat) (exponent : Int) : Prop :=
  mantissa < power 2 precision ∧ minExponent ≤ exponent ∧ exponent ≤ maxExponent ∧
    (power 2 (precision - 1) ≤ mantissa ∨ exponent = minExponent)

instance (mantissa : Nat) (exponent : Int) : Decidable (Canonical mantissa exponent) := by
  unfold Canonical; infer_instance

end Binary64

/-- A 64-bit binary floating point number: `(-1)^negative · mantissa · 2^exponent`, an infinity, or
not a number. -/
inductive Binary64 where
  | finite (negative : Bool) (mantissa : Nat) (exponent : Int)
      (canonical : Binary64.Canonical mantissa exponent)
  | infinite (negative : Bool)
  | nan
  deriving DecidableEq

namespace Binary64

/-- Zero with a sign. -/
def zero (negative : Bool) : Binary64 := .finite negative 0 minExponent (by decide)

instance : Inhabited Binary64 := ⟨zero false⟩

/-- Whether the number is neither infinite nor undefined. -/
def isFinite : Binary64 → Bool
  | .finite .. => true
  | _ => false

/-- The number of this mantissa and exponent; what is out of range is infinite. -/
def pack (negative : Bool) (mantissa : Nat) (exponent : Int) : Binary64 :=
  if h : Canonical mantissa exponent then .finite negative mantissa exponent h
  else .infinite negative

/-- The greatest `k` with `2^k ≤ num / den`, for a positive quotient. -/
def floorLog2 (num den : Nat) : Int :=
  let guess : Int := (num.log2 : Int) - den.log2
  let reached := if 0 ≤ guess then den * power 2 guess ≤ num else den ≤ num * power 2 (-guess)
  if reached then guess else guess - 1

/-- The nearest representable number of `(-1)^negative · num / den`. -/
def ofRatio (negative : Bool) (num den : Nat) : Binary64 :=
  if num = 0 then zero negative
  else
    let exponent := max (floorLog2 num den - (precision - 1)) minExponent
    let mantissa :=
      if 0 ≤ exponent then roundDiv num (den * power 2 exponent)
      else roundDiv (num * power 2 (-exponent)) den
    -- rounding up may lengthen the mantissa by a bit
    if mantissa = power 2 precision then pack negative (power 2 (precision - 1)) (exponent + 1)
    else pack negative mantissa exponent

/-- The nearest representable number of a whole number. -/
def ofInt (n : Int) : Binary64 := ofRatio (n < 0) n.natAbs 1

/-- The nearest representable number of a decimal. A positive decimal with an exponent from 310 on is
beyond the greatest number, and one below `10^-330` is nearer to zero than to the least positive
number; both are told from the exponent, so that no huge power of ten is computed. -/
def ofDecimal (d : Decimal) : Binary64 :=
  if d.digits = 0 then zero d.negative
  else if 310 ≤ d.exponent then .infinite d.negative
  else if 0 ≤ d.exponent then ofRatio d.negative (d.digits * power 10 d.exponent) 1
  else if (d.digits.log2 : Int) + 1 ≤ 3 * (-d.exponent - 330) then zero d.negative
  else ofRatio d.negative d.digits (power 10 (-d.exponent))

/-- The whole number that a finite number is. -/
def toInt? : Binary64 → Option Int
  | .finite negative mantissa exponent _ =>
    let magnitude? : Option Nat :=
      if 0 ≤ exponent then some (mantissa * power 2 exponent)
      else if mantissa % power 2 (-exponent) = 0 then some (mantissa / power 2 (-exponent))
      else none
    magnitude?.map fun magnitude => if negative then -(magnitude : Int) else magnitude
  | _ => none

/-- Whether the number is a zero of either sign. -/
def isZero : Binary64 → Bool
  | .finite _ mantissa _ _ => mantissa == 0
  | _ => false

/-- Equality as numbers. -/
def sameNumber : Binary64 → Binary64 → Bool
  | .nan, _ => false
  | _, .nan => false
  | x, y => (x.isZero && y.isZero) || decide (x = y)

theorem sameNumber_self {x : Binary64} (h : x ≠ .nan) : x.sameNumber x = true := by
  cases x <;> simp_all [sameNumber]

end Binary64

end SchemaForm
