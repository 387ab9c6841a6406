import SchemaForm.Value

/-!
# Equality of values

Two values are the same if they are equal as what they stand for: numbers by their exact value,
whichever way they are held, true and false as one and zero, texts by their characters, lists part by
part, and objects by their members in any order. A value that is not a number is the same as no value.

* `Number` — a value read as an exact number;
* `Value.same` — the equality; `Value.sameItems` and `Value.sameMembers` go through the parts.
-/

namespace SchemaForm

/-- An exact number, whole or floating point. -/
inductive Number where
  | int (n : Int)
  | float (x : Binary64)
  deriving DecidableEq

namespace Number

/-- Equality as numbers, without rounding. -/
def same : Number → Number → Bool
  | .int m, .int n => m == n
  | .int m, .float y => y.toInt? == some m
  | .float x, .int n => x.toInt? == some n
  | .float x, .float y => x.sameNumber y

/-- The value that holds a number. -/
def toValue : Number → Value
  | .int n => .int n
  | .float x => .float x

end Number

namespace Value

/-- The number that a value stands for; true and false are one and zero. -/
def number? : Value → Option Number
  | .bool flag => some (.int (if flag then 1 else 0))
  | .int n => some (.int n)
  | .float x => some (.float x)
  | _ => none

/-- Whether a value stands for this number. -/
def standsFor (other : Value) (number : Number) : Bool :=
  match other.number? with
  | some n => number.same n
  | none => false

mutual

/-- Whether two values are the same. -/
def same : Value → Value → Bool
  | .null, .null => true
  | .text s, .text t => s == t
  | .list items, .list others => sameItems items others
  | .object members, .object others =>
    members.length == others.length && sameMembers members others
  | .bool flag, other => other.standsFor (.int (if flag then 1 else 0))
  | .int n, other => other.standsFor (.int n)
  | .float x, other => other.standsFor (.float x)
  | _, _ => false

/-- Part by part. -/
def sameItems : List Value → List Value → Bool
  | [], [] => true
  | v :: rest, w :: others => same v w && sameItems rest others
  | _, _ => false

/-- Every member has its like under the same name. -/
def sameMembers : List (String × Value) → List (String × Value) → Bool
  | [], _ => true
  | (name, v) :: rest, others =>
    (match Entries.get? name others with
      | some w => same v w
      | none => false) && sameMembers rest others

end

end Value

end SchemaForm
