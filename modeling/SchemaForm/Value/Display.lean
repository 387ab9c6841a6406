import SchemaForm.Value
import SchemaForm.Number.Shortest
import SchemaForm.Text.Quoted

/-!
# The text of a value

How a value is shown to the user: a text as it is, everything else in a fixed spelling, with texts
inside lists and objects between quotes. A whole number of more than `maxDigits` digits has no text.

* `intText` — a whole number in decimal;
* `Value.displayInside` — a value as a part of another;
* `Value.display` — a value on its own.
-/

namespace SchemaForm

/-- Why a value has no text. -/
inductive DisplayError where
  | integerTooLong
  deriving DecidableEq, Repr

namespace DisplayError

/-- The message of the error. -/
def message : DisplayError → String
  | .integerTooLong => "Exceeds the limit (" ++ toString maxDigits ++
      " digits) for integer string conversion; use sys.set_int_max_str_digits() to increase the limit"

end DisplayError

/-- A whole number in decimal, as characters. -/
def intChars (n : Int) : List Char :=
  let digits := Nat.toDigits 10 n.natAbs
  if n < 0 then '-' :: digits else digits

/-- A whole number in decimal. -/
def intText (n : Int) : String := String.ofList (intChars n)

namespace Value

/-- A whole number in decimal, unless it is too long. -/
def displayInt (n : Int) : Except DisplayError String :=
  if (Nat.toDigits 10 n.natAbs).length ≤ maxDigits then .ok (intText n) else .error .integerTooLong

mutual

/-- The text of a value that is part of another. -/
def displayInside : Value → Except DisplayError String
  | .null => .ok "None"
  | .bool flag => .ok (if flag then "True" else "False")
  | .int n => displayInt n
  | .float x => .ok x.shown
  | .text s => .ok (Text.quoted s)
  | .list items => return "[" ++ String.intercalate ", " (← displayItems items) ++ "]"
  | .object members =>
    return "\x7b" ++ String.intercalate ", " (← displayMembers members) ++ "\x7d"

/-- The texts of the parts of a list. -/
def displayItems : List Value → Except DisplayError (List String)
  | [] => .ok []
  | v :: rest => return (← displayInside v) :: (← displayItems rest)

/-- The texts of the members of an object. -/
def displayMembers : List (String × Value) → Except DisplayError (List String)
  | [] => .ok []
  | (name, v) :: rest =>
    return (Text.quoted name ++ ": " ++ (← displayInside v)) :: (← displayMembers rest)

end

/-- The text of a value on its own: a text is shown without quotes. -/
def display : Value → Except DisplayError String
  | .text s => .ok s
  | v => displayInside v

@[simp] theorem display_text (s : String) : display (.text s) = .ok s := rfl

end Value

end SchemaForm
