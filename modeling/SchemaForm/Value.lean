import SchemaForm.OrderedMap
import SchemaForm.Number.Binary64

/-!
# Values

What a form holds, what its schema allows and what a file contains: the values of JSON, with whole
numbers of any size kept apart from floating point numbers, and with objects as lists of members in
their order.

* `isEmpty` — null and the empty text count as no value (`is_empty`);
* `isFlag` — true and false;
* `isTruthy` — what a setting that is not a flag counts as;
* `typeName` — the name of the kind of value in messages.
-/

namespace SchemaForm

/-- A value as it is read from JSON. -/
inductive Value where
  | null
  | bool (flag : Bool)
  | int (n : Int)
  | float (x : Binary64)
  | text (s : String)
  | list (items : List Value)
  | object (members : List (String × Value))

namespace Value

instance : Inhabited Value := ⟨.null⟩

/-- `is_empty`: whether the value counts as no value. -/
def isEmpty : Value → Bool
  | .null => true
  | .text s => s == ""
  | _ => false

@[simp] theorem isEmpty_null : isEmpty .null = true := rfl

theorem isEmpty_iff {v : Value} : v.isEmpty = true ↔ v = .null ∨ v = .text "" := by
  cases v <;> simp [isEmpty]

/-- Whether the value is true or false. -/
def isFlag : Value → Bool
  | .bool _ => true
  | _ => false

/-- Whether the value counts as true: everything but null, false, zero and what has no parts. -/
def isTruthy : Value → Bool
  | .null => false
  | .bool flag => flag
  | .int n => n != 0
  | .float x => !x.isZero
  | .text s => s != ""
  | .list items => !items.isEmpty
  | .object members => !members.isEmpty

/-- The name of the kind of value in messages. -/
def typeName : Value → String
  | .null => "NoneType"
  | .bool _ => "bool"
  | .int _ => "int"
  | .float _ => "float"
  | .text _ => "str"
  | .list _ => "list"
  | .object _ => "dict"

/-- The value that an optional one stands for. -/
def ofOption {α : Type} (f : α → Value) : Option α → Value
  | some a => f a
  | none => .null

/-- An object of the members that are not null. -/
def objectOfSome (members : List (String × Value)) : Value :=
  .object (members.filter fun member => match member.2 with
    | .null => false
    | _ => true)

end Value

end SchemaForm
