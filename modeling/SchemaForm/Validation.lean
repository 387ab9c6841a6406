import SchemaForm.Schema
import SchemaForm.Value.Equality
import SchemaForm.Event

/-!
# Validation

Whether a value may stand in a form (`PropertyRule`, `FormValidator`). The rules are checked in a fixed order,
and the first that fails gives the message: a required value must not be empty, a value must be readable as
the type of its property, and a closed choice must list the value as it is read. An empty value that is not
required is fine.

* `PropertyType.lax?`, `PropertyType.convert?` — a value as its type reads it, with and without flags that count
  as numbers;
* `Reader`, `Check` — what reads a value or refuses it, and the validators that `PropertyRule` stacks around it;
* `Property.reader`, `Property.violation?` — a `PropertyRule` and its `check` (`validate_property`);
* `Schema.violation?`, `Schema.violations`, `Schema.accepts` — a `FormValidator` with its `validate_property`,
  `validate_all` and `is_valid`.
-/

namespace SchemaForm

/-! ## Violations -/

/-- A rule that a value breaks, one for each kind of message. -/
inductive Violation where
  | required
  | wrongType (type : PropertyType)
  | notAllowed
  deriving DecidableEq, Repr

namespace Violation

/-- The message for a type without a name. -/
def unknownTypeMessage : String := "Invalid type"

/-- The message for a value of the wrong type (`_INVALID_TYPE_MESSAGES`). -/
def typeMessage : PropertyType → String
  | .string => "Invalid type: expected text"
  | .number => "Invalid type: expected a number"
  | .integer => "Invalid type: expected a whole number"
  | .boolean => "Invalid type: expected true or false"

/-- The message of the rule (`_message_for`). -/
def message : Violation → String
  | .required => "This field is required"
  | .wrongType type => typeMessage type
  | .notAllowed => "Not an allowed value"

/-- `invalid_type_message`, which is also asked for names that no type has. -/
def messageForTypeName (name : String) : String :=
  match PropertyType.ofName? name with
  | some type => typeMessage type
  | none => unknownTypeMessage

end Violation

/-! ## Types -/

namespace PropertyType

/-- A floating point number, if it is finite: others are no numbers of a form. -/
def finite? (x : Binary64) : Option Value := if x.isFinite then some (.float x) else none

/-- A value as a finite floating point number: a whole number is rounded to the nearest one. -/
def convertNumber? : Value → Option Value
  | .int n => finite? (Binary64.ofInt n)
  | .float x => finite? x
  | .text s => (typedNumber? s).map .float
  | _ => none

/-- A value as a whole number: a floating point number only if it is one of 64 bits. -/
def convertInteger? : Value → Option Value
  | .int n => some (.int n)
  | .float x => (x.toInt?.filter inWordRange).map .int
  | .text s => (typedInteger? s).map .int
  | _ => none

/-- A value as its type reads it. Numbers may be written as text; true and false are no numbers. -/
def convert? : PropertyType → Value → Option Value
  | .number, v => convertNumber? v
  | .integer, v => convertInteger? v
  | .string, .text s => some (.text s)
  | .boolean, .bool flag => some (.bool flag)
  | _, _ => none

/-- What the type itself makes of a value: true and false count as one and zero. `_reject_bool` keeps them
away from it. -/
def lax? : PropertyType → Value → Option Value
  | .number, .bool flag => convertNumber? (.int (if flag then 1 else 0))
  | .integer, .bool flag => convertInteger? (.int (if flag then 1 else 0))
  | type, v => type.convert? v

end PropertyType

/-! ## Readers and checks -/

/-- Why a validator refuses a value: the types of its errors. -/
inductive Refusal where
  /-- There is none, although one is required. -/
  | missing
  /-- True or false is given for a number. -/
  | flag
  /-- The type of the property cannot read it. -/
  | unreadable
  /-- It is none of the choices. -/
  | unlisted
  deriving DecidableEq, Repr

/-- A validator: it makes a value of another one, or refuses it. -/
abbrev Reader := Value → Except Refusal Value

/-- A validator that is put around another. -/
inductive Check where
  /-- It gets the value before the other does. -/
  | before (check : Reader)
  /-- It gets what the other has read. -/
  | after (check : Reader)

namespace Reader

/-- The validator with another around it. -/
def within (reader : Reader) : Check → Reader
  | .before check => fun v => check v >>= reader
  | .after check => fun v => reader v >>= check

/-- The validator, except that null passes it as it is. -/
def orNull (reader : Reader) : Reader
  | .null => .ok .null
  | v => reader v

/-- `_check_empty`: an empty value becomes null, unless a value is required. -/
def ofFilled (required : Bool) : Reader := fun v =>
  if v.isEmpty then (if required then .error .missing else .ok .null) else .ok v

/-- `_reject_bool`: true and false are no numbers. -/
def ofNumber : Reader := fun v => if v.isFlag then .error .flag else .ok v

/-- The validator of a type (`_BASE_TYPES`). -/
def ofType (type : PropertyType) : Reader := fun v =>
  match type.lax? v with
  | some read => .ok read
  | none => .error .unreadable

end Reader

/-! ## Properties -/

namespace Property

/-- Whether a value is among the `allowed_values`; numbers are compared by what they are. -/
def lists (p : Property) (v : Value) : Bool := p.allowed.any v.same

/-- `_check_choice`: what was read has to be one of the allowed values, as these are given. -/
def ofListed (p : Property) : Reader := fun v => if p.lists v then .ok v else .error .unlisted

/-- The validators of a `PropertyRule` that get the value before its type does; the last of them is asked
first. -/
def checksBefore (p : Property) (required : Bool) : List Check :=
  .before (.ofFilled required) :: if p.isNumeric then [.before .ofNumber] else []

/-- Those that get what was read. -/
def checksAfter (p : Property) : List Check :=
  if p.isClosedChoice then [.after p.ofListed.orNull] else []

/-- The adapter of a `PropertyRule`: each validator is put around the ones before it. -/
def reader (p : Property) (required : Bool) : Reader :=
  (p.checksBefore required ++ p.checksAfter).foldl Reader.within (Reader.ofType p.type).orNull

/-- The rule that a refused value breaks: what is neither missing nor unlisted is of the wrong type. -/
def ruleOf (p : Property) : Refusal → Violation
  | .missing => .required
  | .unlisted => .notAllowed
  | _ => .wrongType p.type

/-- `check`: the first rule that a value breaks. -/
def violation? (p : Property) (required : Bool) (v : Value) : Option Violation :=
  match p.reader required v with
  | .ok _ => none
  | .error refusal => some (p.ruleOf refusal)

end Property

/-! ## Whole forms -/

namespace Schema

/-- The value under a name, or null. -/
def valueIn (values : OrderedMap Value) (name : String) : Value := (values.get? name).getD .null

/-- `validate_property` of a `FormValidator`: a name that is not declared has no rules. -/
def violation? (s : Schema) (name : String) (v : Value) : Option Violation :=
  (s.property? name).bind fun p => p.violation? (s.isRequired name) v

/-- What `validate_property` logs. -/
def checkEvents (s : Schema) (name : String) (v : Value) : List Event :=
  match s.property? name with
  | some _ => [.checkedProperty name ((s.violation? name v).map Violation.message)]
  | none => []

/-- `validate_all`: the rules that the values break, in the order of the schema. -/
def violations (s : Schema) (values : OrderedMap Value) : OrderedMap Violation :=
  .collect s.names s.nodup_names fun name => s.violation? name (valueIn values name)

/-- `is_valid`: whether the values break no rule. -/
def accepts (s : Schema) (values : OrderedMap Value) : Bool :=
  s.names.all fun name => (s.violation? name (valueIn values name)).isNone

theorem get?_violations {s : Schema} {values : OrderedMap Value} {name : String} :
    (s.violations values).get? name = s.violation? name (valueIn values name) := by
  rw [violations, OrderedMap.get?_collect]
  split
  · rfl
  · next h =>
    have : s.property? name = none := by
      simpa [names, property?, OrderedMap.mem_keys_iff] using h
    simp [violation?, this]

end Schema

end SchemaForm
