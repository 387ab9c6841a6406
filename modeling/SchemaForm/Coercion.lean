import SchemaForm.Schema
import SchemaForm.Event
import SchemaForm.Number.Numeral
import SchemaForm.Value.Equality

/-!
# Coercion

What a form hands on instead of the texts that were typed into its numeric fields.

* `readNumber?` — the finite number that a text writes (`parse_number`); digits of every script count, and
  single separators may stand between them;
* `Schema.coerce` — the values of a form with the texts of numeric properties replaced by numbers
  (`coerce_values`); `Schema.coerceEvents` — its warnings.

A text that `parse_number` does not read stays as it is, with a warning: the validator has had its say
before.
-/

namespace SchemaForm

/-! ## Numbers -/

/-- A floating point number, or the whole number that it is. -/
def wholeIfIntegral (x : Binary64) : Number :=
  match x.toInt? with
  | some n => .int n
  | none => .float x

/-- The finite number that a text writes (`parse_number`). Where a whole number is wanted, plain digits are
read exactly up to `maxDigits` of them; any other text, a longer one among them, is read as a floating point
number, which becomes a whole number if it is one. -/
def readNumber? (integer : Bool) (s : String) : Option Number :=
  let float? := floatOfNumeral? (numeral s)
  if integer then
    match integerOfNumeral (numeral s) with
    | .ok n => some (.int n)
    | .error _ => float?.map wholeIfIntegral
  else float?.map .float

/-! ## Values -/

namespace Property

/-- The number that `coerce_values` puts in the place of a text, if the property is numeric and the text is
read. -/
def number? (p : Property) : Value → Option Number
  | .text s => if p.isNumeric then readNumber? (p.type == .integer) s else none
  | _ => none

/-- The value that is handed on instead of a value. -/
def coerce (p : Property) (v : Value) : Value :=
  match p.number? v with
  | some number => number.toValue
  | none => v

/-- Whether `coerce_values` warns of a value: a text, not empty, that stays although a number is wanted. -/
def keepsText (p : Property) : Value → Bool
  | .text s => p.isNumeric && s != "" && (p.number? (.text s)).isNone
  | _ => false

end Property

namespace Schema

/-- The value that is handed on under a name; one that is not declared is handed on as it is. -/
def coerceValue (s : Schema) (name : String) (v : Value) : Value :=
  match s.property? name with
  | some p => p.coerce v
  | none => v

/-- The values that a form hands on (`coerce_values`), under the same names in the same order. -/
def coerce (s : Schema) (values : OrderedMap Value) : OrderedMap Value := values.map s.coerceValue

/-- The warnings of `coerce_values`, in the order of the properties. -/
def coerceEvents (s : Schema) (values : OrderedMap Value) : List Event :=
  s.properties.entries.filterMap fun (name, p) =>
    if (values.get? name).any p.keepsText then some (.keptText name) else none

theorem keys_coerce (s : Schema) (values : OrderedMap Value) :
    (s.coerce values).keys = values.keys := OrderedMap.keys_map _ _

end Schema

end SchemaForm
