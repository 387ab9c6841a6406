import SchemaForm.Issue

/-!
# Properties

What a data schema says about one value of a form: its type, what it may be, and how it is introduced
to the user.

* `PropertyType`, `Choice`, `Property` — the models `ChoiceOption` and `PropertySchema`;
* `Property.read` and `Property.toValue` — from and to JSON; what is null is not written;
* `Property.allowed` and `Property.choices` — the values of a closed choice (`allowed_values`), and the texts for
  them (`choices`).
-/

namespace SchemaForm

/-! ## Types -/

/-- The type of a property. -/
inductive PropertyType where
  | string
  | number
  | integer
  | boolean
  deriving DecidableEq, Repr

namespace PropertyType

/-- All types, in the order in which messages list them. -/
def all : List PropertyType := [.string, .number, .integer, .boolean]

/-- The name of the type in a schema. -/
def name : PropertyType → String
  | .string => "string"
  | .number => "number"
  | .integer => "integer"
  | .boolean => "boolean"

/-- The type of that name. -/
def ofName? (name : String) : Option PropertyType := all.find? (·.name == name)

theorem ofName?_name (t : PropertyType) : ofName? t.name = some t := by cases t <;> decide

/-- Whether values of the type are numbers. -/
def isNumeric : PropertyType → Bool
  | .number => true
  | .integer => true
  | _ => false

/-- Reads the name of a type. -/
def read (v : Value) : Checked PropertyType :=
  let found? := match v with
    | .text name => ofName? name
    | _ => none
  match found? with
  | some t => .ok t
  | none => .fail (.notAmong (all.map name))

end PropertyType

/-! ## Choices -/

/-- A `ChoiceOption`: one value that a property may have, with the text that is shown for it. -/
structure Choice where
  value : Value
  label : Option String

namespace Choice

/-- Reads the fields of a choice. -/
def readFields (members : List (String × Value)) : Checked Choice :=
  Choice.mk
    <$> required ["const", "value"] readAny members
    <*> nullable ["title", "label"] readText members

/-- Reads a choice. -/
def read : Value → Checked Choice := readModel "ChoiceOption" readFields

/-- The choice in JSON. -/
def toValue (choice : Choice) : Value :=
  .objectOfSome [("const", choice.value), ("title", .ofOption .text choice.label)]

/-- `display_label`: the label of the choice, or else the text of its value. -/
def shown (choice : Choice) : Except DisplayError String :=
  match choice.label with
  | some label => .ok label
  | none => choice.value.display

end Choice

/-! ## Properties -/

/-- A `PropertySchema`: what a schema says about one value. -/
structure Property where
  type : PropertyType := .string
  title : Option String := none
  description : Option String := none
  /-- The value of a form that is given none. -/
  default : Option Value := none
  format : Option String := none
  /-- The allowed values. -/
  enum : Option (List Value) := none
  /-- The allowed values with labels. -/
  oneOf : Option (List Choice) := none

namespace Property

/-- Takes any list. -/
def readValues : Value → Checked (List Value) := readList readAny

/-- Reads the fields of a property. -/
def readFields (members : List (String × Value)) : Checked Property :=
  Property.mk
    <$> optional ["type"] .string PropertyType.read members
    <*> nullable ["title"] readText members
    <*> nullable ["description"] readText members
    <*> nullable ["default"] readAny members
    <*> nullable ["format"] readText members
    <*> nullable ["enum"] readValues members
    <*> nullable ["oneOf", "one_of"] (readList Choice.read) members

/-- Reads a property. -/
def read : Value → Checked Property := readModel "PropertySchema" readFields

/-- The property in JSON. -/
def toValue (p : Property) : Value :=
  .objectOfSome
    [("type", .text p.type.name),
      ("title", .ofOption .text p.title),
      ("description", .ofOption .text p.description),
      ("default", .ofOption id p.default),
      ("format", .ofOption .text p.format),
      ("enum", .ofOption .list p.enum),
      ("oneOf", .ofOption (fun choices => .list (choices.map Choice.toValue)) p.oneOf)]

/-- `is_numeric`. -/
def isNumeric (p : Property) : Bool := p.type.isNumeric

/-- `is_closed_choice`: whether the property admits a fixed set of values only. -/
def isClosedChoice (p : Property) : Bool := p.enum.isSome || p.oneOf.isSome

/-- The choices of the property: an `enum` goes before a `oneOf`. -/
def choiceList (p : Property) : List Choice :=
  match p.enum, p.oneOf with
  | some values, _ => values.map (⟨·, none⟩)
  | none, some choices => choices
  | none, none => []

/-- `allowed_values`: the values of a closed choice. -/
def allowed (p : Property) : List Value := p.choiceList.map Choice.value

/-- `choices`: the values of a closed choice with the texts that are shown for them. -/
def choices (p : Property) : Except DisplayError (List (Value × String)) :=
  p.choiceList.mapM fun choice => return (choice.value, ← choice.shown)

/-- Only a closed choice has allowed values. -/
theorem allowed_eq_nil {p : Property} (h : p.isClosedChoice = false) : p.allowed = [] := by
  simp only [isClosedChoice, Bool.or_eq_false_iff, Option.isSome_eq_false_iff] at h
  obtain ⟨he, ho⟩ := h
  simp [allowed, choiceList, Option.isNone_iff_eq_none.1 he, Option.isNone_iff_eq_none.1 ho]

end Property

end SchemaForm
