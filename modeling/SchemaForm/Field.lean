import SchemaForm.Schema
import SchemaForm.Layout
import SchemaForm.Event

/-!
# Fields

A field is a control together with the property that its scope names.

* `Field` — the property, and how it is labelled and shown (`ResolvedControl`);
* `Control.field?` — the field of a control, if a schema declares the property (`resolve_control`);
* `Field.kind` — the kind of widget that shows the field (`classify`).

The kind is a text, since a control may ask for any kind that a host knows; `Kind` lists the ones that
are chosen without being asked for.
-/

namespace SchemaForm

/-- A control together with its property (`ResolvedControl`). -/
structure Field where
  /-- The name of the property. -/
  name : String
  /-- What stands beside the widget; nothing if it is empty. -/
  label : String
  property : Property
  required : Bool := false
  options : Option ControlOptions := none

namespace Field

/-- Whether anything stands beside the widget. -/
def hasLabel (field : Field) : Bool := field.label != ""

/-- Reads a field with options that were read before. -/
def readFields (options : Option ControlOptions) (members : List (String × Value)) : Checked Field :=
  (fun name label property required => ⟨name, label, property, required, options⟩)
    <$> SchemaForm.required ["name"] readText members
    <*> SchemaForm.required ["label"] readText members
    <*> SchemaForm.required ["property"] Property.read members
    <*> optional ["required"] false readFlag members

end Field

/-! ## Controls and properties -/

namespace Control

/-- `resolve_label`: the label of the control for a property of this name and title. -/
def labelFor (control : Control) (name : String) (title : Option String) : String :=
  match control.label with
  | .flag false => ""
  | .text label => label
  | _ => title.getD name

/-- The name of the property that the control is for: `scope_to_property_name` of its scope. -/
def propertyName (control : Control) : String := Scope.name control.scope

/-- `resolve_control`: the field of the control, if the schema declares its property. -/
def field? (control : Control) (schema : Schema) : Option Field :=
  let name := control.propertyName
  (schema.property? name).map fun property =>
    { name
      label := control.labelFor name property.title
      property
      required := schema.isRequired name
      options := control.options }

/-- What `resolve_control` logs: a control without a property. -/
def events (control : Control) (schema : Schema) : List Event :=
  match control.field? schema with
  | some _ => []
  | none => [.skippedControl control.scope]

theorem field?_isSome_iff {control : Control} {schema : Schema} :
    (control.field? schema).isSome ↔ control.propertyName ∈ schema.names := by
  simp [field?, Schema.property?, Schema.names, OrderedMap.mem_keys_iff]

theorem field?_name {control : Control} {schema : Schema} {field : Field}
    (h : control.field? schema = some field) : field.name = control.propertyName := by
  simp only [field?, Option.map_eq_some_iff] at h
  obtain ⟨property, _, rfl⟩ := h
  rfl

/-- The field of a control is the property that the schema has under its name. -/
theorem property?_of_field? {control : Control} {schema : Schema} {field : Field}
    (h : control.field? schema = some field) : schema.property? field.name = some field.property := by
  obtain ⟨property, hproperty, rfl⟩ := Option.map_eq_some_iff.mp h
  exact hproperty

end Control

/-! ## Kinds -/

/-- The kinds of widgets that are chosen for a property (`WidgetKind`). -/
inductive Kind where
  | text
  | email
  | number
  | textarea
  | select
  | checkbox
  deriving DecidableEq, Repr

namespace Kind

/-- All kinds. -/
def all : List Kind := [.text, .email, .number, .textarea, .select, .checkbox]

/-- The name of the kind. -/
def name : Kind → String
  | .text => "text"
  | .email => "email"
  | .number => "number"
  | .textarea => "textarea"
  | .select => "select"
  | .checkbox => "checkbox"

end Kind

namespace ControlOptions

/-- Whether the options ask for several lines. -/
def wantsLines (options : ControlOptions) : Bool :=
  options.multi.getD false || options.rows.any (1 < ·)

/-- The kind that the options ask for by name. -/
def format? (options : ControlOptions) : Option String := options.format.filter (· != "")

end ControlOptions

namespace Field

/-- The kind for the property, whatever the options are. -/
def propertyKind (property : Property) : Kind :=
  if property.isClosedChoice then .select
  else match property.type with
    | .boolean => .checkbox
    | .number => .number
    | .integer => .number
    | .string => if property.format = some "email" then .email else .text

/-- `classify`: the kind that the options name goes before the wish for several lines, and that before the
property. -/
def kind (field : Field) : String :=
  match field.options.bind (·.format?) with
  | some format => format
  | none =>
    if field.options.any (·.wantsLines) then Kind.textarea.name
    else (propertyKind field.property).name

end Field

end SchemaForm
