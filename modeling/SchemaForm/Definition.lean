import SchemaForm.Schema
import SchemaForm.Layout

/-!
# Form definitions

All that describes one form: its data schema, its layout, and values to start with. A definition comes
as a flat set of members, or with the schema, the layout and the data in a member `content`.

* `Definition` — the model (`FormDefinition`);
* `Definition.ofPayload` — from JSON of either shape (`from_payload`);
* `Definition.toValue` — to JSON of the flat shape (`to_command_set`).
-/

namespace SchemaForm

/-- A `FormDefinition`: all that describes one form. -/
structure Definition where
  id : String
  title : Option String
  schema : Schema
  /-- The layout, if one is given. -/
  layout? : Option Layout
  /-- The values to start with. -/
  data? : Option (OrderedMap Value)

namespace Definition

/-- Why something is no definition. -/
inductive Fault where
  /-- A `FormDefinitionError`: the payload is no object. -/
  | notObject (typeName : String)
  /-- A `FormDefinitionError`: a field of the model is missing or wrong. -/
  | invalid (issues : List Issue)
  /-- No `FormDefinitionError`: the content counts as true, but has no members to look for. -/
  | contentWithoutMembers (typeName : String)
  deriving DecidableEq, Repr

/-- The name of the model in messages. -/
def model : String := "FormDefinition"

/-- The headline of a list of issues. -/
def issueCount (issues : List Issue) : String :=
  toString issues.length ++ " validation error" ++ (if issues.length = 1 then "" else "s") ++
    " for " ++ model

namespace Fault

/-- The message of the fault, without the single issues. -/
def message : Fault → String
  | .notObject typeName => "Form payload must be an object, got " ++ typeName
  | .invalid issues => "Invalid form definition: " ++ issueCount issues
  | .contentWithoutMembers typeName => "'" ++ typeName ++ "' object has no attribute 'get'"

end Fault

/-! ## Reading -/

/-- The identifier of a form that has none. -/
def defaultId : String := "form"

/-- Reads the members of a definition of the flat shape. -/
def readFields (members : List (String × Value)) : Checked Definition :=
  Definition.mk
    <$> optional ["formId", "form_id"] defaultId readText members
    <*> nullable ["title"] readText members
    <*> required ["jsonSchema", "json_schema"] Schema.read members
    <*> nullable ["uiSchema", "ui_schema"] Layout.read members
    <*> nullable ["formData", "form_data"] (readObject readAny) members

/-- The value of a member; a missing one is null. -/
def memberOf (members : List (String × Value)) (name : String) : Value :=
  (Entries.get? name members).getD .null

/-- The members of a content, which `from_payload` looks for with `get`; one that counts as false has none. -/
def contentMembers (content : Value) : Except Fault (List (String × Value)) :=
  if !content.isTruthy then .ok []
  else match content with
    | .object members => .ok members
    | other => .error (.contentWithoutMembers other.typeName)

/-- The flat shape of a payload: the first part of `from_payload`. -/
def flatten (members : List (String × Value)) : Except Fault (List (String × Value)) :=
  match Entries.get? "content" members with
  | none => .ok members
  | some content => do
    let inner ← contentMembers content
    return [("formId", (Entries.get? "formId" members).getD (.text defaultId)),
      ("title", memberOf members "title"),
      ("jsonSchema", memberOf inner "schema"),
      ("uiSchema", memberOf inner "uischema"),
      ("formData", memberOf inner "data")]

/-- `from_payload`: reads a definition of either shape. -/
def ofPayload : Value → Except Fault Definition
  | .object members => do (readFields (← flatten members)).toExcept.mapError .invalid
  | other => .error (.notObject other.typeName)

/-! ## Use -/

/-- `display_title`: the title of the definition, or else that of the schema. -/
def displayTitle (d : Definition) : Option String :=
  match d.title.filter (· != "") with
  | some title => some title
  | none => d.schema.title

/-- `layout`: the one that is given, or else a control for each property. -/
def layout (d : Definition) : Layout := d.layout?.getD (.default d.schema.names)

/-- The definition in JSON (`to_command_set`). -/
def toValue (d : Definition) : Value :=
  .object <|
    [("formId", .text d.id), ("title", .ofOption .text d.displayTitle),
      ("jsonSchema", d.schema.toValue), ("uiSchema", d.layout.toValue)] ++
      match d.data? with
      | some data => [("formData", .object data.entries)]
      | none => []

end Definition

end SchemaForm
