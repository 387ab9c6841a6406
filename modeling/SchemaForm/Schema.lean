import SchemaForm.Schema.Property

/-!
# Data schemas

The half of a form description that says which values a form has.

* `Schema` — named properties in their order, and the names of the required ones (`DataSchema`);
* `Schema.read` — from JSON; only declared properties can be required (`_check_required_subset`);
* `Schema.toValue` — to JSON (`to_json_schema`).

Keywords that a schema may have besides are ignored.
-/

namespace SchemaForm

/-- A `DataSchema`: the properties of a form. -/
structure Schema where
  title : Option String
  description : Option String
  properties : OrderedMap Property
  required : List String

namespace Schema

/-- The names that are required but not declared. -/
def undeclared (s : Schema) : List String :=
  s.required.filter fun name => !s.properties.contains name

/-- `_check_required_subset`: only declared properties can be required. -/
def check (s : Schema) : Checked Schema :=
  match s.undeclared with
  | [] => .ok s
  | names => .fail (.undeclared names)

/-- Reads the fields of a schema. -/
def readFields (members : List (String × Value)) : Checked Schema :=
  Checked.andThen check <|
    Schema.mk
      <$> nullable ["title"] readText members
      <*> nullable ["description"] readText members
      <*> optional ["properties"] ∅ (readObject Property.read) members
      <*> optional ["required"] [] (readList readText) members

/-- Reads a schema. -/
def read : Value → Checked Schema := readModel "DataSchema" readFields

/-- The names of the properties, in order. -/
def names (s : Schema) : List String := s.properties.keys

theorem nodup_names (s : Schema) : s.names.Nodup := s.properties.nodup

/-- The property of a name. -/
def property? (s : Schema) (name : String) : Option Property := s.properties.get? name

/-- `is_required`. -/
def isRequired (s : Schema) (name : String) : Bool := s.required.contains name

/-- A member for a text that is not empty. -/
def textMember (name : String) : Option String → List (String × Value)
  | some text => if text = "" then [] else [(name, .text text)]
  | none => []

/-- The schema in JSON (`to_json_schema`); an empty title or description is not written. -/
def toValue (s : Schema) : Value :=
  .object <|
    [("type", .text "object"),
      ("properties", .object (s.properties.map fun _ p => p.toValue).entries),
      ("required", .list (s.required.map .text))] ++
      textMember "title" s.title ++ textMember "description" s.description

/-- In a schema that was checked every required name is declared. -/
theorem mem_names_of_check {s t : Schema} (h : s.check = .ok t) :
    t = s ∧ ∀ name ∈ t.required, name ∈ t.names := by
  unfold check at h
  split at h
  · next hu =>
    cases h
    refine ⟨rfl, fun name hn => ?_⟩
    have := List.filter_eq_nil_iff.1 hu name hn
    simpa [OrderedMap.contains_iff, names] using this
  · exact absurd h (by simp [Checked.fail])

end Schema

end SchemaForm
