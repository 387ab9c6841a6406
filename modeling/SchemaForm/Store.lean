import SchemaForm.Validation

/-!
# The store

`FormStore` without its listeners: the values of a form, the errors that were found, which names were
touched, whether a submission is in flight, and whether the values are valid.

* `Schema.initialValues` — one value for each declared property (`get_initial_values`);
* `Store` — the fields of a `FormStore`; `Store.ofData` — a new one;
* `Store.setValue`, `setTouched`, `validateField`, `validateForm`, `reset`, `setSubmitting` — its methods
  `set_value`, `set_touched`, `validate_field`, `validate_form`, `reset` and `set_submitting`;
* `Change` — what one of them did: the new store, what `_notify` is called with, and what is logged.

Each method calls `_notify` at most once, after its last write, so that a change has at most one notice. Who
is told of it stands in `SchemaForm.Session`.
-/

namespace SchemaForm

/-! ## Initial values -/

namespace Property

/-- The value of a property that the data do not have: its default, or else false, null or the empty
text by its type (the last branches of `get_initial_values`). -/
def blank (p : Property) : Value :=
  match p.default with
  | some v => v
  | none =>
    match p.type with
    | .boolean => .bool false
    | .number => .null
    | .integer => .null
    | .string => .text ""

end Property

namespace Schema

/-- The values that a form starts with (`get_initial_values`): one for each declared property, from the data if
they have one, also if it is null. Data of other names are dropped. A value is copied however deep it is
nested: the stack of an interpreter, which ends such a copy, is no part of this library. -/
def initialValues (s : Schema) (data : OrderedMap Value) : OrderedMap Value :=
  s.properties.map fun name p => (data.get? name).getD p.blank

@[simp] theorem keys_initialValues (s : Schema) (data : OrderedMap Value) :
    (s.initialValues data).keys = s.names := OrderedMap.keys_map _ _

end Schema

/-! ## The store -/

/-- The fields of a `FormStore`. -/
structure Store where
  schema : Schema
  /-- The values that `reset` goes back to (`_initial_values`). -/
  initial : OrderedMap Value
  values : OrderedMap Value
  /-- The violations of which `errors` holds the messages, by name, in the order of their coming. -/
  errors : OrderedMap Violation
  /-- The keys of the `touched` map, in the order of touching; all of its values are true. -/
  touched : List String
  /-- The in-flight flag (`is_submitting`). -/
  submitting : Bool
  /-- What `is_valid` answers; it is written with the values, and not when `errors` are. -/
  valid : Bool

/-- What `_notify` calls the listeners with. -/
inductive Notice where
  /-- The name of the property that has changed. -/
  | property (name : String)
  /-- No name: the form as a whole has changed. -/
  | form
  deriving DecidableEq, Repr

/-- What a method of the store did. -/
structure Change where
  /-- The store after the last write. -/
  store : Store
  /-- What `_notify` is called with after it, if it is called. -/
  notice : Option Notice := none
  events : List Event := []

namespace Store

/-- A new store: `is_valid` is answered from the initial values, but no error is written yet. -/
def ofData (schema : Schema) (data : OrderedMap Value) : Store :=
  let values := schema.initialValues data
  { schema
    initial := values
    values
    errors := ∅
    touched := []
    submitting := false
    valid := schema.accepts values }

/-- `get_value`: null for a name without a value. -/
def value (s : Store) (name : String) : Value := Schema.valueIn s.values name

/-- `get_error`. -/
def message? (s : Store) (name : String) : Option String :=
  (s.errors.get? name).map Violation.message

/-- What `errors` holds: a message for each violation. -/
def messages (s : Store) : OrderedMap String := s.errors.map fun _ violation => violation.message

/-- `is_touched`. -/
def isTouched (s : Store) (name : String) : Bool := s.touched.contains name

/-- The message for a name that was touched (`visible_error` of a snapshot). -/
def visibleMessage? (s : Store) (name : String) : Option String :=
  if s.isTouched name then s.message? name else none

/-- `_store_error`: a violation takes its place among the errors, and none takes an old one away. -/
def withError (s : Store) (name : String) (found : Option Violation) : Store :=
  { s with errors := match found with
      | some violation => s.errors.insert name violation
      | none => s.errors.erase name }

/-! ## Operations -/

/-- `set_value`: writes the value, checks its property alone, and answers `is_valid` anew from all values. The
value of a name that is not declared is dropped with a warning. -/
def setValue (s : Store) (name : String) (v : Value) : Change :=
  if s.schema.properties.contains name then
    let values := s.values.insert name v
    let written := { s with values, valid := s.schema.accepts values }
    { store := written.withError name (s.schema.violation? name v)
      notice := some (.property name)
      events := s.schema.checkEvents name v }
  else { store := s, events := [.undeclaredValue name] }

/-- `set_touched`: of any name, declared or not; a name that was touched gives no notice again. -/
def setTouched (s : Store) (name : String) : Change :=
  if s.isTouched name then { store := s }
  else { store := { s with touched := s.touched ++ [name] }, notice := some (.property name) }

/-- `validate_field`: checks the value that a property has. A name that is not declared is passed over. -/
def validateField (s : Store) (name : String) : Change :=
  if s.schema.properties.contains name then
    let v := s.value name
    { store := s.withError name (s.schema.violation? name v)
      notice := some (.property name)
      events := s.schema.checkEvents name v }
  else { store := s }

/-- `validate_form`: the errors are replaced by those of all properties, and the touched names by the declared
ones. A name that is touched but not declared is forgotten. -/
def validateForm (s : Store) : Change :=
  { store := { s with errors := s.schema.violations s.values, touched := s.schema.names }
    notice := some .form }

/-- `reset`: the initial values again, no errors and nothing touched. The in-flight flag stays as it is. -/
def reset (s : Store) : Change :=
  { store := { s with
      values := s.initial
      errors := ∅
      touched := []
      valid := s.schema.accepts s.initial }
    notice := some .form }

/-- `set_submitting`: a flag that is as it was gives no notice. -/
def setSubmitting (s : Store) (flag : Bool) : Change :=
  if s.submitting = flag then { store := s }
  else { store := { s with submitting := flag }, notice := some .form }

/-- A call of one of the methods that write. -/
inductive Operation where
  | setValue (name : String) (value : Value)
  | setTouched (name : String)
  | validateField (name : String)
  | validateForm
  | reset
  | setSubmitting (flag : Bool)

/-- What the call does to a store. -/
def apply (s : Store) : Operation → Change
  | .setValue name v => s.setValue name v
  | .setTouched name => s.setTouched name
  | .validateField name => s.validateField name
  | .validateForm => s.validateForm
  | .reset => s.reset
  | .setSubmitting flag => s.setSubmitting flag

end Store

end SchemaForm
