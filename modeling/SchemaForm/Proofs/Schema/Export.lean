import SchemaForm.Schema
import SchemaForm.Proofs.Reading

/-!
# Schemas that are written and read again

What a schema says about the values of a form survives `to_json_schema` and reading again, with one exception:
a choice for null is written without its `const`, and then is no choice any more.

* `Choice.readFields_eq_ok_iff`, `Property.readFields_eq_ok_iff`, … — what is read of each field;
* `Property.NoNullChoice`, `Schema.NoNullChoice` — null is none of the labelled choices;
* `Property.read_toValue` — a property without such a choice is read back as it was written;
* `Schema.exported` — what is left of a schema: all but the empty texts;
* `Schema.read_toValue`, `Schema.noNullChoice_of_read` — a schema that was read can be written and read
  again exactly if it has no such choice.
-/

namespace SchemaForm

open Entries

/-! ## Choices -/

namespace Choice

variable {choice other : Choice}

/-- The members of a choice before what is null is left out. -/
def members (choice : Choice) : List (String × Value) :=
  [("const", choice.value), ("title", .ofOption .text choice.label)]

theorem read_toValue_eq (choice : Choice) : read choice.toValue = readFields (written choice.members) :=
  congrArg read (objectOfSome_eq choice.members)

theorem readFields_eq_ok_iff {members : List (String × Value)} :
    readFields members = .ok choice ↔
      required ["const", "value"] readAny members = .ok choice.value ∧
        nullable ["title", "label"] readText members = .ok choice.label := by
  obtain ⟨value, label⟩ := choice
  rw [Checked.eq_ok_iff_exists]
  simp only [readFields, Checked.map_eq, Checked.seq_eq, Checked.exists_apply, Checked.exists_map]
  grind

theorem read_toValue (h : choice.value ≠ .null) : read choice.toValue = .ok choice := by
  have hconst : found "const" (written choice.members) = choice.value :=
    found_written (by simp [members])
  have htitle : found "title" (written choice.members) = .ofOption .text choice.label :=
    found_written (by simp [members])
  have hlabel : get? "label" (written choice.members) = none :=
    get?_written_eq_none (by simp [members])
  rw [read_toValue_eq, readFields_eq_ok_iff, required_of_found hconst h]
  exact ⟨rfl, nullable_text_of_found htitle (by simpa using hlabel)⟩

/-- A choice for null is written without its value, and a choice needs one. -/
theorem value_ne_null_of_read (h : read choice.toValue = .ok other) : choice.value ≠ .null := by
  intro hnull
  have hconst : get? "const" (written choice.members) = none :=
    get?_written_eq_none (by simp [members, hnull])
  have hvalue : get? "value" (written choice.members) = none :=
    get?_written_eq_none (by simp [members])
  rw [read_toValue_eq, readFields_eq_ok_iff] at h
  exact required_ne_ok (by simp [hconst, hvalue]) _ h.1

end Choice

/-! ## Properties -/

namespace Property

variable {p q : Property}

/-- Null is none of the labelled choices. -/
def NoNullChoice (p : Property) : Prop := ∀ choices ∈ p.oneOf, ∀ choice ∈ choices, choice.value ≠ .null

/-- A default that is null is no default. -/
def Regular (p : Property) : Prop := p.default ≠ some .null

/-- The members of a property before what is null is left out. -/
def members (p : Property) : List (String × Value) :=
  [("type", .text p.type.name),
    ("title", .ofOption .text p.title),
    ("description", .ofOption .text p.description),
    ("default", .ofOption id p.default),
    ("format", .ofOption .text p.format),
    ("enum", .ofOption .list p.enum),
    ("oneOf", .ofOption (fun choices => .list (choices.map Choice.toValue)) p.oneOf)]

theorem read_toValue_eq (p : Property) : read p.toValue = readFields (written p.members) :=
  congrArg read (objectOfSome_eq p.members)

theorem readFields_eq_ok_iff {members : List (String × Value)} :
    readFields members = .ok p ↔
      optional ["type"] .string PropertyType.read members = .ok p.type ∧
        nullable ["title"] readText members = .ok p.title ∧
        nullable ["description"] readText members = .ok p.description ∧
        nullable ["default"] readAny members = .ok p.default ∧
        nullable ["format"] readText members = .ok p.format ∧
        nullable ["enum"] readValues members = .ok p.enum ∧
        nullable ["oneOf", "one_of"] (readList Choice.read) members = .ok p.oneOf := by
  obtain ⟨type, title, description, default, format, enum, oneOf⟩ := p
  rw [Checked.eq_ok_iff_exists]
  simp only [readFields, Checked.map_eq, Checked.seq_eq, Checked.exists_apply, Checked.exists_map]
  grind

theorem found_type (p : Property) :
    found "type" (written p.members) = .text p.type.name :=
  found_written (by simp [members])

theorem found_default (p : Property) :
    found "default" (written p.members) = .ofOption id p.default :=
  found_written (by simp [members])

theorem found_oneOf (p : Property) :
    found "oneOf" (written p.members) =
      .ofOption (fun choices => .list (choices.map Choice.toValue)) p.oneOf :=
  found_written (by simp [members])

theorem readType_name (t : PropertyType) : PropertyType.read (.text t.name) = .ok t := by
  rw [PropertyType.read, PropertyType.ofName?_name]

/-- A property that was written is read again, unless it has a choice of null. -/
theorem read_toValue (hp : p.Regular) (hchoice : p.NoNullChoice) : read p.toValue = .ok p := by
  have htype : optional ["type"] .string PropertyType.read (written p.members) = .ok p.type := by
    rw [optional_eq_under p.found_type (by simp), readType_name, Checked.under_ok]
  have hdefault : nullable ["default"] readAny (written p.members) = .ok p.default :=
    nullable_of_found p.found_default (by simp) (fun _ _ => rfl)
      (fun a ha heq => hp (ha.trans (congrArg some heq)))
  have henum : nullable ["enum"] readValues (written p.members) = .ok p.enum :=
    nullable_of_found (found_written (by simp [members])) (by simp)
      (fun values _ => readList_readAny values) (by simp)
  have halias : get? "one_of" (written p.members) = none := get?_written_eq_none (by simp [members])
  have honeOf : nullable ["oneOf", "one_of"] (readList Choice.read) (written p.members) = .ok p.oneOf :=
    nullable_of_found p.found_oneOf (by simpa using halias)
      (fun choices hmem => readList_map fun choice hchoices =>
        Choice.read_toValue (hchoice choices hmem choice hchoices))
      (by simp)
  have htext : ∀ {name : String} {text : Option String},
      (∀ w, (name, w) ∈ p.members ↔ w = .ofOption .text text) →
        nullable [name] readText (written p.members) = .ok text :=
    fun h => nullable_text_of_found (found_written h) (by simp)
  rw [read_toValue_eq, readFields_eq_ok_iff]
  exact ⟨htype, htext (by simp [members]), htext (by simp [members]), hdefault,
    htext (by simp [members]), henum, honeOf⟩

theorem noNullChoice_of_read (h : read p.toValue = .ok q) : p.NoNullChoice := by
  intro choices hmem choice hchoices
  rw [read_toValue_eq, readFields_eq_ok_iff] at h
  obtain ⟨-, -, -, -, -, -, honeOf⟩ := h
  have hfound := p.found_oneOf
  rw [Option.mem_def.mp hmem, Value.ofOption] at hfound
  rw [nullable, optional_eq_under hfound (by simp), Checked.under_eq_ok_iff] at honeOf
  obtain ⟨parts, hparts, -⟩ := Checked.map_eq_ok_iff.mp honeOf
  obtain ⟨other, hother⟩ := ok_of_readList hparts _ (List.mem_map_of_mem hchoices)
  exact Choice.value_ne_null_of_read hother

theorem regular_of_read {v : Value} (h : read v = .ok p) : p.Regular := by
  cases v
  case object members =>
    obtain ⟨-, -, -, hdefault, -⟩ := readFields_eq_ok_iff.mp h
    intro hnull
    rw [hnull] at hdefault
    obtain ⟨w, hne, hw⟩ := ok_of_nullable hdefault
    cases hw
    exact hne rfl
  all_goals cases h

end Property

/-! ## Schemas -/

namespace Schema

variable {s t : Schema}

/-- Null is none of the labelled choices of a property. -/
def NoNullChoice (s : Schema) : Prop := ∀ entry ∈ s.properties.entries, entry.2.NoNullChoice

/-- What holds of a schema that was read. -/
structure Regular (s : Schema) : Prop where
  check : s.check = .ok s
  properties : ∀ entry ∈ s.properties.entries, entry.2.Regular

/-- What is left of a schema when it is written: all but the empty texts. -/
def exported (s : Schema) : Schema :=
  { s with title := s.title.filter (· != ""), description := s.description.filter (· != "") }

/-- The members of a schema. -/
def members (s : Schema) : List (String × Value) :=
  [("type", .text "object"), ("properties", .object (s.properties.map fun _ p => p.toValue).entries),
    ("required", .list (s.required.map .text))] ++
      textMember "title" s.title ++ textMember "description" s.description

theorem read_toValue_eq (s : Schema) : read s.toValue = readFields s.members := rfl

theorem toValue_ne_null (s : Schema) : s.toValue ≠ .null := by simp [toValue]

theorem readFields_eq_ok_iff {members : List (String × Value)} :
    readFields members = .ok s ↔
      (nullable ["title"] readText members = .ok s.title ∧
        nullable ["description"] readText members = .ok s.description ∧
        optional ["properties"] ∅ (readObject Property.read) members = .ok s.properties ∧
        optional ["required"] [] (readList readText) members = .ok s.required) ∧ s.check = .ok s := by
  rw [readFields, Checked.andThen_eq_ok_iff]
  simp only [Checked.map_eq, Checked.seq_eq, Checked.exists_apply, Checked.exists_map]
  constructor
  · rintro ⟨title, htitle, description, hdescription, properties, hproperties, required, hrequired, hcheck⟩
    obtain ⟨rfl, -⟩ := mem_names_of_check hcheck
    exact ⟨⟨htitle, hdescription, hproperties, hrequired⟩, hcheck⟩
  · rintro ⟨⟨htitle, hdescription, hproperties, hrequired⟩, hcheck⟩
    exact ⟨_, htitle, _, hdescription, _, hproperties, _, hrequired, hcheck⟩

theorem get?_textMember (name other : String) (text : Option String) :
    get? name (textMember other text) =
      if other = name then (text.filter (· != "")).map .text else none := by
  cases text with
  | none => simp [textMember]
  | some text =>
    by_cases h : text = ""
    · simp [textMember, Option.filter, h]
    · simp [textMember, Option.filter, h, get?_cons]

theorem found_title (s : Schema) :
    found "title" s.members = .ofOption .text (s.title.filter (· != "")) := by
  rw [found, members, get?_append, get?_append, get?_textMember, get?_textMember]
  cases s.title.filter (· != "") <;> rfl

theorem found_description (s : Schema) :
    found "description" s.members = .ofOption .text (s.description.filter (· != "")) := by
  rw [found, members, get?_append, get?_append, get?_textMember, get?_textMember]
  cases s.description.filter (· != "") <;> rfl

theorem found_properties (s : Schema) :
    found "properties" s.members =
      .object (s.properties.map fun _ p => p.toValue).entries := rfl

theorem check_exported (h : s.check = .ok s) : s.exported.check = .ok s.exported := by
  unfold check at h ⊢
  split at h
  · next hnone =>
    have hexported : s.exported.undeclared = [] := hnone
    rw [hexported]
  · cases h

/-- A schema that was written is read again without its empty texts, unless it has a choice of null. -/
theorem read_toValue (hs : s.Regular) (hchoice : s.NoNullChoice) :
    read s.toValue = .ok s.exported := by
  have hproperties : readObject Property.read (.object (s.properties.map fun _ p => p.toValue).entries) =
      .ok s.properties :=
    readObject_map fun entry hmem => Property.read_toValue (hs.properties entry hmem) (hchoice entry hmem)
  have hrequired : readList readText (.list (s.required.map .text)) = .ok s.required :=
    readList_map fun _ _ => rfl
  have hfound : found "required" s.members = .list (s.required.map .text) := rfl
  rw [read_toValue_eq, readFields_eq_ok_iff, optional_eq_under s.found_properties (by simp), hproperties,
    optional_eq_under hfound (by simp), hrequired]
  exact ⟨⟨nullable_text_of_found s.found_title (by simp),
    nullable_text_of_found s.found_description (by simp), rfl, rfl⟩, check_exported hs.check⟩

theorem noNullChoice_of_read (h : read s.toValue = .ok t) : s.NoNullChoice := by
  intro entry hmem
  rw [read_toValue_eq, readFields_eq_ok_iff] at h
  obtain ⟨⟨-, -, hproperties, -⟩, -⟩ := h
  rw [optional_eq_under s.found_properties (by simp), Checked.under_eq_ok_iff] at hproperties
  obtain ⟨q, hq⟩ := ok_of_readObject hproperties (entry.1, entry.2.toValue) (List.mem_map_of_mem hmem)
  exact Property.noNullChoice_of_read hq

theorem regular_of_read {v : Value} (h : read v = .ok s) : s.Regular := by
  cases v
  case object members =>
    obtain ⟨⟨-, -, hproperties, -⟩, hcheck⟩ := readFields_eq_ok_iff.mp h
    refine ⟨hcheck, fun entry hmem => ?_⟩
    rcases ok_of_optional hproperties with hnone | ⟨w, hw⟩
    · rw [hnone] at hmem
      exact absurd hmem List.not_mem_nil
    · obtain ⟨v, hv⟩ := read_of_mem_readObject hw entry hmem
      exact Property.regular_of_read hv
  all_goals cases h

end Schema

end SchemaForm
