import SchemaForm.Proofs.Store.Edits
import SchemaForm.Proofs.View.Export

/-!
# Definitions that are exported and imported again

A definition is written by `to_command_set` and read again by `from_payload`, and what is read is not always the
same: empty texts and null hints are gone, and a layout is there even if none was given. A user does not see
the difference.

* `Definition.exported` — what is left of a definition;
* `Definition.ofPayload_toValue`, `Definition.noNullChoice_of_ofPayload` — what was read can be read again
  exactly if null is none of the labelled choices;
* `Definition.Alike` — two definitions of which the same forms are made;
* `Definition.reimport_of_payload` — a definition that is imported again is alike.
-/

namespace SchemaForm

open Entries

/-! ## Reading -/

namespace Definition

variable {d e : Definition} {payload : Value}

/-- What holds of a definition that was read. -/
structure Regular (d : Definition) : Prop where
  schema : d.schema.Regular
  layout : d.layout.Regular

theorem readFields_eq_ok_iff {members : List (String × Value)} :
    readFields members = .ok d ↔
      optional ["formId", "form_id"] defaultId readText members = .ok d.id ∧
        nullable ["title"] readText members = .ok d.title ∧
        required ["jsonSchema", "json_schema"] Schema.read members = .ok d.schema ∧
        nullable ["uiSchema", "ui_schema"] Layout.read members = .ok d.layout? ∧
        nullable ["formData", "form_data"] (readObject readAny) members = .ok d.data? := by
  obtain ⟨id, title, schema, layout?, data?⟩ := d
  rw [Checked.eq_ok_iff_exists]
  simp only [readFields, Checked.map_eq, Checked.seq_eq, Checked.exists_apply, Checked.exists_map]
  grind

theorem regular_of_readFields {members : List (String × Value)} (h : readFields members = .ok d) :
    d.Regular := by
  obtain ⟨-, -, hschema, hlayout, -⟩ := readFields_eq_ok_iff.mp h
  obtain ⟨v, hv⟩ := ok_of_required hschema
  refine ⟨Schema.regular_of_read hv, ?_⟩
  rw [layout]
  cases hd : d.layout? with
  | none => exact Layout.regular_default _
  | some layout =>
    rw [hd] at hlayout
    obtain ⟨w, -, hw⟩ := ok_of_nullable hlayout
    exact Layout.regular_of_read hw

/-- A payload is read by way of its flat shape. -/
theorem ofPayload_eq_ok_iff {members : List (String × Value)} :
    ofPayload (.object members) = .ok d ↔ ∃ flat, flatten members = .ok flat ∧ readFields flat = .ok d := by
  have hread : ∀ flat, (readFields flat).toExcept.mapError Fault.invalid = .ok d ↔
      readFields flat = .ok d := by
    intro flat
    cases readFields flat with
    | ok other =>
      constructor
      · exact fun h => congrArg Checked.ok (Except.ok.inj h)
      · intro h
        cases h
        rfl
    | bad issues => constructor <;> intro h <;> cases h
  rw [ofPayload]
  cases flatten members with
  | error fault => simp [bind, Except.bind]
  | ok flat => simpa [bind, Except.bind] using hread flat

theorem regular_of_ofPayload (h : ofPayload payload = .ok d) : d.Regular := by
  cases payload
  case object members =>
    obtain ⟨flat, -, hread⟩ := ofPayload_eq_ok_iff.mp h
    exact regular_of_readFields hread
  all_goals cases h

/-! ## Export and import -/

/-- What is left of a definition when it is written. -/
def exported (d : Definition) : Definition :=
  { id := d.id
    title := d.displayTitle
    schema := d.schema.exported
    layout? := some d.layout.exported
    data? := d.data? }

/-- The members of a definition. -/
def members (d : Definition) : List (String × Value) :=
  [("formId", .text d.id), ("title", .ofOption .text d.displayTitle), ("jsonSchema", d.schema.toValue),
    ("uiSchema", d.layout.toValue)] ++
      match d.data? with
      | some data => [("formData", .object data.entries)]
      | none => []

theorem flatten_members (d : Definition) : flatten d.members = .ok d.members := by
  have hcontent : get? "content" d.members = none := by
    rw [members, get?_append]
    cases d.data? <;> rfl
  rw [flatten, hcontent]

theorem ofPayload_toValue_eq_ok_iff : ofPayload d.toValue = .ok e ↔ readFields d.members = .ok e := by
  show ofPayload (.object d.members) = .ok e ↔ _
  rw [ofPayload_eq_ok_iff, flatten_members]
  simp

theorem found_schema (d : Definition) :
    found "jsonSchema" d.members = d.schema.toValue := rfl

theorem found_data (d : Definition) :
    found "formData" d.members = .ofOption (fun data => .object data.entries) d.data? := by
  rw [found, members, get?_append]
  cases d.data? <;> rfl

/-- A definition that was read is written as what is left of it. -/
theorem ofPayload_toValue (hd : d.Regular) (hchoice : d.schema.NoNullChoice) :
    ofPayload d.toValue = .ok d.exported := by
  have hid : found "formId" d.members = .text d.id := rfl
  have htitle : found "title" d.members = .ofOption .text d.displayTitle := rfl
  have hlayout : found "uiSchema" d.members =
      .ofOption Layout.toValue (some d.layout) := rfl
  have halias : ∀ name ∈ ["ui_schema", "form_data"], get? name d.members = none := by
    intro name hmem
    simp only [List.mem_cons, List.not_mem_nil, or_false] at hmem
    rw [members, get?_append]
    rcases hmem with rfl | rfl <;> cases d.data? <;> rfl
  have hschema : Schema.read d.schema.toValue = .ok d.schema.exported :=
    Schema.read_toValue hd.schema hchoice
  have hread : nullable ["uiSchema", "ui_schema"] Layout.read d.members = .ok (some d.layout.exported) :=
    nullable_map_of_found hlayout (by simpa using halias "ui_schema" (by simp))
      (fun layout hmem => by
        cases hmem
        exact Layout.read_toValue hd.layout)
      (fun layout _ => Layout.toValue_ne_null layout)
  have hdata : nullable ["formData", "form_data"] (readObject readAny) d.members = .ok d.data? :=
    nullable_of_found d.found_data (by simpa using halias "form_data" (by simp))
      (fun data _ => readObject_readAny data) (by simp)
  rw [ofPayload_toValue_eq_ok_iff, readFields_eq_ok_iff, optional_eq_under hid (by simp),
    required_of_found d.found_schema d.schema.toValue_ne_null, hschema]
  exact ⟨rfl, nullable_text_of_found htitle (by simp), rfl, hread, hdata⟩

theorem noNullChoice_of_ofPayload (h : ofPayload d.toValue = .ok e) : d.schema.NoNullChoice := by
  rw [ofPayload_toValue_eq_ok_iff, readFields_eq_ok_iff] at h
  obtain ⟨-, -, hschema, -⟩ := h
  rw [required_of_found d.found_schema d.schema.toValue_ne_null, Checked.under_eq_ok_iff] at hschema
  exact Schema.noNullChoice_of_read hschema

end Definition

/-! ## What is seen of a form -/

namespace Store

/-- The same state for what is left of the schema. -/
def exported (s : Store) : Store := { s with schema := s.schema.exported }

/-- No operation looks at the texts of the schema. -/
theorem apply_exported (s : Store) (operation : Operation) :
    (s.exported.apply operation).store = (s.apply operation).store.exported := by
  cases operation with
  | setValue name v =>
    show (if s.schema.properties.contains name then _ else _ : Change).store =
      (if s.schema.properties.contains name then _ else _ : Change).store.exported
    split <;> rfl
  | setTouched name =>
    show (if s.isTouched name then _ else _ : Change).store =
      (if s.isTouched name then _ else _ : Change).store.exported
    split <;> rfl
  | validateField name =>
    show (if s.schema.properties.contains name then _ else _ : Change).store =
      (if s.schema.properties.contains name then _ else _ : Change).store.exported
    split <;> rfl
  | validateForm => rfl
  | reset => rfl
  | setSubmitting flag => rw [apply, apply, store_setSubmitting, store_setSubmitting]; rfl

theorem applyAll_exported (s : Store) (operations : List Operation) :
    s.exported.applyAll operations = (s.applyAll operations).exported := by
  induction operations generalizing s with
  | nil => rfl
  | cons operation rest ih => rw [applyAll, apply_exported, ih, applyAll]

end Store

namespace Form

/-- The form after operations on its state. -/
def after (f : Form) (operations : List Store.Operation) : Form :=
  f.withStore (f.store.applyAll operations)

/-- The HTML of what the form shows now. -/
def html (f : Form) : Except MissingFallback (Except Html.Failure String) := View.toHtml <$> f.view

/-- What is left of a form, with another title. -/
def exported (f : Form) (title : Option String) : Form :=
  { f with title, layout := f.layout.exported, store := f.store.exported }

/-- A title that is empty is no title. -/
theorem html_exported {f : Form} (h : f.registry.IgnoresNull) {title : Option String}
    (htitle : title.filter (· != "") = f.title.filter (· != "")) :
    (f.exported title).html = f.html := by
  have hheading : (f.exported title).heading = f.heading := by
    rw [heading, heading, ← htitle]
    rfl
  have hbody : View.markup <$> f.context.exported.view f.layout.exported =
      View.markup <$> f.context.view f.layout := Context.markup_view_exported (c := f.context) h f.layout
  have hhtml : ∀ g : Form, g.html =
      (fun body => View.toHtml (.form g.heading body (g.actions.map g.button))) <$>
        g.context.view g.layout := by
    intro g
    rw [html, view]
    cases g.context.view g.layout <;> rfl
  rw [hhtml, hhtml, hheading]
  rcases map_eq_map_iff.mp hbody with ⟨missing, hx, hy⟩ | ⟨body, other, hx, hy, hmarkup⟩
  · rw [hy]
    show _ <$> f.context.exported.view f.layout.exported = _
    rw [hx]
    rfl
  · rw [hy]
    show _ <$> f.context.exported.view f.layout.exported = _
    rw [hx]
    show Except.ok (View.toHtml _) = Except.ok (View.toHtml _)
    rw [View.toHtml, View.markup_form_congr hmarkup]
    rfl

end Form

namespace Definition

variable {d e : Definition} {payload : Value}

/-- The form of a definition. A host may bring other data, and says what a definition does not. -/
def formOf (d : Definition) (settings : Settings) (host : FormOptions)
    (data? : Option (OrderedMap Value)) : Form :=
  d.form settings { host with data := data?.getD d.options.data, title := d.options.title }

/-- The same forms are made of both definitions: they start with the same values, find the same values
wrong, and look the same all the time, as long as no widget of a host looks for hints that are null. -/
structure Alike (d e : Definition) : Prop where
  id : e.id = d.id
  values : ∀ settings host data?,
    (e.formOf settings host data?).store.values = (d.formOf settings host data?).store.values
  violations : ∀ values, e.schema.violations values = d.schema.violations values
  html : ∀ settings (host : FormOptions) data? operations, host.registry.IgnoresNull →
    ((e.formOf settings host data?).after operations).html =
      ((d.formOf settings host data?).after operations).html

theorem filter_orElseText (first second : Option String) :
    (orElseText first second).filter (· != "") =
      (first.filter (· != "")).or (second.filter (· != "")) := by
  cases hfirst : first.filter (· != "") with
  | none => rw [orElseText, hfirst, Option.none_or]
  | some text =>
    have htext : (some text).filter (· != "") = some text := by
      rw [← hfirst, Option.filter_filter]
      simp
    rw [orElseText, hfirst, Option.some_or]
    exact htext

theorem displayTitle_eq (d : Definition) : d.displayTitle = orElseText d.title d.schema.title := rfl

/-- The same forms are made of a definition and of what is left of it when it is written. -/
theorem alike_exported (d : Definition) : d.Alike d.exported where
  id := rfl
  values _ _ _ := rfl
  violations _ := rfl
  html settings host data? operations h := by
    have hforms : (d.exported.formOf settings host data?).after operations =
        ((d.formOf settings host data?).after operations).exported
          (orElseText d.exported.displayTitle d.schema.exported.title) := by
      have hstore := Store.applyAll_exported (d.formOf settings host data?).store operations
      exact congrArg ((d.exported.formOf settings host data?).withStore) hstore
    rw [hforms]
    refine Form.html_exported h ?_
    show _ = (orElseText d.displayTitle d.schema.title).filter _
    simp only [filter_orElseText, displayTitle_eq, exported, Schema.exported, Option.filter_filter,
      Bool.and_self]
    cases d.title.filter (· != "") <;> cases d.schema.title.filter (· != "") <;> rfl

/-- **A definition that was exported can be imported again, unless null is one of its labelled choices.**
What is imported is alike. -/
theorem reimport_of_payload (h : ofPayload payload = .ok d) :
    ((∃ e, ofPayload d.toValue = .ok e) ↔ d.schema.NoNullChoice) ∧
      ∀ e, ofPayload d.toValue = .ok e → d.Alike e := by
  have hd := regular_of_ofPayload h
  constructor
  · constructor
    · rintro ⟨e, he⟩
      exact noNullChoice_of_ofPayload he
    · intro hchoice
      exact ⟨_, ofPayload_toValue hd hchoice⟩
  · intro e he
    rw [ofPayload_toValue hd (noNullChoice_of_ofPayload he)] at he
    cases he
    exact d.alike_exported

/-- A definition with an empty title and a hint that is null. -/
def shipmentPayload : Value :=
  .object
    [("formId", .text "shipment"),
      ("content", .object
        [("schema", .object
          [("title", .text ""),
            ("properties", .object
              [("origin", .object
                [("oneOf", .list [.object [("value", .text "AU"), ("label", .text "Australia")]])])]),
            ("required", .list [.text "origin"])]),
          ("uischema", .object
            [("type", .text "Group"), ("label", .text "Goods"),
              ("elements", .list [.object
                [("type", .text "Control"), ("scope", .text "#/properties/origin"),
                  ("options", .object [("hint", .null)])]])])])]

theorem reimport_of_payload_shipment :
    ∃ d e, ofPayload shipmentPayload = .ok d ∧ ofPayload d.toValue = .ok e ∧ d.schema.NoNullChoice ∧
      d.schema.title = some "" ∧ e.schema.title = none ∧ e.id = "shipment" ∧
      (∀ values, e.schema.violations values = d.schema.violations values) ∧
      ((e.formOf {} {} none).after [.validateForm]).html =
        ((d.formOf {} {} none).after [.validateForm]).html := by
  obtain ⟨d, hd, e, he, hid, htitle, htitle'⟩ : ∃ d, ofPayload shipmentPayload = .ok d ∧
      ∃ e, ofPayload d.toValue = .ok e ∧ d.id = "shipment" ∧ d.schema.title = some "" ∧
        e.schema.title = none :=
    ⟨_, rfl, _, rfl, rfl, rfl, rfl⟩
  obtain ⟨hiff, halike⟩ := reimport_of_payload hd
  have h := halike e he
  exact ⟨d, e, hd, he, hiff.mp ⟨e, he⟩, htitle, htitle', h.id.trans hid, h.violations,
    h.html {} {} none [.validateForm] Registry.ignoresNull_standard⟩

/-- A definition in which null is a labelled choice. -/
def originPayload : Value :=
  .object
    [("jsonSchema", .object
      [("properties", .object
        [("origin", .object
          [("oneOf", .list
            [.object [("const", .null), ("title", .text "None")],
              .object [("const", .text "AU")]])])])])]

/-- It is exported without the value of that choice, and what is exported is no definition. -/
theorem null_choice_not_reimported :
    ∃ d, ofPayload originPayload = .ok d ∧
      ofPayload d.toValue = .error (.invalid
        [⟨[.field "jsonSchema", .field "properties", .field "origin", .field "oneOf", .index 0,
          .field "const"], .missing⟩]) :=
  ⟨_, rfl, rfl⟩

end Definition

end SchemaForm
