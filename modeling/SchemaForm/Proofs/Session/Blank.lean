import SchemaForm.Proofs.Session.Received
import SchemaForm.Proofs.Validation

/-!
# Blank forms

A form that is made without data has a blank value for each property, and if the schema gives none itself,
then a blank value is one that stands for no value: nothing where a number belongs, the empty text where a
text belongs, and false for a box. A check of the form finds what is left to be filled in. It finds one more
thing: a box that is not ticked has a value all the same, and a closed choice need not list it.

* `Property.BreaksBlank` — the rules that a blank value breaks;
* `Property.violation?_blank_eq_some_iff` — they are the ones that a check finds;
* `blank_form_report` — the check of a blank form, and what becomes of its submission.
-/

namespace SchemaForm

/-! ## Blank values -/

namespace Property

variable {p : Property}

/-- The rules that a blank value of a property breaks. -/
inductive BreaksBlank (p : Property) (required : Bool) : Violation → Prop where
  /-- A value is required, and there is none yet. A box always has one. -/
  | required (htype : p.type ≠ .boolean) (hrequired : required = true) : BreaksBlank p required .required
  /-- A box is not ticked, and the choices do not list false. -/
  | notAllowed (htype : p.type = .boolean) (hclosed : p.isClosedChoice = true)
      (hlists : p.lists (.bool false) = false) : BreaksBlank p required .notAllowed

theorem blank_of_boolean (hdefault : p.default = none) (htype : p.type = .boolean) :
    p.blank = .bool false := by
  rw [blank, hdefault]
  dsimp only
  rw [htype]

/-- Only a box has a value from the start. -/
theorem isEmpty_blank (hdefault : p.default = none) (htype : p.type ≠ .boolean) :
    p.blank.isEmpty = true := by
  rw [blank, hdefault]
  dsimp only
  cases hp : p.type with
  | boolean => exact absurd hp htype
  | string => rfl
  | number => rfl
  | integer => rfl

/-- A check of a blank value finds the rule that it breaks, and no other. -/
theorem violation?_blank_eq_some_iff (hdefault : p.default = none) (required : Bool)
    {violation : Violation} :
    p.violation? required p.blank = some violation ↔ p.BreaksBlank required violation := by
  rw [violation?_eq]
  -- the blank value of a boolean property is false, which is not empty; all others are empty
  by_cases htype : p.type = .boolean
  · have hread : p.type.convert? (.bool false) = some (.bool false) := by rw [htype]; rfl
    have hfilled : ¬ (Value.bool false).isEmpty = true := Bool.false_ne_true
    rw [blank_of_boolean hdefault htype, if_neg hfilled, hread]
    dsimp only
    constructor
    · intro h
      split at h
      · next hunlisted =>
        obtain ⟨hclosed, hlists⟩ := Bool.and_eq_true_iff.mp hunlisted
        cases h
        exact .notAllowed htype hclosed (by simpa using hlists)
      · cases h
    · rintro (⟨hother, -⟩ | ⟨-, hclosed, hlists⟩)
      · exact absurd htype hother
      · rw [hclosed, hlists]
        rfl
  · rw [if_pos (isEmpty_blank hdefault htype)]
    constructor
    · intro h
      split at h
      · next hrequired =>
        cases h
        exact .required htype hrequired
      · cases h
    · rintro (⟨-, hrequired⟩ | ⟨hboolean, -, -⟩)
      · exact if_pos hrequired
      · exact absurd hboolean htype

/-- There is no number to be read in a blank value. -/
theorem coerce_blank (hdefault : p.default = none) : p.coerce p.blank = p.blank := by
  have hnumber : p.number? p.blank = none := by
    rw [blank, hdefault]
    dsimp only
    cases htype : p.type with
    | string =>
      have hnumeric : ¬ p.isNumeric = true := by
        rw [isNumeric, htype]
        exact Bool.false_ne_true
      exact if_neg hnumeric
    | number => rfl
    | integer => rfl
    | boolean => rfl
  rw [coerce, hnumber]

end Property

/-! ## Blank forms -/

namespace Schema

variable {schema : Schema}

/-- No property says which value a form starts with. -/
def WithoutDefaults (schema : Schema) : Prop := ∀ entry ∈ schema.properties.entries, entry.2.default = none

theorem WithoutDefaults.default_eq_none (h : schema.WithoutDefaults) {name : String} {p : Property}
    (hp : schema.property? name = some p) : p.default = none :=
  h (name, p) (OrderedMap.get?_eq_some_iff.mp hp)

theorem get?_initialValues_empty (schema : Schema) (name : String) :
    (schema.initialValues ∅).get? name = (schema.property? name).map Property.blank :=
  OrderedMap.get?_map _ schema.properties name

/-- A rule is broken in a blank form exactly if the blank value of a property breaks it. -/
theorem get?_violations_blank (hdefault : schema.WithoutDefaults) {name : String}
    {violation : Violation} :
    (schema.violations (schema.initialValues ∅)).get? name = some violation ↔
      ∃ p, schema.property? name = some p ∧ p.BreaksBlank (schema.isRequired name) violation := by
  rw [get?_violations, violation?, Option.bind_eq_some_iff]
  refine exists_congr fun p => and_congr_right fun hp => ?_
  rw [valueIn, get?_initialValues_empty, hp, Option.map_some, Option.getD_some]
  exact Property.violation?_blank_eq_some_iff (hdefault.default_eq_none hp) _

/-- The messages of a blank form are those of the rules that its values break. -/
theorem get?_messages_blank (hdefault : schema.WithoutDefaults) {name message : String} :
    ((schema.violations (schema.initialValues ∅)).map fun _ => Violation.message).get? name = some message ↔
      ∃ p violation, schema.property? name = some p ∧ p.BreaksBlank (schema.isRequired name) violation ∧
        violation.message = message := by
  rw [OrderedMap.get?_map, Option.map_eq_some_iff]
  simp only [get?_violations_blank hdefault]
  constructor
  · rintro ⟨violation, ⟨p, hp, hbreaks⟩, hmessage⟩
    exact ⟨p, violation, hp, hbreaks, hmessage⟩
  · rintro ⟨p, violation, hp, hbreaks, hmessage⟩
    exact ⟨violation, ⟨p, hp, hbreaks⟩, hmessage⟩

/-- A blank form is valid exactly if its values break no rule. -/
theorem accepts_blank_iff (hdefault : schema.WithoutDefaults) :
    schema.accepts (schema.initialValues ∅) = true ↔
      ∀ name p, schema.property? name = some p →
        ∀ violation, ¬ p.BreaksBlank (schema.isRequired name) violation := by
  rw [accepts_eq_isEmpty_violations, OrderedMap.isEmpty_iff]
  constructor
  · intro h name p hp violation hbreaks
    have hfound := (get?_violations_blank hdefault).mpr ⟨p, hp, hbreaks⟩
    rw [h name] at hfound
    cases hfound
  · intro h name
    rw [Option.eq_none_iff_forall_ne_some]
    intro violation hfound
    obtain ⟨p, hp, hbreaks⟩ := (get?_violations_blank hdefault).mp hfound
    exact h name p hp violation hbreaks

/-- The values of a blank form are handed on as they are. -/
theorem coerce_initialValues_empty (hdefault : schema.WithoutDefaults) :
    schema.coerce (schema.initialValues ∅) = schema.initialValues ∅ := by
  refine OrderedMap.ext_get? (keys_coerce schema _) fun name => ?_
  rw [coerce, OrderedMap.get?_map, get?_initialValues_empty]
  cases hp : schema.property? name with
  | none => rfl
  | some p =>
    rw [Option.map_some, Option.map_some, coerceValue, hp]
    exact congrArg some (Property.coerce_blank (hdefault.default_eq_none hp))

end Schema

namespace Session

/-- **A blank form breaks the rules of what has to be filled in, and of a choice that does not list false.**
If no property of the schema has a default, then a check of a form without data finds these violations at
these properties, and no others. The form is valid exactly if there are none; then its first submission
gives the handler its blank values, and otherwise the handler is not called. -/
theorem blank_form_report (settings : Settings) (schema : Schema) (hdefault : schema.WithoutDefaults)
    (layout? : Option Layout) (options : FormOptions) (event : Bool) (handler : Reaction Command) :
    let form := Form.ofSchema settings schema layout? { options with data := ∅, takesSubmissions := true }
    (∀ name message,
      ((schema.violations form.store.initial).map fun _ => Violation.message).get? name = some message ↔
        ∃ p violation, schema.property? name = some p ∧ p.BreaksBlank (schema.isRequired name) violation ∧
          violation.message = message) ∧
    (form.store.valid = true ↔
      ∀ name p, schema.property? name = some p →
        ∀ violation, ¬ p.BreaksBlank (schema.isRequired name) violation) ∧
    ∃ found, (run form [.submit event handler]).1 = [found] ∧
      (form.store.valid = true → [form.store.initial] <+: found.received) ∧
      (form.store.valid = false → found.received = [] ∧ found.result = .ok (answer event false)) := by
  intro form
  refine ⟨fun _ _ => Schema.get?_messages_blank hdefault, Schema.accepts_blank_iff hdefault, ?_⟩
  obtain ⟨found, hrun, hpasses, hbroken⟩ := run_submit form rfl rfl event handler
  have hvalid : form.store.valid = (State.ofForm form).passes := schema.accepts_eq_isEmpty_violations _
  have hcoerced : (State.ofForm form).coerced = form.store.initial :=
    Schema.coerce_initialValues_empty hdefault
  refine ⟨found, hrun, fun h => ?_, fun h => ?_⟩
  · rw [← hcoerced]
    exact hpasses (hvalid ▸ h)
  · obtain ⟨hreceived, hresult, -⟩ := hbroken (hvalid ▸ h)
    exact ⟨hreceived, hresult⟩

/-- A form in which everything may be left blank but a box. -/
theorem blank_form_report_optional :
    let schema : Schema :=
      { title := none, description := none, required := ["hazardous"]
        properties := .ofList
          [("origin", {}), ("quantity", { type := .integer }), ("hazardous", { type := .boolean })] }
    let form := Form.ofSchema {} schema none { takesSubmissions := true }
    schema.WithoutDefaults ∧ form.store.valid = true ∧
      ∃ found, (run form [.submit false {}]).1 = [found] ∧ [form.store.initial] <+: found.received := by
  intro schema form
  have hdefault : schema.WithoutDefaults := by
    rw [Schema.WithoutDefaults]
    decide
  have hvalid : form.store.valid = true := by decide
  obtain ⟨-, -, found, hrun, hreceived, -⟩ := blank_form_report {} schema hdefault none {} false {}
  exact ⟨hdefault, hvalid, found, hrun, hreceived hvalid⟩

/-- Nothing is required here, but the one choice of the box is to tick it. -/
theorem unticked_box_refused :
    let schema : Schema :=
      { title := none, description := none, required := []
        properties := .ofList [("accepted", { type := .boolean, enum := some [.bool true] })] }
    let form := Form.ofSchema {} schema none { takesSubmissions := true }
    schema.WithoutDefaults ∧
      (¬ ∀ name message,
        ((schema.violations form.store.initial).map fun _ => Violation.message).get? name = some message ↔
          ∃ p, schema.property? name = some p ∧ p.type ≠ .boolean ∧ schema.isRequired name = true ∧
            message = Violation.required.message) ∧
      form.store.valid = false ∧
      (run form [.submit false {}]).1.map Report.received = [[]] := by
  intro schema form
  refine ⟨?_, fun h => ?_, by decide, by rfl⟩
  · rw [Schema.WithoutDefaults]
    decide
  · have hmessage : ((schema.violations form.store.initial).map fun _ => Violation.message).get? "accepted" =
        some Violation.notAllowed.message := by decide
    obtain ⟨p, -, -, hrequired, -⟩ := (h "accepted" _).mp hmessage
    exact absurd hrequired Bool.false_ne_true

end Session

end SchemaForm
