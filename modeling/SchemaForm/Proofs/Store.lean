import SchemaForm.Store
import SchemaForm.Proofs.OrderedMap

/-!
# What the operations on a store keep

`errors` are not computed from the values: `set_value` and `validate_field` write one of them, `validate_form`
and `reset` replace all, and the other methods leave them alone. What `is_valid` answers is written apart from
them. This module says what holds of the two after any operation.

* `Store.isTouched_apply_iff` — which operations forget that a name was touched;
* `Store.Consistent` — there is one value for each property, the note says whether the values break a
  rule, and every violation that is written down is the one that the value of its property has now. Every
  operation keeps it;
* `Store.Complete` — no violation is missing. A check of the whole form brings it about, and every
  operation but a reset keeps it.
-/

namespace SchemaForm

/-! ## Violations of whole forms -/

namespace Schema

variable {s : Schema} {name : String}

/-- Only a declared property has rules. -/
theorem mem_names_of_violation? {v : Value} {violation : Violation}
    (h : s.violation? name v = some violation) : name ∈ s.names := by
  obtain ⟨p, hp, -⟩ := Option.bind_eq_some_iff.mp h
  have hsome : (s.properties.get? name).isSome := Option.isSome_of_eq_some hp
  exact OrderedMap.mem_keys_iff.mpr hsome

theorem violation?_of_not_mem {v : Value} (h : name ∉ s.names) : s.violation? name v = none := by
  cases hv : s.violation? name v with
  | none => rfl
  | some violation => exact absurd (mem_names_of_violation? hv) h

/-- The two checks of a whole form agree: the one that stops at the first broken rule, and the one that
collects them all. -/
theorem accepts_eq_isEmpty_violations (s : Schema) (values : OrderedMap Value) :
    s.accepts values = (s.violations values).isEmpty := by
  have haccepts : s.accepts values = true ↔
      ∀ name ∈ s.names, s.violation? name (valueIn values name) = none := by
    rw [accepts, List.all_eq_true]
    exact forall₂_congr fun _ _ => Option.isNone_iff_eq_none
  rw [Bool.eq_iff_iff, haccepts, OrderedMap.isEmpty_iff]
  constructor
  · intro h name
    rw [get?_violations]
    by_cases hmem : name ∈ s.names
    · exact h name hmem
    · exact violation?_of_not_mem hmem
  · intro h name _
    rw [← get?_violations]
    exact h name

theorem contains_iff_mem_names : s.properties.contains name = true ↔ name ∈ s.names :=
  OrderedMap.contains_iff

end Schema

namespace Store

variable {s : Store} {name : String}

/-! ## Single operations -/

/-- No operation changes the schema. -/
@[simp] theorem schema_apply (s : Store) (operation : Operation) :
    (s.apply operation).store.schema = s.schema := by
  cases operation with
  | setValue name v => rw [apply, setValue]; split <;> rfl
  | setTouched name => rw [apply, setTouched]; split <;> rfl
  | validateField name => rw [apply, validateField]; split <;> rfl
  | validateForm => rfl
  | reset => rfl
  | setSubmitting flag => rw [apply, setSubmitting]; split <;> rfl

/-- No operation changes the values that a form goes back to. -/
@[simp] theorem initial_apply (s : Store) (operation : Operation) :
    (s.apply operation).store.initial = s.initial := by
  cases operation with
  | setValue name v => rw [apply, setValue]; split <;> rfl
  | setTouched name => rw [apply, setTouched]; split <;> rfl
  | validateField name => rw [apply, validateField]; split <;> rfl
  | validateForm => rfl
  | reset => rfl
  | setSubmitting flag => rw [apply, setSubmitting]; split <;> rfl

/-- Only one operation has to do with submissions. -/
theorem submitting_apply (s : Store) {operation : Operation}
    (h : ∀ flag, operation ≠ .setSubmitting flag) :
    (s.apply operation).store.submitting = s.submitting := by
  cases operation with
  | setValue name v => rw [apply, setValue]; split <;> rfl
  | setTouched name => rw [apply, setTouched]; split <;> rfl
  | validateField name => rw [apply, validateField]; split <;> rfl
  | validateForm => rfl
  | reset => rfl
  | setSubmitting flag => exact absurd rfl (h flag)

@[simp] theorem store_setSubmitting (s : Store) (flag : Bool) :
    (s.setSubmitting flag).store = { s with submitting := flag } := by
  rw [setSubmitting]
  split
  · next h => rw [← h]
  · rfl

/-- Only the name that is written to changes its violation. -/
theorem get?_errors_withError (s : Store) (name other : String) (found : Option Violation) :
    (s.withError name found).errors.get? other =
      if other = name then found else s.errors.get? other := by
  cases found with
  | none => exact OrderedMap.get?_erase s.errors name other
  | some violation => exact OrderedMap.get?_insert s.errors name other violation

/-- The violation that the value of a name has now. -/
def violation? (s : Store) (name : String) : Option Violation := s.schema.violation? name (s.value name)

theorem violation?_eq_get?_violations (s : Store) (name : String) :
    s.violation? name = (s.schema.violations s.values).get? name := Schema.get?_violations.symm

/-- The store after a value was written and its property was checked. -/
def written (s : Store) (name : String) (v : Value) : Store :=
  { s with values := s.values.insert name v, valid := s.schema.accepts (s.values.insert name v) }
    |>.withError name (s.schema.violation? name v)

/-- The store after the property of a name was checked. -/
def checked (s : Store) (name : String) : Store := s.withError name (s.violation? name)

theorem store_setValue (h : name ∈ s.schema.names) (v : Value) :
    (s.setValue name v).store = s.written name v := by
  rw [setValue, if_pos (Schema.contains_iff_mem_names.mpr h)]
  rfl

theorem store_setValue_of_not_mem (h : name ∉ s.schema.names) (v : Value) :
    (s.setValue name v).store = s := by
  rw [setValue, if_neg (mt Schema.contains_iff_mem_names.mp h)]

theorem store_validateField (h : name ∈ s.schema.names) :
    (s.validateField name).store = s.checked name := by
  rw [validateField, if_pos (Schema.contains_iff_mem_names.mpr h)]
  rfl

theorem store_validateField_of_not_mem (h : name ∉ s.schema.names) :
    (s.validateField name).store = s := by
  rw [validateField, if_neg (mt Schema.contains_iff_mem_names.mp h)]

/-- Writing a value changes the verdict on its own property alone. -/
theorem violation?_written (s : Store) (name other : String) (v : Value) :
    (s.written name v).violation? other =
      if other = name then s.schema.violation? name v else s.violation? other := by
  have hget : (s.values.insert name v).get? other =
      if other = name then some v else s.values.get? other :=
    OrderedMap.get?_insert s.values name other v
  show s.schema.violation? other (((s.values.insert name v).get? other).getD .null) = _
  rw [hget]
  by_cases hname : other = name
  · rw [if_pos hname, if_pos hname, hname]
    rfl
  · rw [if_neg hname, if_neg hname]
    rfl

theorem get?_errors_written (s : Store) (name other : String) (v : Value) :
    (s.written name v).errors.get? other =
      if other = name then s.schema.violation? name v else s.errors.get? other :=
  get?_errors_withError _ name other _

theorem get?_errors_checked (s : Store) (name other : String) :
    (s.checked name).errors.get? other =
      if other = name then s.violation? name else s.errors.get? other :=
  get?_errors_withError s name other _

theorem violation?_checked (s : Store) (name other : String) :
    (s.checked name).violation? other = s.violation? other := rfl

/-- Nothing but a reset and a check of the whole form forgets that a name was touched, and a check forgets
only names that are not declared. -/
theorem isTouched_apply_iff (h : s.isTouched name = true) {operation : Operation}
    (hreset : operation ≠ .reset) :
    (s.apply operation).store.isTouched name = true ↔
      (operation = .validateForm → name ∈ s.schema.names) := by
  cases operation with
  | setValue other v => rw [apply, setValue]; split <;> exact iff_of_true h nofun
  | setTouched other =>
    have hmem : name ∈ s.touched := List.contains_iff_mem.mp h
    rw [apply, setTouched]
    split
    · exact iff_of_true h nofun
    · exact iff_of_true (List.contains_iff_mem.mpr (List.mem_append_left _ hmem)) nofun
  | validateField other => rw [apply, validateField]; split <;> exact iff_of_true h nofun
  | validateForm =>
    have hnames : (s.apply .validateForm).store.isTouched name = true ↔ name ∈ s.schema.names :=
      List.contains_iff_mem
    simpa using hnames
  | reset => exact absurd rfl hreset
  | setSubmitting flag => rw [apply, setSubmitting]; split <;> exact iff_of_true h nofun

/-! ## Consistency -/

/-- What holds of a store at any time. -/
structure Consistent (s : Store) : Prop where
  keys_values : s.values.keys = s.schema.names
  keys_initial : s.initial.keys = s.schema.names
  valid_eq : s.valid = s.schema.accepts s.values
  /-- No violation is stale. -/
  current : ∀ {name violation}, s.errors.get? name = some violation → s.violation? name = some violation

theorem consistent_ofData (schema : Schema) (data : OrderedMap Value) :
    (ofData schema data).Consistent where
  keys_values := schema.keys_initialValues data
  keys_initial := schema.keys_initialValues data
  valid_eq := rfl
  current h := absurd h (Option.some_ne_none _).symm

namespace Consistent

/-- `set_value` keeps the invariant. -/
theorem written (h : s.Consistent) (hname : name ∈ s.schema.names) (v : Value) :
    (s.written name v).Consistent where
  keys_values := by
    have hmem : name ∈ s.values.keys := h.keys_values ▸ hname
    exact (OrderedMap.keys_insert_of_mem hmem).trans h.keys_values
  keys_initial := h.keys_initial
  valid_eq := rfl
  current := by
    intro other violation hfound
    rw [get?_errors_written] at hfound
    rw [violation?_written]
    by_cases hother : other = name
    · rwa [if_pos hother] at hfound ⊢
    · rw [if_neg hother] at hfound ⊢
      exact h.current hfound

/-- `validate_field` keeps the invariant. -/
theorem checked (h : s.Consistent) (name : String) : (s.checked name).Consistent where
  keys_values := h.keys_values
  keys_initial := h.keys_initial
  valid_eq := h.valid_eq
  current := by
    intro other violation hfound
    rw [get?_errors_checked] at hfound
    rw [violation?_checked]
    by_cases hother : other = name
    · rwa [if_pos hother, ← hother] at hfound
    · rw [if_neg hother] at hfound
      exact h.current hfound

/-- Every operation keeps a store consistent, also one on a name that is not declared. -/
theorem apply (h : s.Consistent) (operation : Operation) : (s.apply operation).store.Consistent := by
  cases operation with
  | setValue name v =>
    by_cases hname : name ∈ s.schema.names
    · exact store_setValue hname v ▸ h.written hname v
    · exact (store_setValue_of_not_mem hname v).symm ▸ h
  | setTouched name =>
    rw [Store.apply, setTouched]
    split
    · exact h
    · exact ⟨h.keys_values, h.keys_initial, h.valid_eq, h.current⟩
  | validateField name =>
    by_cases hname : name ∈ s.schema.names
    · exact store_validateField hname ▸ h.checked name
    · exact (store_validateField_of_not_mem hname).symm ▸ h
  | validateForm =>
    refine ⟨h.keys_values, h.keys_initial, h.valid_eq, fun {name violation} hfound => ?_⟩
    exact (violation?_eq_get?_violations s name).trans hfound
  | reset =>
    refine ⟨h.keys_initial, h.keys_initial, rfl, fun {name violation} hfound => ?_⟩
    exact absurd hfound (Option.some_ne_none _).symm
  | setSubmitting flag =>
    rw [Store.apply, setSubmitting]
    split
    · exact h
    · exact ⟨h.keys_values, h.keys_initial, h.valid_eq, h.current⟩

/-- A message names a property, and is what a check of the value that this property has now says. -/
theorem message_current (h : s.Consistent) {message : String}
    (hmessage : s.messages.get? name = some message) :
    name ∈ s.schema.names ∧ (s.violation? name).map Violation.message = some message := by
  rw [messages, OrderedMap.get?_map] at hmessage
  obtain ⟨violation, hfound, rfl⟩ := Option.map_eq_some_iff.mp hmessage
  have hcurrent := h.current hfound
  exact ⟨Schema.mem_names_of_violation? hcurrent, congrArg (Option.map Violation.message) hcurrent⟩

theorem valid_eq_isEmpty (h : s.Consistent) : s.valid = (s.schema.violations s.values).isEmpty :=
  h.valid_eq.trans (s.schema.accepts_eq_isEmpty_violations s.values)

/-- A form that is valid shows no message. -/
theorem isEmpty_errors (h : s.Consistent) (hvalid : s.valid = true) : s.errors.isEmpty = true := by
  have hnone : ∀ name, s.violation? name = none := by
    intro name
    rw [h.valid_eq_isEmpty, OrderedMap.isEmpty_iff] at hvalid
    rw [violation?_eq_get?_violations]
    exact hvalid name
  rw [OrderedMap.isEmpty_iff]
  intro name
  cases hfound : s.errors.get? name with
  | none => rfl
  -- what is written down is current, but no rule is broken now
  | some violation => exact absurd ((h.current hfound).symm.trans (hnone name)) (Option.some_ne_none _)

theorem isEmpty_messages (h : s.Consistent) (hvalid : s.valid = true) : s.messages.isEmpty = true := by
  rw [messages, OrderedMap.isEmpty_map]
  exact h.isEmpty_errors hvalid

/-- What a check of the whole form finds is what was noted all the time. -/
theorem isEmpty_errors_validateForm (h : s.Consistent) : s.validateForm.store.errors.isEmpty = s.valid :=
  h.valid_eq_isEmpty.symm

end Consistent

/-! ## Completeness -/

/-- The violations that are written down are those of the values. -/
def Complete (s : Store) : Prop := ∀ name, s.errors.get? name = s.violation? name

theorem complete_validateForm (s : Store) : s.validateForm.store.Complete :=
  fun name => (violation?_eq_get?_violations s name).symm

namespace Complete

theorem written (h : s.Complete) (name : String) (v : Value) : (s.written name v).Complete := by
  intro other
  rw [get?_errors_written, violation?_written, h other]

theorem checked (h : s.Complete) (name : String) : (s.checked name).Complete := by
  intro other
  rw [get?_errors_checked, violation?_checked, h other]
  split
  · next hother => rw [hother]
  · rfl

/-- Only a reset makes violations go that the values still have. -/
theorem apply (h : s.Complete) {operation : Operation} (hreset : operation ≠ .reset) :
    (s.apply operation).store.Complete := by
  cases operation with
  | setValue name v =>
    by_cases hname : name ∈ s.schema.names
    · exact store_setValue hname v ▸ h.written name v
    · exact (store_setValue_of_not_mem hname v).symm ▸ h
  | setTouched name => rw [Store.apply, setTouched]; split <;> exact h
  | validateField name =>
    by_cases hname : name ∈ s.schema.names
    · exact store_validateField hname ▸ h.checked name
    · exact (store_validateField_of_not_mem hname).symm ▸ h
  | validateForm => exact s.complete_validateForm
  | reset => exact absurd rfl hreset
  | setSubmitting flag => rw [Store.apply, setSubmitting]; split <;> exact h

/-- All messages are there, and they are those of a check of the whole form. -/
theorem get?_messages (h : s.Complete) (name : String) :
    s.messages.get? name = ((s.schema.violations s.values).get? name).map Violation.message := by
  rw [messages, OrderedMap.get?_map, h name, violation?_eq_get?_violations]

end Complete

end Store

end SchemaForm
