import SchemaForm.Proofs.Store
import SchemaForm.Proofs.View.Rendering

/-!
# Edits

`set_value`, `set_touched`, `validate_field` and `validate_form` are called in any order and as often as the user
likes. What is left of all that is little: the value that was written last to each property, and whether
`validate_form` was among the calls.

* `Store.applyAll` — operations one after the other; `Store.lastWrite?` — the value that counts;
* `Store.Exposed` — every violation is written down and every property is touched. A check of the whole
  form brings it about, and edits keep it;
* `Store.Agrees` — two stores in which all that is seen of a form is the same;
* `Store.agrees_applyAll` — two runs of edits with the same last writes lead to such stores.
-/

namespace SchemaForm

namespace Store

variable {s t : Store} {name : String}

/-! ## Runs -/

namespace Operation

/-- Whether the operation is one by which a form is filled in. It neither goes back to the initial values
nor has to do with submissions. -/
def isEdit : Operation → Bool
  | .setValue .. => true
  | .setTouched _ => true
  | .validateField _ => true
  | .validateForm => true
  | .reset => false
  | .setSubmitting _ => false

/-- The value that the operation writes to a name. -/
def write? (name : String) : Operation → Option Value
  | .setValue other v => if other = name then some v else none
  | _ => none

theorem ne_reset_of_isEdit {operation : Operation} (h : operation.isEdit = true) :
    operation ≠ .reset := by
  rintro rfl
  cases h

theorem ne_setSubmitting_of_isEdit {operation : Operation} (h : operation.isEdit = true) (flag : Bool) :
    operation ≠ .setSubmitting flag := by
  rintro rfl
  cases h

end Operation

/-- The store after operations that follow each other. -/
def applyAll (s : Store) : List Operation → Store
  | [] => s
  | operation :: rest => applyAll (s.apply operation).store rest

/-- The value that is written last to a name, if any is. -/
def lastWrite? (name : String) : List Operation → Option Value
  | [] => none
  | operation :: rest => (lastWrite? name rest).or (operation.write? name)

theorem applyAll_append (s : Store) (operations others : List Operation) :
    s.applyAll (operations ++ others) = (s.applyAll operations).applyAll others := by
  induction operations generalizing s with
  | nil => rfl
  | cons operation rest ih => exact ih _

/-- What every operation of a run keeps, the run keeps. -/
theorem applyAll_induction {P : Store → Prop} {operations : List Operation}
    (hstep : ∀ operation ∈ operations, ∀ store, P store → P (store.apply operation).store) (hs : P s) :
    P (s.applyAll operations) := by
  induction operations generalizing s with
  | nil => exact hs
  | cons operation rest ih =>
    refine ih (fun other hmem => hstep other (List.mem_cons_of_mem _ hmem)) ?_
    exact hstep operation (List.mem_cons_self ..) s hs

theorem schema_applyAll (s : Store) (operations : List Operation) :
    (s.applyAll operations).schema = s.schema :=
  applyAll_induction (P := fun store => store.schema = s.schema)
    (fun operation _ store h => (store.schema_apply operation).trans h) rfl

theorem Consistent.applyAll (h : s.Consistent) (operations : List Operation) :
    (s.applyAll operations).Consistent :=
  applyAll_induction (fun operation _ _ hstore => hstore.apply operation) h

theorem submitting_applyAll {operations : List Operation}
    (hedits : ∀ operation ∈ operations, operation.isEdit = true) :
    (s.applyAll operations).submitting = s.submitting := by
  refine applyAll_induction (P := fun store => store.submitting = s.submitting) ?_ rfl
  intro operation hmem store h
  have hedit := hedits operation hmem
  exact (store.submitting_apply (operation.ne_setSubmitting_of_isEdit hedit)).trans h

/-! ## Values -/

/-- An edit writes to a property what it says, and leaves the others as they are. -/
theorem get?_values_apply {operation : Operation} (hedit : operation.isEdit = true)
    (hname : name ∈ s.schema.names) :
    (s.apply operation).store.values.get? name = (operation.write? name).or (s.values.get? name) := by
  cases operation with
  | setValue other v =>
    rw [apply, Operation.write?]
    by_cases hother : other ∈ s.schema.names
    · have hget : (s.written other v).values.get? name =
          if name = other then some v else s.values.get? name :=
        OrderedMap.get?_insert s.values other name v
      rw [store_setValue hother, hget]
      by_cases heq : name = other
      · rw [if_pos heq, if_pos heq.symm]
        rfl
      · rw [if_neg heq, if_neg (Ne.symm heq)]
        rfl
    · have hne : other ≠ name := by
        rintro rfl
        exact hother hname
      rw [store_setValue_of_not_mem hother, if_neg hne]
      rfl
  | setTouched other => rw [apply, setTouched]; split <;> rfl
  | validateField other => rw [apply, validateField]; split <;> rfl
  | validateForm => rfl
  | reset => cases hedit
  | setSubmitting flag => cases hedit

/-- Of several writes to a property the last one counts. -/
theorem get?_values_applyAll {operations : List Operation}
    (hedits : ∀ operation ∈ operations, operation.isEdit = true) (hname : name ∈ s.schema.names) :
    (s.applyAll operations).values.get? name =
      (lastWrite? name operations).or (s.values.get? name) := by
  induction operations generalizing s with
  | nil => rfl
  | cons operation rest ih =>
    have hrest := fun other hmem => hedits other (List.mem_cons_of_mem _ hmem)
    have hfirst := hedits operation (List.mem_cons_self ..)
    have hdeclared : name ∈ (s.apply operation).store.schema.names := by
      rwa [schema_apply]
    rw [applyAll, ih hrest hdeclared, get?_values_apply hfirst hname, lastWrite?, Option.or_assoc]

theorem Consistent.get?_values_of_not_mem (h : s.Consistent) (hname : name ∉ s.schema.names) :
    s.values.get? name = none := by
  rw [← h.keys_values] at hname
  exact Entries.get?_eq_none_iff.mpr hname

/-! ## Exposure -/

/-- Nothing is held back: every violation is written down, and every property is touched. -/
structure Exposed (s : Store) : Prop where
  complete : s.Complete
  touched : ∀ name ∈ s.schema.names, s.isTouched name = true

theorem exposed_validateForm (s : Store) : s.validateForm.store.Exposed where
  complete := s.complete_validateForm
  touched _ hname := List.contains_iff_mem.mpr hname

theorem Exposed.apply (h : s.Exposed) {operation : Operation} (hedit : operation.isEdit = true) :
    (s.apply operation).store.Exposed where
  complete := h.complete.apply (operation.ne_reset_of_isEdit hedit)
  touched name hname := by
    rw [schema_apply] at hname
    have hreset := operation.ne_reset_of_isEdit hedit
    exact (isTouched_apply_iff (h.touched name hname) hreset).mpr fun _ => hname

/-- A check of the whole form, at any time. -/
theorem exposed_applyAll {operations : List Operation}
    (hedits : ∀ operation ∈ operations, operation.isEdit = true)
    (hcheck : .validateForm ∈ operations) : (s.applyAll operations).Exposed := by
  obtain ⟨before, after, rfl⟩ := List.append_of_mem hcheck
  rw [applyAll_append, applyAll]
  have hafter : ∀ operation ∈ after, operation.isEdit = true := fun operation hmem =>
    hedits operation (List.mem_append_right _ (List.mem_cons_of_mem _ hmem))
  exact applyAll_induction (fun operation hmem _ hstore => hstore.apply (hafter operation hmem))
    (exposed_validateForm _)

/-! ## Agreement -/

/-- All that is seen of a form is the same in both stores. -/
structure Agrees (s t : Store) : Prop where
  schema : s.schema = t.schema
  values : s.values = t.values
  valid : s.valid = t.valid
  submitting : s.submitting = t.submitting
  errors : ∀ name, s.errors.get? name = t.errors.get? name
  touched : ∀ name ∈ s.schema.names, s.isTouched name = t.isTouched name

/-- If nothing is held back, the values decide all the rest. -/
theorem agrees_of_exposed (hs : s.Consistent) (ht : t.Consistent) (hsx : s.Exposed) (htx : t.Exposed)
    (hschema : s.schema = t.schema) (hsubmitting : s.submitting = t.submitting)
    (hvalues : s.values = t.values) : s.Agrees t where
  schema := hschema
  values := hvalues
  valid := by rw [hs.valid_eq, ht.valid_eq, hschema, hvalues]
  submitting := hsubmitting
  errors name := by
    rw [hsx.complete name, htx.complete name, violation?_eq_get?_violations,
      violation?_eq_get?_violations, hschema, hvalues]
  touched name hname := by rw [hsx.touched name hname, htx.touched name (hschema ▸ hname)]

/-- The order of edits does not matter, nor how many there are: of two runs from the same store in which
the form is checked, and in which the last value written to each property is the same, nothing else is
to be seen. -/
theorem agrees_applyAll (hs : s.Consistent) {operations others : List Operation}
    (hedits : ∀ operation ∈ operations, operation.isEdit = true)
    (hothers : ∀ operation ∈ others, operation.isEdit = true)
    (hcheck : .validateForm ∈ operations) (hcheck' : .validateForm ∈ others)
    (hwrites : ∀ name ∈ s.schema.names, lastWrite? name operations = lastWrite? name others) :
    (s.applyAll operations).Agrees (s.applyAll others) := by
  have hleft := hs.applyAll operations
  have hright := hs.applyAll others
  have hschema : (s.applyAll operations).schema = (s.applyAll others).schema :=
    (s.schema_applyAll operations).trans (s.schema_applyAll others).symm
  refine agrees_of_exposed hleft hright (exposed_applyAll hedits hcheck)
    (exposed_applyAll hothers hcheck') hschema ?_ ?_
  · rw [submitting_applyAll hedits, submitting_applyAll hothers]
  · refine OrderedMap.ext_get? ?_ fun name => ?_
    · rw [hleft.keys_values, hright.keys_values, hschema]
    · by_cases hname : name ∈ s.schema.names
      · rw [get?_values_applyAll hedits hname, get?_values_applyAll hothers hname, hwrites name hname]
      · have hundeclared : ∀ list, name ∉ (s.applyAll list).schema.names := by
          intro list
          rwa [schema_applyAll]
        rw [hleft.get?_values_of_not_mem (hundeclared _), hright.get?_values_of_not_mem (hundeclared _)]

namespace Agrees

theorem get?_messages (h : s.Agrees t) (name : String) :
    s.messages.get? name = t.messages.get? name := by
  rw [messages, messages, OrderedMap.get?_map, OrderedMap.get?_map, h.errors name]

/-- A form looks the same with either store, whatever its layout and its widgets are. -/
theorem view_eq (h : s.Agrees t) (form : Form) : (form.withStore s).view = (form.withStore t).view := by
  have halike : Context.Alike (form.withStore s).context (form.withStore t).context :=
    ⟨h.schema, rfl, fun name _ => congrArg (·.get? name) h.values, fun name _ => h.get?_messages name,
      h.touched⟩
  have hbutton : (form.withStore s).button = (form.withStore t).button := by
    funext action
    have hsubmitting : (form.withStore s).store.submitting = (form.withStore t).store.submitting :=
      h.submitting
    cases action with
    | submit => simp only [Form.button, hsubmitting]; rfl
    | saveDraft => simp only [Form.button, hsubmitting]; rfl
  have hbody : (form.withStore s).context.view form.layout =
      (form.withStore t).context.view form.layout := halike.view_eq form.layout
  show ((form.withStore s).context.view form.layout >>= _) = _
  rw [hbody, hbutton]
  rfl

end Agrees

end Store

end SchemaForm
