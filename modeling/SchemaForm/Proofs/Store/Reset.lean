import SchemaForm.Proofs.Store.Edits

/-!
# Going back to the beginning

`reset` has no arguments: it finds the initial values in the store. This module says that they are there, in
every store that operations lead to, and that a store which was reset is a new one but for the in-flight
flag.

* `Store.StartedWith` — what a store still knows of its beginning, and what no operation changes;
* `Store.store_reset` — a store that is reset is a new one, except for one flag;
* `Store.SameButSubmitting` — stores that differ in nothing but that flag. Whatever is done to both of
  them, they stay so.
-/

namespace SchemaForm

namespace Store

variable {s t : Store} {schema : Schema} {data : OrderedMap Value}

/-! ## What a store knows of its beginning -/

/-- The store has begun as the new one for this schema and these data. -/
structure StartedWith (schema : Schema) (data : OrderedMap Value) (s : Store) : Prop where
  schema_eq : s.schema = schema
  initial_eq : s.initial = schema.initialValues data

theorem startedWith_ofData (schema : Schema) (data : OrderedMap Value) :
    (ofData schema data).StartedWith schema data := ⟨rfl, rfl⟩

theorem StartedWith.apply (h : s.StartedWith schema data) (operation : Operation) :
    (s.apply operation).store.StartedWith schema data where
  schema_eq := (s.schema_apply operation).trans h.schema_eq
  initial_eq := (s.initial_apply operation).trans h.initial_eq

theorem StartedWith.applyAll (h : s.StartedWith schema data) (operations : List Operation) :
    (s.applyAll operations).StartedWith schema data :=
  applyAll_induction (fun operation _ _ hstore => hstore.apply operation) h

/-- The store with this flag in the place of its own. -/
def withSubmitting (s : Store) (flag : Bool) : Store := { s with submitting := flag }

/-- A reset leaves the new store, with the flag as it was. -/
theorem store_reset (h : s.StartedWith schema data) :
    s.reset.store = (ofData schema data).withSubmitting s.submitting := by
  obtain ⟨rfl, hinitial⟩ := h
  rw [reset, hinitial]
  rfl

/-- The second time nothing is left to be reset. -/
theorem store_reset_reset (s : Store) : s.reset.store.reset.store = s.reset.store := rfl

/-! ## Stores that differ in one flag -/

/-- Nothing but whether a submission is under way is another in the one store than in the other. -/
structure SameButSubmitting (s t : Store) : Prop where
  schema : s.schema = t.schema
  initial : s.initial = t.initial
  values : s.values = t.values
  errors : s.errors = t.errors
  touched : s.touched = t.touched
  valid : s.valid = t.valid

theorem sameButSubmitting_withSubmitting (s : Store) (flag : Bool) :
    (s.withSubmitting flag).SameButSubmitting s := ⟨rfl, rfl, rfl, rfl, rfl, rfl⟩

/-- No operation reads the flag, except for the one that writes it. -/
theorem apply_withSubmitting (s : Store) (flag : Bool) {operation : Operation}
    (h : ∀ other, operation ≠ .setSubmitting other) :
    ((s.withSubmitting flag).apply operation).store = (s.apply operation).store.withSubmitting flag := by
  cases operation with
  | setValue name v =>
    by_cases hname : name ∈ s.schema.names
    · have hname' : name ∈ (s.withSubmitting flag).schema.names := hname
      simp only [apply, store_setValue hname, store_setValue hname']
      rfl
    · have hname' : name ∉ (s.withSubmitting flag).schema.names := hname
      simp only [apply, store_setValue_of_not_mem hname, store_setValue_of_not_mem hname']
  | setTouched name =>
    have hsame : (s.withSubmitting flag).isTouched name = s.isTouched name := rfl
    simp only [apply, setTouched, hsame]
    cases s.isTouched name <;> rfl
  | validateField name =>
    by_cases hname : name ∈ s.schema.names
    · have hname' : name ∈ (s.withSubmitting flag).schema.names := hname
      simp only [apply, store_validateField hname, store_validateField hname']
      rfl
    · have hname' : name ∉ (s.withSubmitting flag).schema.names := hname
      simp only [apply, store_validateField_of_not_mem hname, store_validateField_of_not_mem hname']
  | validateForm => rfl
  | reset => rfl
  | setSubmitting other => exact absurd rfl (h other)

namespace SameButSubmitting

theorem eq_withSubmitting (h : s.SameButSubmitting t) : s = t.withSubmitting s.submitting := by
  obtain ⟨schema, initial, values, errors, touched, submitting, valid⟩ := s
  obtain ⟨rfl, rfl, rfl, rfl, rfl, rfl⟩ := h
  rfl

/-- An operation does the same to both stores. -/
theorem apply (h : s.SameButSubmitting t) (operation : Operation) :
    (s.apply operation).store.SameButSubmitting (t.apply operation).store := by
  by_cases hflag : ∃ flag, operation = .setSubmitting flag
  · obtain ⟨flag, rfl⟩ := hflag
    rw [Store.apply, Store.apply, store_setSubmitting, store_setSubmitting]
    exact ⟨h.schema, h.initial, h.values, h.errors, h.touched, h.valid⟩
  · rw [h.eq_withSubmitting, apply_withSubmitting t _ fun flag hsame => hflag ⟨flag, hsame⟩]
    exact sameButSubmitting_withSubmitting _ _

theorem applyAll (h : s.SameButSubmitting t) (operations : List Operation) :
    (s.applyAll operations).SameButSubmitting (t.applyAll operations) := by
  induction operations generalizing s t with
  | nil => exact h
  | cons operation rest ih => exact ih (h.apply operation)

end SameButSubmitting

/-- Whatever is done after a reset has the outcome that it has in a new store. -/
theorem applyAll_reset (h : s.StartedWith schema data) (operations : List Operation) :
    (s.reset.store.applyAll operations).SameButSubmitting ((ofData schema data).applyAll operations) := by
  rw [store_reset h]
  exact (sameButSubmitting_withSubmitting _ _).applyAll operations

end Store

end SchemaForm
