import SchemaForm.Proofs.Session.Messages

/-!
# Drafts

`save_draft` hands the values of a form to `on_save_draft` as they are, valid or not, and a new form may start
with them. What a form in use has besides its values is found again by `validate_form`, so that a draft is
enough to go on with it.

* `Schema.initialValues_eq_self` — data with one value for each property are not changed by the schema,
  whatever the values and the defaults are;
* `Store.Consistent.ofData_values` — what a new store has of an old one whose values it is given;
* `draft_restores_form` — what becomes of the draft of any session.
-/

namespace SchemaForm

/-- One value for each property, in the order of the schema, is what a form can start with. No default and
no empty value takes the place of any of them. -/
theorem Schema.initialValues_eq_self {s : Schema} {values : OrderedMap Value}
    (h : values.keys = s.names) : s.initialValues values = values := by
  have hkeys : (s.initialValues values).keys = values.keys :=
    (s.keys_initialValues values).trans h.symm
  refine OrderedMap.ext_get? hkeys fun name => ?_
  have hget : (s.initialValues values).get? name =
      (s.properties.get? name).map fun p => (values.get? name).getD p.blank :=
    OrderedMap.get?_map _ s.properties name
  have hsame : (s.properties.get? name).isSome = (values.get? name).isSome := by
    rw [Bool.eq_iff_iff, ← OrderedMap.mem_keys_iff, ← OrderedMap.mem_keys_iff, h]
    rfl
  rw [hget]
  cases hvalue : values.get? name with
  | none =>
    rw [hvalue] at hsame
    rw [Option.isSome_eq_false_iff.mp hsame |> Option.isNone_iff_eq_none.mp]
    rfl
  | some v =>
    rw [hvalue] at hsame
    obtain ⟨p, hp⟩ := Option.isSome_iff_exists.mp hsame
    rw [hp]
    rfl

namespace Store

/-- A new store with the values of another one has the same values and counts as valid if the other does.
What the other one has found and noted besides is gone. -/
theorem Consistent.ofData_values {s : Store} (h : s.Consistent) :
    ofData s.schema s.values =
      { s with initial := s.values, errors := ∅, touched := [], submitting := false } := by
  rw [ofData, Schema.initialValues_eq_self h.keys_values, ← h.valid_eq]

/-- A check of the whole form finds again what a check of the other store would find. -/
theorem Consistent.validateForm_ofData_values {s : Store} (h : s.Consistent) :
    (ofData s.schema s.values).validateForm.store =
      { s.validateForm.store with initial := s.values, submitting := false } := by
  rw [h.ofData_values]
  rfl

end Store

namespace Session

/-- The state in which the draft handler is called: it has been given the values. -/
def State.drafted (s : State) : State :=
  { s with journal := { s.journal with drafts := s.journal.drafts ++ [s.form.store.values] } }

/-- A draft handler gets the values once, and only its own commands change the form meanwhile. It may fail
after them, and that leaves the form alone. -/
theorem exec_saveDraft (inner : Command → SessionM Result) (handler : Reaction Command) (s : State) :
    let outcome := exec (saveDraft inner handler) s
    let called := exec (reportAll inner handler.commands) s.drafted
    outcome.2.journal.drafts = (if s.form.takesDrafts then s.drafted else s).journal.drafts ∧
      outcome.2.form = if s.form.takesDrafts then called.2.form else s.form := by
  dsimp only
  rw [saveDraft, exec_bind_of_ok (exec_currentForm s)]
  cases htakes : s.form.takesDrafts with
  | true =>
    have hnoted : exec (note fun journal =>
        { journal with drafts := journal.drafts ++ [s.form.store.values] }) s = (.ok (), s.drafted) := rfl
    obtain ⟨t, hcommands, hdrafts, -⟩ := exec_reportAll inner handler.commands s.drafted
    rw [if_pos rfl, if_pos rfl, if_pos rfl, exec_bind_of_ok hnoted, exec_bind_of_ok hcommands, hcommands]
    cases handler.exception with
    | none => exact ⟨hdrafts, rfl⟩
    | some exception => exact ⟨hdrafts, rfl⟩
  | false => exact ⟨rfl, rfl⟩

/-- The report of a draft that is saved: the handler gets the values of the form once. -/
theorem exec_report_saveDraft (depth : Nat) (handler : Reaction Command) (s : State) :
    let called := exec (reportAll (perform depth) handler.commands) { s with journal := {} }.drafted
    ∃ found t, exec (report (perform (depth + 1)) (.saveDraft handler)) s = (.ok found, t) ∧
      found.drafts = (if s.form.takesDrafts then [s.form.store.values] else []) ∧
      t.form = if s.form.takesDrafts then called.2.form else s.form := by
  intro called
  have hreport : exec (report (perform (depth + 1)) (.saveDraft handler)) s = _ :=
    exec_report (.saveDraft handler) s
  have hcommand := exec_answer (saveDraft (perform depth) handler) (fun _ => Result.nothing)
    { s with journal := {} }
  obtain ⟨hdrafts, hform⟩ := exec_saveDraft (perform depth) handler { s with journal := {} }
  refine ⟨_, _, hreport, ?_, (congrArg (fun outcome => outcome.2.form) hcommand).trans hform⟩
  refine (congrArg (fun outcome => outcome.2.journal.drafts) hcommand).trans (hdrafts.trans ?_)
  cases s.form.takesDrafts <;> rfl

/-- **A draft restores the form.** Whatever has been done to a form, the draft handler is given its values
once, and nothing but the commands of the handler changes the form meanwhile. A new form that starts with
the draft has these values, in the same order, and it is valid exactly if the old one is. Once both are
checked, the two stores have the same messages and the same names touched, and differ only in what a reset
goes back to and in whether a submission is under way. -/
theorem draft_restores_form (settings : Settings) (schema : Schema) (layout? : Option Layout)
    (options : FormOptions) (commands : List Command) (handler : Reaction Command) (depth : Nat) :
    let s := (run (.ofSchema settings schema layout? options) commands).2
    let store := s.form.store
    let called := exec (reportAll (perform depth) handler.commands) { s with journal := {} }.drafted
    let restored := Store.ofData schema store.values
    (∃ found t, exec (report (perform (depth + 1)) (.saveDraft handler)) s = (.ok found, t) ∧
      found.drafts = (if options.takesDrafts then [store.values] else []) ∧
      t.form = if options.takesDrafts then called.2.form else s.form) ∧
    restored.values = store.values ∧
    restored.valid = store.valid ∧
    restored.validateForm.store =
      { store.validateForm.store with initial := store.values, submitting := false } := by
  intro s store called restored
  obtain ⟨hconsistent, hschema⟩ := consistent_run settings schema layout? options commands
  have hrestored : restored = Store.ofData store.schema store.values := by rw [hschema]
  have htakes : s.form.takesDrafts = options.takesDrafts :=
    congrArg Form.takesDrafts (form_run (.ofSchema settings schema layout? options) commands)
  refine ⟨?_, ?_, ?_, ?_⟩
  · rw [← htakes]
    exact exec_report_saveDraft depth handler s
  · rw [hrestored, hconsistent.ofData_values]
  · rw [hrestored, hconsistent.ofData_values]
  · rw [hrestored, hconsistent.validateForm_ofData_values]

end Session

end SchemaForm
