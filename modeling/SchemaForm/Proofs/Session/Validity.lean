import SchemaForm.Proofs.Session.Messages

/-!
# The validity of a form in use

What `is_valid` answers is written with the values, and not computed when somebody asks. `validate_form` answers
by looking at the messages that it has found. This module says that both answers and the rules of the schema
agree at any time.

* `exec_validateForm` — what a check of the whole form answers;
* `validity_of_run` — in every session there is one value for each property, and the note about them is
  right.
-/

namespace SchemaForm.Session

/-- A check of the whole form answers what was noted before, unless a listener fails. -/
theorem exec_validateForm (inner : Command → SessionM Result) {R : Store → List Report → Prop} {s : State}
    (hs : Holds Never R s) (hconsistent : s.form.store.Consistent) :
    ∃ t, exec (validateForm inner) s = (ending s.form.store.valid (firstException s.listeners), t) := by
  obtain ⟨t, hexec, htold⟩ := exec_apply inner hs.present .validateForm rfl
  have hanswer : t.form.store.errors.isEmpty = s.form.store.valid := by
    rw [htold.form]
    exact hconsistent.isEmpty_errors_validateForm
  refine ⟨t, exec_bind_ending hexec ?_⟩
  rw [exec_bind_of_ok (exec_currentStore t), hanswer]
  rfl

theorem exec_perform_validateForm {R : Store → List Report → Prop} {s : State} (depth : Nat)
    (hs : Holds Never R s) (hconsistent : s.form.store.Consistent) :
    (exec (perform (depth + 1) .validateForm) s).1 =
      ending (.flag s.form.store.valid) (firstException s.listeners) := by
  obtain ⟨t, hanswer⟩ := exec_validateForm (perform depth) hs hconsistent
  rw [perform, step, exec_bind_ending (b := Result.flag s.form.store.valid) hanswer rfl]

/-- **The values of a form and what is noted about them fit together at any time.** There is one value for
each property, in the order of the schema. The form counts as valid exactly if a check of all values finds
nothing, and then it shows no message. A check of the form answers the same, provided that listeners give
no commands; if one of them fails, its exception is the answer. -/
theorem validity_of_run (settings : Settings) (schema : Schema) (layout? : Option Layout)
    (options : FormOptions) (commands : List Command) :
    let s := (run (.ofSchema settings schema layout? options) commands).2
    let store := s.form.store
    store.values.keys = schema.names ∧
    store.valid = (schema.violations store.values).isEmpty ∧
    (store.valid = true → store.messages.isEmpty = true) ∧
    ((∀ command ∈ commands, command.Passive) → ∀ depth,
      (exec (perform (depth + 1) .validateForm) s).1 =
        ending (.flag store.valid) (firstException s.listeners)) := by
  intro s store
  obtain ⟨hconsistent, hschema⟩ := consistent_run settings schema layout? options commands
  refine ⟨?_, ?_, ?_, ?_⟩
  · exact hschema ▸ hconsistent.keys_values
  · exact hschema ▸ hconsistent.valid_eq_isEmpty
  · exact hconsistent.isEmpty_messages
  · intro hpassive depth
    exact exec_perform_validateForm depth (tracks_run hpassive) hconsistent

/-- The session of an enquiry, with the value mended that was none for its property, and with one more
that belongs to no property. -/
def mendedSession : List Command :=
  enquirySession ++ [.setValue "age" (.int 36), .setValue "town" (.text "London")]

theorem passive_mendedSession : ∀ command ∈ mendedSession, command.Passive := by
  intro command hmem
  rcases List.mem_append.mp hmem with henquiry | hmended
  · exact passive_enquirySession command henquiry
  · simp only [List.mem_cons, List.not_mem_nil, or_false] at hmended
    rcases hmended with rfl | rfl
    · exact .of_nil rfl rfl
    · exact .of_nil rfl rfl

/-- The state at the end of that session. -/
def mendedState : State :=
  (run (.ofSchema {} enquiry none { takesSubmissions := true }) mendedSession).2

theorem validity_of_run_mended :
    (∀ command ∈ mendedSession, command.Passive) ∧ mendedState.form.store.valid = true ∧
      mendedState.form.store.values.keys = enquiry.names ∧
      mendedState.form.store.valid = (enquiry.violations mendedState.form.store.values).isEmpty ∧
      mendedState.form.store.messages.isEmpty = true ∧
      (exec (perform (0 + 1) .validateForm) mendedState).1 =
        ending (.flag mendedState.form.store.valid) (firstException mendedState.listeners) := by
  have hvalid : mendedState.form.store.valid = true := by decide +kernel
  rw [mendedState] at hvalid ⊢
  obtain ⟨hkeys, heq, hempty, hanswer⟩ :=
    validity_of_run {} enquiry none { takesSubmissions := true } mendedSession
  exact ⟨passive_mendedSession, hvalid, hkeys, heq, hempty hvalid, hanswer passive_mendedSession 0⟩

end SchemaForm.Session
