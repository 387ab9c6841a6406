import SchemaForm.Proofs.Session.Passive
import SchemaForm.Proofs.Store.Edits

/-!
# Commands that do one operation

Six of the commands call one method of the store and nothing else. As long as listeners give no commands,
such commands bring the store of a form where the operations bring it, one after the other, and nowhere
else. What is known of runs of operations is therefore known of sessions with such commands.

* `Command.ofOperation` — the six commands; `exec_step_ofOperation` — what comes of them;
* `form_report_ofOperation`, `form_reports_ofOperation` — what one of them, and several, leave of a form.
-/

namespace SchemaForm.Session

variable {inner : Command → SessionM Result} {s : State}

/-! ## Single commands -/

namespace Command

/-- The command that does this operation and nothing else. -/
def ofOperation : Store.Operation → Command
  | .setValue name value => .setValue name value
  | .setTouched name => .setTouched name
  | .validateField name => .validateField name
  | .validateForm => .validateForm
  | .reset => .reset
  | .setSubmitting flag => .setSubmitting flag

/-- What comes of the operation, if nothing fails: a check says what it has found. -/
def answer (operation : Store.Operation) (before after : Store) : Result :=
  match operation with
  | .validateField name => .message ((before.violation? name).map Violation.message)
  | .validateForm => .flag after.errors.isEmpty
  | _ => .nothing

end Command

/-- What comes of the command, from what comes of its operation. -/
theorem exec_step_ofOperation (operation : Store.Operation) {result : Except Failure Unit} {t : State}
    (h : exec (apply inner operation) s = (result, t)) :
    exec (step inner (.ofOperation operation)) s =
      (result.map fun _ => Command.answer operation s.form.store t.form.store, t) := by
  have honly : exec (applyOnly inner operation) s = (result.map fun _ => .nothing, t) := by
    rw [applyOnly, exec_bind, h]
    cases result <;> rfl
  -- the two checks read the store, after the listeners or before them; the others have nothing to say
  cases operation with
  | setValue name value => exact honly
  | setTouched name => exact honly
  | validateField name =>
    show exec (validateField inner name) s = _
    rw [validateField, exec_bind_of_ok (exec_currentStore s), exec_bind, h]
    cases result <;> rfl
  | validateForm =>
    show exec (do return Result.flag (← validateForm inner)) s = _
    rw [exec_answer, validateForm, exec_bind, h]
    cases result <;> rfl
  | reset => exact honly
  | setSubmitting flag => exact honly

/-! ## Runs of commands -/

/-- The reports of several commands leave what the reports of each of them leave. -/
theorem exec_reports_cons (command : Command) (rest : List Command) (s : State) :
    (exec (reports (command :: rest)) s).2 =
      (exec (reports rest) (exec (report (perform maxDepth) command) s).2).2 := by
  obtain ⟨first, t, hexec⟩ := exists_report (perform maxDepth) command s
  rw [reports, exec_bind_of_ok hexec, hexec, exec_answer]

/-- A command of a run may lead to others. -/
theorem exists_perform_maxDepth : ∃ depth, perform maxDepth = step (perform depth) := ⟨199, rfl⟩

theorem form_report_ofOperation (hs : Peopled (Listener.Gives Never) s) (operation : Store.Operation) :
    let t := (exec (report (perform maxDepth) (.ofOperation operation)) s).2
    t.form = s.form.withStore (s.form.store.apply operation).store ∧ Peopled (Listener.Gives Never) t := by
  obtain ⟨depth, hdepth⟩ := exists_perform_maxDepth
  obtain ⟨t, hexec, htold⟩ :=
    exec_apply_told (perform depth) (s := { s with journal := {} }) hs.present operation
  have hpeopled : Peopled (Listener.Gives Never) t := htold.peopled ⟨hs.present, hs.named⟩
  rw [exec_report, hdepth, exec_step_ofOperation operation hexec]
  exact ⟨htold.form, hpeopled.present, hpeopled.named⟩

/-- By induction on the operations: listeners that give no commands do not begin to give some. -/
theorem form_reports_ofOperation (hs : Peopled (Listener.Gives Never) s)
    (operations : List Store.Operation) :
    (exec (reports (operations.map .ofOperation)) s).2.form =
      s.form.withStore (s.form.store.applyAll operations) := by
  induction operations generalizing s with
  | nil => rfl
  | cons operation rest ih =>
    obtain ⟨hform, hpeopled⟩ := form_report_ofOperation hs operation
    rw [List.map_cons, exec_reports_cons, ih hpeopled, hform]
    rfl

end SchemaForm.Session
