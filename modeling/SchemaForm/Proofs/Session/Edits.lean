import SchemaForm.Proofs.Session.Messages
import SchemaForm.Proofs.Session.Operations
import SchemaForm.Proofs.Session.Throughout

/-!
# Edits in a session

A host that only calls `set_value`, `set_touched`, `validate_field` and `validate_form` brings the store of its
form where the operations on it bring it, and nowhere else. What is known of runs of operations is therefore
known of such sessions.

* `Command.isEdit` — the commands by which a form is filled in;
* `form_run_of_edits` — the form at the end of a session of edits;
* `confluence_of_edits` — sessions of edits that write the same in the end lead to the same form.
-/

namespace SchemaForm.Session

variable {s : State}

/-- Whether the command is one by which a form is filled in. -/
def Command.isEdit : Command → Bool
  | .setValue .. => true
  | .setTouched _ => true
  | .validateField _ => true
  | .validateForm => true
  | _ => false

/-- The operations of several commands. -/
def operationsOf (commands : List Command) : List Store.Operation := commands.flatMap Command.operations

theorem operationsOf_cons (command : Command) (rest : List Command) :
    operationsOf (command :: rest) = command.operations ++ operationsOf rest := List.flatMap_cons

theorem isEdit_of_mem_operationsOf {commands : List Command}
    (hedits : ∀ command ∈ commands, command.isEdit = true) :
    ∀ operation ∈ operationsOf commands, operation.isEdit = true := by
  intro operation hmem
  obtain ⟨command, hcommand, hoperation⟩ := List.mem_flatMap.mp hmem
  have hedit := hedits command hcommand
  cases command <;> simp [Command.isEdit, Command.operations] at hedit hoperation <;> subst hoperation <;>
    rfl

/-- An edit does one operation and nothing else. -/
theorem eq_map_ofOperation {commands : List Command} (hedits : ∀ command ∈ commands, command.isEdit = true) :
    commands = (operationsOf commands).map .ofOperation := by
  induction commands with
  | nil => rfl
  | cons command rest ih =>
    have hfirst : [command] = command.operations.map .ofOperation := by
      have hedit := hedits command (List.mem_cons_self ..)
      cases command <;> first | rfl | cases hedit
    rw [operationsOf_cons, List.map_append, ← hfirst,
      ← ih fun other hmem => hedits other (List.mem_cons_of_mem _ hmem)]
    rfl

/-! ## Sessions -/

/-- The form at the end of a session of edits. -/
theorem form_run_of_edits (form : Form) {commands : List Command}
    (hedits : ∀ command ∈ commands, command.isEdit = true) :
    (run form commands).2.form = form.withStore (form.store.applyAll (operationsOf commands)) := by
  have hform := form_reports_ofOperation (peopled_ofForm form) (operationsOf commands)
  rw [← eq_map_ofOperation hedits] at hform
  rw [run_snd]
  exact hform

/-- What a form shows as HTML depends on what it shows. -/
theorem exec_html_congr {t : State} (depth : Nat) (h : s.form.view = t.form.view) :
    (exec (perform (depth + 1) .html) s).1 = (exec (perform (depth + 1) .html) t).1 := by
  rw [perform, step, currentHtml, exec_bind, exec_bind, exec_currentView, exec_currentView, h]
  cases t.form.view with
  | error missing => rfl
  | ok view =>
    dsimp only
    cases view.toHtml <;> rfl

/-- **Edits may be given in any order.** Two sessions that fill in the same form and check it, and in
which the last value that is written to each property is the same, or none is written to it in either,
come to the same: to the same values and the same verdict, to the same messages, and to a form that looks
the same, whatever its layout is. -/
theorem confluence_of_edits (settings : Settings) (schema : Schema) (layout? : Option Layout)
    (options : FormOptions) (commands others : List Command)
    (hedits : ∀ command ∈ commands, command.isEdit = true)
    (hothers : ∀ command ∈ others, command.isEdit = true)
    (hcheck : .validateForm ∈ commands) (hcheck' : .validateForm ∈ others)
    (hwrites : ∀ name ∈ schema.names,
      Store.lastWrite? name (operationsOf commands) = Store.lastWrite? name (operationsOf others)) :
    let s := (run (.ofSchema settings schema layout? options) commands).2
    let t := (run (.ofSchema settings schema layout? options) others).2
    s.form.store.values = t.form.store.values ∧
    s.form.store.valid = t.form.store.valid ∧
    (∀ name, s.form.store.messages.get? name = t.form.store.messages.get? name) ∧
    s.form.view = t.form.view ∧
    ∀ depth, (exec (perform (depth + 1) .html) s).1 = (exec (perform (depth + 1) .html) t).1 := by
  intro s t
  let form : Form := .ofSchema settings schema layout? options
  have hs : s.form = form.withStore (form.store.applyAll (operationsOf commands)) :=
    form_run_of_edits form hedits
  have ht : t.form = form.withStore (form.store.applyAll (operationsOf others)) :=
    form_run_of_edits form hothers
  have hchecked : ∀ {list : List Command}, Command.validateForm ∈ list →
      Store.Operation.validateForm ∈ operationsOf list :=
    fun hmem => List.mem_flatMap.mpr ⟨_, hmem, List.mem_singleton_self _⟩
  -- the order of the operations is lost: they agree on the last writes, and all names are touched
  have hagrees : (form.store.applyAll (operationsOf commands)).Agrees
      (form.store.applyAll (operationsOf others)) :=
    Store.agrees_applyAll (Store.consistent_ofData schema options.data)
      (isEdit_of_mem_operationsOf hedits) (isEdit_of_mem_operationsOf hothers) (hchecked hcheck)
      (hchecked hcheck') hwrites
  have hview : s.form.view = t.form.view := by
    rw [hs, ht]
    exact hagrees.view_eq form
  refine ⟨?_, ?_, ?_, hview, fun depth => exec_html_congr depth hview⟩
  · rw [hs, ht]
    exact hagrees.values
  · rw [hs, ht]
    exact hagrees.valid
  · rw [hs, ht]
    exact hagrees.get?_messages

/-- A session that mends what it has typed in, and touches a name that belongs to no property, -/
def hesitantSession : List Command :=
  [.setValue "age" (.text "old"), .validateForm, .setTouched "town", .setValue "age" (.int 36),
    .validateField "name", .setValue "name" (.text "Ada")]

/-- and one that gets it right at once, in another order. -/
def straightSession : List Command :=
  [.setValue "name" (.text "Ada"), .setValue "age" (.int 36), .validateForm]

theorem isEdit_hesitantSession : ∀ command ∈ hesitantSession, command.isEdit = true := by
  intro command hmem
  simp only [hesitantSession, List.mem_cons, List.not_mem_nil, or_false] at hmem
  rcases hmem with rfl | rfl | rfl | rfl | rfl | rfl <;> rfl

theorem isEdit_straightSession : ∀ command ∈ straightSession, command.isEdit = true := by
  intro command hmem
  simp only [straightSession, List.mem_cons, List.not_mem_nil, or_false] at hmem
  rcases hmem with rfl | rfl | rfl <;> rfl

theorem confluence_of_edits_enquiry :
    let form : Form := .ofSchema {} enquiry none {}
    let s := (run form hesitantSession).2
    let t := (run form straightSession).2
    (∀ command ∈ hesitantSession, command.isEdit = true) ∧
    (∀ command ∈ straightSession, command.isEdit = true) ∧
    .validateForm ∈ hesitantSession ∧ .validateForm ∈ straightSession ∧
    (∀ name ∈ enquiry.names, Store.lastWrite? name (operationsOf hesitantSession) =
      Store.lastWrite? name (operationsOf straightSession)) ∧
    s.form.store.touched ≠ t.form.store.touched ∧
    s.form.store.values = t.form.store.values ∧ s.form.store.valid = t.form.store.valid ∧
    s.form.view = t.form.view := by
  intro form s t
  have hcheck : .validateForm ∈ hesitantSession := by simp [hesitantSession]
  have hcheck' : .validateForm ∈ straightSession := by simp [straightSession]
  have hwrites : ∀ name ∈ enquiry.names, Store.lastWrite? name (operationsOf hesitantSession) =
      Store.lastWrite? name (operationsOf straightSession) := by
    intro name hname
    have hnames : enquiry.names = ["name", "age"] := rfl
    rw [hnames] at hname
    simp only [List.mem_cons, List.not_mem_nil, or_false] at hname
    rcases hname with rfl | rfl <;> rfl
  obtain ⟨hvalues, hvalid, -, hview, -⟩ := confluence_of_edits {} enquiry none {} hesitantSession
    straightSession isEdit_hesitantSession isEdit_straightSession hcheck hcheck' hwrites
  refine ⟨isEdit_hesitantSession, isEdit_straightSession, hcheck, hcheck', hwrites, ?_, hvalues, hvalid,
    hview⟩
  decide +kernel

end SchemaForm.Session
