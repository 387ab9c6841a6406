import SchemaForm.Proofs.Session.Messages
import SchemaForm.Proofs.Session.Operations
import SchemaForm.Proofs.Session.Throughout

/-!
# Touched names

What `set_touched` has touched stays touched until `reset`: this is so for the names of properties. A host may
touch any name, however, and `validate_form` puts the declared names in the place of all that were touched
before.

* `touched_of_declared` — the names of properties stay touched, whatever listeners and handlers do;
* `Command.Lone`, `State.checks` — commands with nobody behind them, and whether such a command checks
  the whole form;
* `touched_until_reset` — exactly when a name stays touched for the rest of a run.
-/

namespace SchemaForm.Session

variable {inner : Command → SessionM Result} {s : State} {name : String} {commands : List Command}

/-! ## The names of properties -/

/-- Neither the command nor anything that comes of it is a reset. -/
abbrev Command.Resetless : Command → Prop := Command.Throughout (· ≠ .reset)

theorem Command.operation_ne_reset {command : Command} (h : command ≠ .reset)
    {operation : Store.Operation} (hmem : operation ∈ command.operations) : operation ≠ .reset := by
  refine ne_reset_of_mem_operations (fun hname => h ?_) hmem
  cases command <;> simp [Command.name] at hname ⊢

theorem closed_touched (name : String) :
    Closed Command.Resetless fun store => name ∈ store.schema.names ∧ store.isTouched name = true where
  listener h := h.listener
  handler h := h.handler
  operation := by
    intro command hcommand operation hmem store hstore
    obtain ⟨hname, htouched⟩ := hstore
    have hreset : operation ≠ .reset := Command.operation_ne_reset hcommand.self hmem
    refine ⟨?_, (Store.isTouched_apply_iff htouched hreset).mpr fun _ => hname⟩
    rwa [Store.schema_apply]

/-- The names of properties stay touched while nobody resets the form: neither the host, nor a listener,
nor a handler. -/
theorem touched_of_declared (hs : Peopled (Listener.Gives Command.Resetless) s)
    (hcommands : ∀ command ∈ commands, command.Resetless) (hname : name ∈ s.form.store.schema.names)
    (htouched : s.form.store.isTouched name = true) :
    (exec (reports commands) s).2.form.store.isTouched name = true :=
  have hkeeps := (closed_touched name).keeps_reports hcommands
  (hkeeps s ⟨hs.present, hs.named, hname, htouched⟩).rest.2

/-! ## Commands with nobody behind them -/

/-- The command brings no commands of listeners or handlers with it, and it is no reset. -/
structure Command.Lone (command : Command) : Prop where
  listener : command.listenerCommands = []
  handler : command.handlerCommands = []
  ne_reset : command ≠ .reset

namespace Command.Lone

variable {command : Command} {P : State → Prop} {R : Store → List Report → Prop}

theorem resetless (h : command.Lone) : command.Resetless := .of_nil h.ne_reset h.listener h.handler

theorem keeps_handler (h : command.Lone) : Keeps P (reportAll inner command.handlerCommands) := by
  rw [h.handler]
  exact Keeps.pure ()

/-- What its operations keep, the command keeps. -/
theorem keeps_step (h : command.Lone) (hoperations : ∀ operation ∈ command.operations,
    Preserves R operation) : Keeps (Holds Never R) (step inner command) := by
  have hlistener : ∀ given ∈ command.listenerCommands, Never given := by
    rw [h.listener]
    exact fun _ hmem => absurd hmem List.not_mem_nil
  exact Session.keeps_step keeps_never hoperations hlistener h.keeps_handler

end Command.Lone

/-- Whether the command checks the whole form: it is a check itself, or the attempt of a submission that
is not turned away. -/
def State.checks (s : State) : Command → Bool
  | .validateForm => true
  | .submit .. => !s.rejects
  | .start .. => !s.rejects
  | .click index _ => s.clicked? index == some .submit && !s.rejects
  | _ => false

/-! ### Commands that check the form -/

/-- What was touched is what is declared. -/
def Settled (name : String) (store : Store) (_ : List Report) : Prop :=
  store.isTouched name = true ↔ name ∈ store.schema.names

theorem settled_validateForm (name : String) (store : Store) (during : List Report) :
    Settled name store.validateForm.store during :=
  List.contains_iff_mem

theorem preserves_settled {operation : Store.Operation} (hmem : operation ∈ Command.submission) :
    Preserves (Settled name) operation := by
  simp only [Command.submission, List.mem_cons, List.not_mem_nil, or_false] at hmem
  intro store during h
  rcases hmem with rfl | rfl | rfl
  · exact settled_validateForm name store during
  · rw [Store.apply, Store.store_setSubmitting]
    exact h
  · rw [Store.apply, Store.store_setSubmitting]
    exact h

section
variable (hs : Peopled (Listener.Gives Never) s)
include hs

theorem settled_submit {handler : Reaction Command} (hadmitted : s.rejects = false)
    (hhandler : Keeps (Holds Never (Settled name)) (reportAll inner handler.commands)) :
    Holds Never (Settled name) (exec (submit inner handler) s).2 := by
  have hbefore : Holds Never (fun _ _ => True) s := ⟨hs.present, hs.named, trivial⟩
  exact holds_submit keeps_never hbefore hadmitted (fun _ => settled_validateForm name _ _)
    (fun _ => preserves_settled) hhandler

theorem settled_of_checks {command : Command} (hlone : command.Lone) (hchecks : s.checks command = true) :
    Holds Never (Settled name) (exec (step inner command) s).2 := by
  have hbefore : Holds Never (fun _ _ => True) s := ⟨hs.present, hs.named, trivial⟩
  cases command with
  | validateForm =>
    exact Keeps.after (fun _ => Keeps.pure _)
      (holds_validateForm keeps_never hbefore fun _ => settled_validateForm name _ _)
  | submit event handler =>
    have hadmitted : s.rejects = false := by simpa [State.checks] using hchecks
    exact Keeps.after (fun _ => Keeps.pure _) (settled_submit hs hadmitted hlone.keeps_handler)
  | start id handler =>
    have hadmitted : s.rejects = false := by simpa [State.checks] using hchecks
    exact holds_start keeps_never hbefore hadmitted (fun _ => settled_validateForm name _ _)
      (fun _ => preserves_settled) hlone.keeps_handler
  | click index handler =>
    obtain ⟨hclicked, hadmitted⟩ : s.clicked? index = some .submit ∧ s.rejects = false := by
      simpa [State.checks] using hchecks
    have hlooked : Peopled (Listener.Gives Never) s.looked := ⟨hs.present, hs.named⟩
    rw [step, exec_click hclicked]
    exact Keeps.after (fun _ => Keeps.pure _) (settled_submit hlooked hadmitted hlone.keeps_handler)
  | _ => exact absurd hchecks Bool.false_ne_true

end

/-! ### Commands that do not check the form -/

/-- The name is touched. -/
def Touches (name : String) (store : Store) (_ : List Report) : Prop := store.isTouched name = true

theorem preserves_touches {operation : Store.Operation} (hreset : operation ≠ .reset)
    (hcheck : operation ≠ .validateForm) : Preserves (Touches name) operation :=
  fun _ _ h => (Store.isTouched_apply_iff h hreset).mpr fun hsame => absurd hsame hcheck

/-- A command that does not check the form forgets nothing. A submission that is turned away is one of
these, and so is a click that leads to nothing. -/
theorem touches_of_not_checks (hs : Holds Never (Touches name) s) {command : Command}
    (hlone : command.Lone) (hchecks : s.checks command = false) :
    Holds Never (Touches name) (exec (step inner command) s).2 := by
  by_cases hcheck : Store.Operation.validateForm ∈ command.operations
  · -- such a command is a submission in one way or another, and it is turned away or leads to nothing
    have hturned : ∀ {t : State} events, Holds Never (Touches name) t →
        Holds Never (Touches name) { t with events } :=
      fun _ h => ⟨h.present, h.named, h.rest⟩
    cases command with
    | validateForm => cases hchecks
    | submit event handler =>
      have hrejects : s.rejects = true := by simpa [State.checks] using hchecks
      rw [step, exec_bind_of_error (exec_submit_of_rejects hrejects)]
      exact hturned _ hs
    | start id handler =>
      have hrejects : s.rejects = true := by simpa [State.checks] using hchecks
      rw [step, exec_start_of_rejects hrejects]
      exact hturned _ hs
    | click index handler =>
      have hlooked : Holds Never (Touches name) s.looked := hturned _ hs
      rw [step]
      cases hclicked : s.clicked? index with
      | none =>
        obtain ⟨result, hexec, -⟩ := exec_click_of_none inner handler hclicked
        rw [hexec]
        exact hlooked
      | some action =>
        rw [exec_click hclicked]
        -- a click is the submission or the draft that its button stands for
        cases action with
        | submit =>
          have hrejects : s.rejects = true := by simpa [State.checks, hclicked] using hchecks
          rw [press, exec_bind_of_error (exec_submit_of_rejects (s := s.looked) hrejects)]
          exact hturned _ hlooked
        | saveDraft =>
          have hdraft : Ensures (Holds Never (Touches name)) (fun _ => True) (saveDraft inner handler) :=
            (robust_holds _ _).ensures_saveDraft (fun _ _ => trivial) hlone.keeps_handler
          exact Keeps.after (fun _ => Keeps.pure _) (hdraft.keeps _ hlooked)
    | _ => simp [Command.operations] at hcheck
  · have hoperations : ∀ operation ∈ command.operations, Preserves (Touches name) operation := by
      intro operation hmem
      exact preserves_touches (Command.operation_ne_reset hlone.ne_reset hmem)
        fun hsame => hcheck (hsame ▸ hmem)
    exact hlone.keeps_step hoperations s hs

/-! ## Runs -/

/-- Whether one of the commands, given one after the other, checks the whole form. -/
def State.checksDuring (s : State) : List Command → Bool
  | [] => false
  | command :: rest =>
    s.checks command || (exec (report (perform maxDepth) command) s).2.checksDuring rest

/-- One command of a run. -/
structure Follows (name : String) (command : Command) (s t : State) : Prop where
  listeners : Peopled (Listener.Gives Never) t
  schema : t.form.store.schema = s.form.store.schema
  /-- A command that does not check the form forgets nothing. -/
  kept : s.checks command = false → s.form.store.isTouched name = true →
    t.form.store.isTouched name = true
  /-- After a check, just the declared names are touched. -/
  settled : s.checks command = true →
    (t.form.store.isTouched name = true ↔ name ∈ s.form.store.schema.names)

theorem follows_report (hs : Peopled (Listener.Gives Never) s) {command : Command} (hlone : command.Lone)
    (name : String) : Follows name command s (exec (report (perform maxDepth) command) s).2 := by
  let u : State := { s with journal := {} }
  have hu : Peopled (Listener.Gives Never) u := ⟨hs.present, hs.named⟩
  have hschema : Holds Never (fun store _ => store.schema = s.form.store.schema)
      (exec (perform maxDepth command) u).2 :=
    hlone.keeps_step (fun _ _ _ _ h => (Store.schema_apply _ _).trans h) u ⟨hu.present, hu.named, rfl⟩
  rw [exec_report]
  refine ⟨⟨hschema.present, hschema.named⟩, hschema.rest, ?_, ?_⟩
  · intro hchecks htouched
    have hbefore : Holds Never (Touches name) u := ⟨hu.present, hu.named, htouched⟩
    have hafter : Holds Never (Touches name) (exec (perform maxDepth command) u).2 :=
      touches_of_not_checks hbefore hlone hchecks
    exact hafter.rest
  · intro hchecks
    have hafter : Holds Never (Settled name) (exec (perform maxDepth command) u).2 :=
      settled_of_checks hu hlone hchecks
    rw [← hschema.rest]
    exact hafter.rest

/-- A command leaves a name touched exactly if it does not check the form, or the name is declared. -/
theorem Follows.isTouched_iff {command : Command} {t : State} (h : Follows name command s t)
    (htouched : s.form.store.isTouched name = true) :
    t.form.store.isTouched name = true ↔
      name ∈ s.form.store.schema.names ∨ s.checks command = false := by
  cases hchecks : s.checks command with
  | false => exact iff_of_true (h.kept hchecks htouched) (Or.inr rfl)
  | true => simpa using h.settled hchecks

/-- By induction on the commands: what matters of the first one is whether it checks the form. -/
theorem touched_throughout_iff {s : State} (hs : Peopled (Listener.Gives Never) s)
    {commands : List Command} (hcommands : ∀ command ∈ commands, command.Lone) {name : String}
    (htouched : s.form.store.isTouched name = true) :
    (∀ before, before <+: commands → (exec (reports before) s).2.form.store.isTouched name = true) ↔
      name ∈ s.form.store.schema.names ∨ s.checksDuring commands = false := by
  induction commands generalizing s with
  | nil =>
    refine iff_of_true (fun before hbefore => ?_) (Or.inr rfl)
    rw [List.prefix_nil.mp hbefore]
    exact htouched
  | cons command rest ih =>
    let t := (exec (report (perform maxDepth) command) s).2
    have hstep : Follows name command s t := follows_report hs (hcommands _ (List.mem_cons_self ..)) name
    have hrest : ∀ other ∈ rest, other.Lone :=
      fun other hmem => hcommands other (List.mem_cons_of_mem _ hmem)
    have hfirst : (∀ before, before <+: command :: rest →
          (exec (reports before) s).2.form.store.isTouched name = true) ↔
        ∀ before, before <+: rest → (exec (reports before) t).2.form.store.isTouched name = true := by
      -- no command at all leaves the name touched, and any other beginning has the first command in it
      simp only [List.prefix_cons_iff]
      constructor
      · intro h before hbefore
        rw [← exec_reports_cons]
        exact h _ (Or.inr ⟨before, rfl, hbefore⟩)
      · rintro h before (rfl | ⟨later, rfl, hlater⟩)
        · exact htouched
        · rw [exec_reports_cons]
          exact h later hlater
    rw [hfirst, State.checksDuring, Bool.or_eq_false_iff]
    by_cases hkept : t.form.store.isTouched name = true
    · have hnow := (hstep.isTouched_iff htouched).mp hkept
      rw [ih hstep.listeners hrest hkept, hstep.schema, or_and_left]
      exact (and_iff_right hnow).symm
    · -- what comes later does not matter: the name was missing in between
      have hforgotten := mt (hstep.isTouched_iff htouched).mpr hkept
      rw [or_and_left]
      exact iff_of_false (fun h => hkept (h [] List.nil_prefix)) fun h => hforgotten h.1

/-- **When a touched name stays touched.** The name of a property that was touched stays so for the rest of
a run if nobody resets the form, whatever listeners and handlers do besides. If they give no commands at
all, then any name stays touched that is declared, or if no command of the run checks the whole form, and
in no other case. -/
theorem touched_until_reset {s : State} {name : String} (htouched : s.form.store.isTouched name = true)
    (commands : List Command) :
    (Peopled (Listener.Gives Command.Resetless) s → (∀ command ∈ commands, command.Resetless) →
      name ∈ s.form.store.schema.names → ∀ before, before <+: commands →
        (exec (reports before) s).2.form.store.isTouched name = true) ∧
    (Peopled (Listener.Gives Never) s → (∀ command ∈ commands, command.Lone) →
      ((∀ before, before <+: commands →
          (exec (reports before) s).2.form.store.isTouched name = true) ↔
        name ∈ s.form.store.schema.names ∨ s.checksDuring commands = false)) := by
  refine ⟨fun hs hcommands hname before hbefore => ?_, fun hs hcommands => ?_⟩
  · have hresetless : ∀ command ∈ before, command.Resetless :=
      fun command hmem => hcommands command (hbefore.subset hmem)
    exact touched_of_declared hs hresetless hname htouched
  · exact touched_throughout_iff hs hcommands htouched

/-- A form that asks for a remark. -/
def remarkForm : Form :=
  let schema : Schema :=
    { title := none
      description := none
      properties := .ofList [("remark", {})]
      required := [] }
  .ofSchema {} schema none {}

/-- The form after the user has left the remark. -/
def leftRemark : State := .ofForm (remarkForm.withStore (remarkForm.store.setTouched "remark").store)

/-- What the host does then. -/
def remarkCommands : List Command :=
  [.setTouched "ghost", .validateForm, .setValue "remark" (.text "fine"), .submit false {}]

theorem lone_remarkCommands : ∀ command ∈ remarkCommands, command.Lone := by
  intro command hmem
  simp only [remarkCommands, List.mem_cons, List.not_mem_nil, or_false] at hmem
  rcases hmem with rfl | rfl | rfl | rfl <;> exact ⟨rfl, rfl, nofun⟩

theorem touched_until_reset_remark :
    leftRemark.form.store.isTouched "remark" = true ∧
      "remark" ∈ leftRemark.form.store.schema.names ∧
      (∀ before, before <+: remarkCommands →
        (exec (reports before) leftRemark).2.form.store.isTouched "remark" = true) ∧
      ((∀ before, before <+: remarkCommands →
          (exec (reports before) leftRemark).2.form.store.isTouched "remark" = true) ↔
        "remark" ∈ leftRemark.form.store.schema.names ∨
          leftRemark.checksDuring remarkCommands = false) := by
  have htouched : leftRemark.form.store.isTouched "remark" = true := by decide
  have hdeclared : "remark" ∈ leftRemark.form.store.schema.names := by decide
  obtain ⟨hdeclaredStays, hexactly⟩ := touched_until_reset htouched remarkCommands
  have hresetless : ∀ command ∈ remarkCommands, command.Resetless :=
    fun command hmem => (lone_remarkCommands command hmem).resetless
  exact ⟨htouched, hdeclared, hdeclaredStays (peopled_ofForm _) hresetless hdeclared,
    hexactly (peopled_ofForm _) lone_remarkCommands⟩

/-- A name that is not declared is forgotten by a check, also if it was touched before. -/
theorem touched_name_forgotten :
    (run remarkForm [.setTouched "ghost"]).2.form.store.isTouched "ghost" = true ∧
      (run remarkForm [.setTouched "ghost", .validateForm]).2.form.store.isTouched "ghost" = false := by
  decide +kernel

end SchemaForm.Session
