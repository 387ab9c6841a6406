import SchemaForm.Proofs.Store
import SchemaForm.Proofs.Session.Passive

/-!
# The messages of a form in use

`set_value` and `validate_field` write messages and take them away one by one while a form is in use. This module
says that what `errors` holds is right all the same. A session may stop anywhere, also while the handler of a
submission is at work, so that what holds at the end of every session holds at any time.

* `checkedAfter` — whether the whole form was checked with no reset since, as the reports of a session
  tell it, with what handlers have done in between;
* `Tracks` — the invariant: if the form was checked in that way, then no message is missing;
* `messages_of_run` — in every session no message is stale, and after a check of the whole form none is
  missing either.
-/

namespace SchemaForm.Session

/-! ## Checks of the whole form -/

namespace Report

/-- Whether the command was not even begun. -/
def turnedAway (r : Report) : Bool :=
  match r.result with
  | .error .submissionInProgress => true
  | .error .endless => true
  | _ => false

theorem turnedAway_of_rejected {r : Report} (h : r.result = .error .submissionInProgress) :
    r.turnedAway = true := by
  rw [turnedAway, h]

/-- Whether a click has led to a submission. A submission that comes to its end says whether its values
were handed on; one that fails leaves no draft, while a click that saves a draft does. -/
def clickSubmits (r : Report) : Bool :=
  match r.result with
  | .ok (.flag _) => true
  | .error (.host _) => r.drafts.isEmpty
  | _ => false

/-- Whether the command has checked the whole form. -/
def checksForm (r : Report) : Bool :=
  if r.command = "click" then r.clickSubmits
  else ["validate_form", "submit", "start"].contains r.command && !r.turnedAway

/-- Whether the form was checked with no reset since, when the handler of the command begins. -/
def checkedBefore (before : Bool) (r : Report) : Bool :=
  if r.command = "reset" then false else before || r.checksForm

/-- How a report tells that a click has submitted. -/
theorem clickSubmits_iff {r : Report} :
    r.clickSubmits = true ↔
      (∃ flag, r.result = .ok (.flag flag)) ∨
        (∃ exception, r.result = .error (.host exception)) ∧ r.drafts = [] := by
  unfold clickSubmits
  split
  · next flag h => simp [h]
  · next exception h => simp [h]
  · next hflag hhost =>
    refine iff_of_false Bool.false_ne_true ?_
    rintro (⟨flag, h⟩ | ⟨⟨exception, h⟩, -⟩)
    · exact hflag flag h
    · exact hhost exception h

end Report

mutual

/-- Whether the form was checked with no reset since, after a command; `before` says so of the time before
it. -/
def checkedAfterOne (before : Bool) : Report → Bool
  | ⟨command, result, notes, received, drafts, during, after⟩ =>
    checkedAfter
      (Report.checkedBefore before ⟨command, result, notes, received, drafts, [], after⟩) during

/-- Whether the form was checked with no reset since, after several commands. -/
def checkedAfter (before : Bool) : List Report → Bool
  | [] => before
  | r :: rest => checkedAfter (checkedAfterOne before r) rest

end

theorem checkedAfterOne_eq (before : Bool) (r : Report) :
    checkedAfterOne before r = checkedAfter (r.checkedBefore before) r.during := by
  cases r
  rfl

theorem checkedAfter_append (before : Bool) (earlier : List Report) (r : Report) :
    checkedAfter before (earlier ++ [r]) = checkedAfterOne (checkedAfter before earlier) r := by
  induction earlier generalizing before with
  | nil => rfl
  | cons first rest ih => exact ih (checkedAfterOne before first)

/-! ## No message is missing -/

/-- If the form was checked, and not reset since then, no violation is missing. What counts is the time
before the command at work, as `before` tells it, and what its handler has reported so far. -/
def CompleteIfChecked (before : Bool) (store : Store) (during : List Report) : Prop :=
  checkedAfter before during = true → store.Complete

/-- The invariant of a session in which listeners give no commands. -/
abbrev Tracks (before : Bool) : State → Prop := Holds Never (CompleteIfChecked before)

/-- While no handler has reported anything, only the time before counts. -/
theorem tracks_of_nil {before : Bool} {s : State} (hduring : s.journal.during = [])
    (h : Holds Never (fun store _ => before = true → store.Complete) s) : Tracks before s := by
  refine ⟨h.present, h.named, ?_⟩
  rw [hduring]
  exact h.rest

theorem preserves_of_ne_reset (before : Bool) {operation : Store.Operation} (h : operation ≠ .reset) :
    Preserves (CompleteIfChecked before) operation :=
  fun _ _ hcomplete hchecked => (hcomplete hchecked).apply h

/-- A check finds what there is to be found, whatever there was before. -/
theorem completeIfChecked_validateForm (before : Bool) (store : Store) (during : List Report) :
    CompleteIfChecked before store.validateForm.store during :=
  fun _ => store.complete_validateForm

/-- Only one command resets the form. -/
theorem ne_reset_of_mem_operations {command : Command} (h : command.name ≠ "reset")
    {operation : Store.Operation} (hmem : operation ∈ command.operations) : operation ≠ .reset := by
  rintro rfl
  cases command <;> simp [Command.operations, Command.submission, Command.name] at hmem h

theorem submission_ne_reset {operation : Store.Operation} (hmem : operation ∈ Command.submission) :
    operation ≠ .reset := by
  rintro rfl
  simp [Command.submission] at hmem

variable {inner : Command → SessionM Result}

/-- The report of a command that is done in this state. -/
def reportIn (inner : Command → SessionM Result) (command : Command) (s : State) : Report :=
  reportOf command (exec (inner command) s).1 (exec (inner command) s).2

/-- What the invariant says of a command whose handler has not reported anything yet. -/
def TracksCommand (inner : Command → SessionM Result) (command : Command) : Prop :=
  ∀ before s, s.journal.during = [] → Tracks before s →
    Tracks ((reportIn inner command s).checkedBefore before) (exec (inner command) s).2

/-- One report more tells of one command more. -/
theorem tracks_report {command : Command} (h : TracksCommand inner command) {before : Bool} {s t : State}
    {found : Report} (hs : Tracks before s) (hexec : exec (report inner command) s = (.ok found, t)) :
    t.journal = s.journal ∧ Holds Never (fun store _ =>
      checkedAfterOne (checkedAfter before s.journal.during) found = true → store.Complete) t := by
  have hfresh : Tracks (checkedAfter before s.journal.during) { s with journal := {} } :=
    ⟨hs.present, hs.named, hs.rest⟩
  have hdone := h _ { s with journal := {} } rfl hfresh
  rw [exec_report, Prod.mk.injEq, Except.ok.injEq] at hexec
  obtain ⟨rfl, rfl⟩ := hexec
  refine ⟨rfl, hdone.present, hdone.named, fun hchecked => ?_⟩
  rw [checkedAfterOne_eq] at hchecked
  exact hdone.rest hchecked

/-- The commands of a handler keep track, since each of them does. -/
theorem tracks_reportAll {commands : List Command}
    (h : ∀ command ∈ commands, TracksCommand inner command) (before : Bool) :
    Keeps (Tracks before) (reportAll inner commands) := by
  induction commands with
  | nil => exact Keeps.pure ()
  | cons command rest ih =>
    have hrest := ih fun other hmem => h other (List.mem_cons_of_mem _ hmem)
    intro s hs
    obtain ⟨found, t, hexec⟩ := exists_report inner command s
    obtain ⟨hjournal, ht⟩ := tracks_report (h command (List.mem_cons_self ..)) hs hexec
    rw [reportAll, exec_bind_of_ok hexec, exec_bind_of_ok (exec_note _ t)]
    refine hrest _ ⟨ht.present, ht.named, fun hchecked => ht.rest ?_⟩
    have happend : checkedAfter before (t.journal.during ++ [found]) = true := hchecked
    rwa [checkedAfter_append, hjournal] at happend

/-! ### One command -/

/-- After a reset nothing is promised. -/
theorem tracks_reset {before : Bool} {s : State} (hduring : s.journal.during = [])
    (hs : Tracks before s) :
    Tracks false (exec (step inner .reset) s).2 := by
  refine Keeps.after (fun _ => Keeps.pure _) (holds_apply keeps_never hs fun _ hchecked => ?_)
  rw [hduring] at hchecked
  exact absurd hchecked Bool.false_ne_true

/-- A submission is turned away, or it begins with a check of the form. -/
theorem tracks_submit {before : Bool} {s : State} {handler : Reaction Command} (hs : Tracks before s)
    (hhandler : Keeps (Tracks true) (reportAll inner handler.commands)) (answer : Bool → Result) :
    let outcome := exec (do return answer (← submit inner handler)) s
    outcome.1 = .error .submissionInProgress ∨ Tracks true outcome.2 := by
  dsimp only
  cases hrejects : s.rejects with
  | true =>
    rw [exec_bind_of_error (exec_submit_of_rejects hrejects)]
    exact Or.inl rfl
  | false =>
    exact Or.inr (Keeps.after (fun _ => Keeps.pure _) (holds_submit keeps_never hs hrejects
      (fun _ => completeIfChecked_validateForm true _ _)
      (fun _ hmem => preserves_of_ne_reset true (submission_ne_reset hmem)) hhandler))

/-- A submission that stays pending has validated the form. -/
theorem tracks_start {before : Bool} {s : State} {id : String} {handler : Reaction Command}
    (hs : Tracks before s) (hhandler : Keeps (Tracks true) (reportAll inner handler.commands))
    (hchecks : (reportIn (step inner) (.start id handler) s).checksForm = true) :
    Tracks true (exec (step inner (.start id handler)) s).2 := by
  cases hrejects : s.rejects with
  | true =>
    rw [reportIn, step, exec_start_of_rejects hrejects] at hchecks
    exact absurd hchecks Bool.false_ne_true
  | false =>
    exact holds_start keeps_never hs hrejects (fun _ => completeIfChecked_validateForm true _ _)
      (fun _ hmem => preserves_of_ne_reset true (submission_ne_reset hmem)) hhandler

/-- A handler that has got a draft comes to its end, or it fails with the draft in its hands. -/
theorem draftHandler_cases (inner : Command → SessionM Result) (handler : Reaction Command) {s : State}
    (h : s.journal.drafts ≠ []) :
    let outcome := exec (do reportAll inner handler.commands; failWith handler.exception) s
    outcome.1 = .ok () ∨
      (∃ exception, outcome.1 = .error (.host exception)) ∧ outcome.2.journal.drafts ≠ [] := by
  obtain ⟨t, hexec, hdrafts, -⟩ := exec_reportAll inner handler.commands s
  dsimp only
  rw [exec_bind_of_ok hexec]
  cases handler.exception with
  | none => exact Or.inl rfl
  | some exception => exact Or.inr ⟨⟨exception, rfl⟩, fun hnil => h (hdrafts.symm.trans hnil)⟩

/-- If saving a draft fails, a draft is there. -/
theorem saveDraft_cases (inner : Command → SessionM Result) (handler : Reaction Command) (s : State) :
    let outcome := exec (saveDraft inner handler) s
    outcome.1 = .ok () ∨
      (∃ exception, outcome.1 = .error (.host exception)) ∧ outcome.2.journal.drafts ≠ [] := by
  dsimp only
  rw [saveDraft, exec_bind_of_ok (exec_currentForm s)]
  split
  · rw [exec_bind_of_ok (exec_note _ s)]
    exact draftHandler_cases inner handler (List.append_ne_nil_of_right_ne_nil _ (List.cons_ne_nil _ _))
  · exact Or.inl rfl

/-- A click that saves a draft does not look like a submission. -/
theorem not_clickSubmits_saveDraft {command : Command} (handler : Reaction Command) (s : State) :
    let outcome := exec (do saveDraft inner handler; return Result.nothing) s
    (reportOf command outcome.1 outcome.2).clickSubmits ≠ true := by
  intro outcome hsubmits
  cases hexec : exec (saveDraft inner handler) s with
  | mk result t =>
    have hcases := saveDraft_cases inner handler s
    rw [hexec] at hcases
    rcases hcases with hok | ⟨⟨exception, herror⟩, hdrafts⟩
    · have houtcome : outcome = (.ok .nothing, t) := exec_bind_of_ok (hexec.trans (congrArg (·, t) hok))
      rw [houtcome] at hsubmits
      exact absurd hsubmits Bool.false_ne_true
    · have houtcome : outcome = (.error (.host exception), t) :=
        exec_bind_of_error (hexec.trans (congrArg (·, t) herror))
      rw [houtcome] at hsubmits
      rcases Report.clickSubmits_iff.mp hsubmits with ⟨flag, hflag⟩ | ⟨-, hnil⟩
      · exact absurd hflag (by simp [reportOf])
      · exact hdrafts hnil

/-- A click on the button for submitting has validated the form, and another click has not. -/
theorem tracks_click {before : Bool} {s : State} {index : Int} {handler : Reaction Command}
    (hs : Tracks before s) (hhandler : Keeps (Tracks true) (reportAll inner handler.commands))
    (hchecks : (reportIn (step inner) (.click index handler) s).checksForm = true) :
    Tracks true (exec (step inner (.click index handler)) s).2 := by
  have hclick : (reportIn (step inner) (.click index handler) s).clickSubmits = true := hchecks
  -- looking for the button has left events, but the store is the one from before
  have hlooked : Tracks before s.looked := ⟨hs.present, hs.named, hs.rest⟩
  rw [reportIn, step] at hclick
  rw [step]
  cases hclicked : s.clicked? index with
  | none =>
    obtain ⟨result, hexec, rfl | ⟨kind, rfl⟩⟩ := exec_click_of_none inner handler hclicked
    · rw [hexec] at hclick
      exact absurd hclick Bool.false_ne_true
    · rw [hexec] at hclick
      exact absurd hclick Bool.false_ne_true
  | some action =>
    rw [exec_click hclicked] at hclick ⊢
    cases action with
    | submit =>
      rcases tracks_submit hlooked hhandler Result.flag with hrejected | htracks
      · rcases Report.clickSubmits_iff.mp hclick with ⟨flag, hflag⟩ | ⟨⟨exception, hhost⟩, -⟩
        · exact absurd (hrejected.symm.trans hflag) (by simp)
        · exact absurd (hrejected.symm.trans hhost) (by simp)
      · exact htracks
    | saveDraft => exact absurd hclick (not_clickSubmits_saveDraft handler _)

/-- A command that checks the form leaves no message missing. -/
theorem tracks_of_checksForm {command : Command} {before : Bool} {s : State} (hs : Tracks before s)
    (hhandler : Keeps (Tracks true) (reportAll inner command.handlerCommands))
    (hchecks : (reportIn (step inner) command s).checksForm = true) :
    Tracks true (exec (step inner command) s).2 := by
  cases command with
  | validateForm =>
    exact Keeps.after (fun _ => Keeps.pure _)
      (holds_validateForm keeps_never hs fun _ => completeIfChecked_validateForm true _ _)
  | submit event handler =>
    have hcases := tracks_submit hs hhandler fun returned =>
      if event then .answered returned 1 else .flag returned
    rcases hcases with hrejected | htracks
    · have hbegun : (!(reportIn (step inner) (.submit event handler) s).turnedAway) = true := hchecks
      rw [Report.turnedAway_of_rejected hrejected] at hbegun
      exact absurd hbegun Bool.false_ne_true
    · exact htracks
  | click index handler => exact tracks_click hs hhandler hchecks
  | start id handler => exact tracks_start hs hhandler hchecks
  | _ => exact absurd hchecks Bool.false_ne_true

/-- Each command keeps track if those of its handler do: the step lemma of the induction on the depth. -/
theorem tracks_step {command : Command} (hpassive : command.Passive)
    (hgiven : ∀ given ∈ command.handlerCommands, TracksCommand inner given) :
    TracksCommand (step inner) command := by
  intro before s hduring hs
  have hhandler : ∀ flag, Keeps (Tracks flag) (reportAll inner command.handlerCommands) :=
    tracks_reportAll hgiven
  have hname : (reportIn (step inner) command s).command = command.name := rfl
  rw [Report.checkedBefore, hname]
  by_cases hreset : command.name = "reset"
  · rw [if_pos hreset]
    cases command with
    | reset => exact tracks_reset hduring hs
    | _ => exact absurd hreset (by simp [Command.name])
  · rw [if_neg hreset]
    cases hchecks : (reportIn (step inner) command s).checksForm with
    | true =>
      rw [Bool.or_true]
      exact tracks_of_checksForm hs (hhandler true) hchecks
    | false =>
      -- nothing was checked, but as nothing was reset either, what there was is kept
      rw [Bool.or_false]
      have hlistener : ∀ given ∈ command.listenerCommands, Never given := by
        rw [hpassive.listener]
        exact fun _ hmem => absurd hmem List.not_mem_nil
      have hoperations : ∀ operation ∈ command.operations,
          Preserves (CompleteIfChecked before) operation :=
        fun _ hmem => preserves_of_ne_reset before (ne_reset_of_mem_operations hreset hmem)
      exact keeps_step keeps_never hoperations hlistener (hhandler before) s hs

/-! ### Sessions -/

/-- By induction on the depth, as a handler gives its commands one level deeper. -/
theorem tracks_perform (depth : Nat) :
    ∀ command : Command, command.Passive → TracksCommand (perform depth) command := by
  induction depth with
  | zero =>
    intro command _ before s hduring hs
    -- a command that is too deep does nothing, and its report is not that of a check
    have hchecks : (reportIn (perform 0) command s).checksForm = false := by cases command <;> rfl
    rw [Report.checkedBefore, hchecks, Bool.or_false]
    split
    · exact tracks_of_nil hduring ⟨hs.present, hs.named, fun h => absurd h Bool.false_ne_true⟩
    · exact hs
  | succ depth ih =>
    intro command hpassive
    exact tracks_step hpassive fun given hmem => ih given (hpassive.handler given hmem)

/-- The reports of several commands tell whether messages may be missing after them. -/
theorem tracks_reports {commands : List Command} (h : ∀ command ∈ commands, command.Passive)
    {before : Bool} {s : State} (hduring : s.journal.during = []) (hs : Tracks before s) :
    ∃ found t, exec (reports commands) s = (.ok found, t) ∧ t.journal.during = [] ∧
      Tracks (checkedAfter before found) t := by
  induction commands generalizing before s with
  | nil => exact ⟨[], s, rfl, hduring, hs⟩
  | cons command rest ih =>
    have hcommand := tracks_perform maxDepth command (h command (List.mem_cons_self ..))
    obtain ⟨first, t, hexec⟩ := exists_report (perform maxDepth) command s
    obtain ⟨hjournal, ht⟩ := tracks_report hcommand hs hexec
    -- the journal is empty again, so that the time before counts and nothing else
    have hafter : t.journal.during = [] := (congrArg Journal.during hjournal).trans hduring
    rw [hduring] at ht
    have htracks : Tracks (checkedAfterOne before first) t := tracks_of_nil hafter ht
    have hpassive : ∀ other ∈ rest, other.Passive := fun other hmem => h other (List.mem_cons_of_mem _ hmem)
    obtain ⟨found, u, hrest, hend⟩ := ih hpassive hafter htracks
    refine ⟨first :: found, u, ?_, hend⟩
    rw [reports, exec_bind_of_ok hexec, exec_bind_of_ok hrest]
    rfl

/-- What the reports of a session say of its end, if listeners give no commands. -/
theorem tracks_run {form : Form} {commands : List Command} (h : ∀ command ∈ commands, command.Passive) :
    Holds Never (fun store _ => checkedAfter false (run form commands).1 = true → store.Complete)
      (run form commands).2 := by
  have hbegin : Tracks false (.ofForm form) :=
    holds_ofForm fun hchecked => absurd hchecked Bool.false_ne_true
  obtain ⟨found, t, hexec, hduring, hend⟩ := tracks_reports h rfl hbegin
  rw [run_eq, hexec]
  refine ⟨hend.present, hend.named, fun hchecked => hend.rest ?_⟩
  rwa [hduring]

/-! ## Messages -/

/-- What holds of the store at any time, whatever the listeners do. -/
theorem consistent_run (settings : Settings) (schema : Schema) (layout? : Option Layout)
    (options : FormOptions) (commands : List Command) :
    let store := (run (.ofSchema settings schema layout? options) commands).2.form.store
    store.Consistent ∧ store.schema = schema := by
  have hoperation : ∀ (store : Store) operation, store.Consistent ∧ store.schema = schema →
      (store.apply operation).store.Consistent ∧ (store.apply operation).store.schema = schema :=
    fun store operation h => ⟨h.1.apply operation, (store.schema_apply operation).trans h.2⟩
  exact run_keeps hoperation commands ⟨Store.consistent_ofData schema options.data, rfl⟩

/-- **The messages of a form are right at any time.** A message names a property, and it is the one that a
check of the value which this property has now would give. After a check of the whole form, or after a
submission that was not turned away, and with no reset since, the messages are those of a check of all
values, provided that listeners give no commands. -/
theorem messages_of_run (settings : Settings) (schema : Schema) (layout? : Option Layout)
    (options : FormOptions) (commands : List Command) :
    let form := Form.ofSchema settings schema layout? options
    let store := (run form commands).2.form.store
    (∀ name message, store.messages.get? name = some message →
      name ∈ schema.names ∧
        (schema.violation? name (store.value name)).map Violation.message = some message) ∧
    ((∀ command ∈ commands, command.Passive) → checkedAfter false (run form commands).1 = true →
      ∀ name, store.messages.get? name =
        ((schema.violations store.values).get? name).map Violation.message) := by
  intro form store
  obtain ⟨hconsistent, hschema⟩ := consistent_run settings schema layout? options commands
  constructor
  · intro name message hmessage
    rw [← hschema]
    exact hconsistent.message_current hmessage
  · intro hpassive hchecked name
    have hcomplete : store.Complete := (tracks_run hpassive).rest hchecked
    rw [← hschema]
    exact hcomplete.get?_messages name

/-- A form that asks for a name and an age. -/
def enquiry : Schema :=
  { title := none
    description := none
    properties := .ofList [("name", {}), ("age", { type := .integer })]
    required := ["name"] }

/-- A session with a check that fails, a reset, and a submission in the middle of which a value is
written that is none for its property. -/
def enquirySession : List Command :=
  [.validateForm, .reset, .subscribe "log" {} false, .setValue "name" (.text "Ada"),
    .submit false { commands := [.setValue "age" (.text "old")] }, .setTouched "age"]

theorem passive_enquirySession : ∀ command ∈ enquirySession, command.Passive := by
  have hwrite : (Command.setValue "age" (.text "old")).Passive := .of_nil rfl rfl
  have hsubmit : (Command.submit false { commands := [.setValue "age" (.text "old")] }).Passive :=
    .intro rfl fun _ hmem => List.mem_singleton.mp hmem ▸ hwrite
  intro command hmem
  simp only [enquirySession, List.mem_cons, List.not_mem_nil, or_false] at hmem
  rcases hmem with rfl | rfl | rfl | rfl | rfl | rfl
  · exact .of_nil rfl rfl
  · exact .of_nil rfl rfl
  · exact .of_nil rfl rfl
  · exact .of_nil rfl rfl
  · exact hsubmit
  · exact .of_nil rfl rfl

/-- The store at the end of that session. -/
def enquiryStore : Store :=
  (run (.ofSchema {} enquiry none { takesSubmissions := true }) enquirySession).2.form.store

theorem messages_of_run_enquiry :
    (∀ command ∈ enquirySession, command.Passive) ∧
      checkedAfter false
        (run (.ofSchema {} enquiry none { takesSubmissions := true }) enquirySession).1 = true ∧
      enquiryStore.messages.get? "age" = some "Invalid type: expected a whole number" ∧
      ("age" ∈ enquiry.names ∧
        (enquiry.violation? "age" (enquiryStore.value "age")).map Violation.message =
          some "Invalid type: expected a whole number") ∧
      ∀ name, enquiryStore.messages.get? name =
        ((enquiry.violations enquiryStore.values).get? name).map Violation.message := by
  have hchecked : checkedAfter false
      (run (.ofSchema {} enquiry none { takesSubmissions := true }) enquirySession).1 = true := by
    decide +kernel
  have hmessage : enquiryStore.messages.get? "age" = some "Invalid type: expected a whole number" := by
    decide +kernel
  rw [enquiryStore] at hmessage ⊢
  obtain ⟨hcurrent, hcomplete⟩ :=
    messages_of_run {} enquiry none { takesSubmissions := true } enquirySession
  exact ⟨passive_enquirySession, hchecked, hmessage, hcurrent "age" _ hmessage,
    hcomplete passive_enquirySession hchecked⟩

end SchemaForm.Session
