import SchemaForm.Proofs.Session.Quiet

/-!
# What a submission hands on

`handle_submit` calls `validate_form` when it begins, and what is found then decides everything: whether
`on_submit` is called, and with which values. The form may be written to while the handler is at work, and it
may be reset; the submission does not look at it again.

* `exec_submit_of_quiet`, `exec_start_of_quiet` — a submission with a handler that comes to its end at
  once, and one that leaves its handler at work;
* `exec_end_of_quiet` — the end of a submission whose handler was at work;
* `gate_of_run` — all of it, in any session in which listeners only take notes.
-/

namespace SchemaForm.Session

variable {inner : Command → SessionM Result} {s t u : State}

/-! ## What is handed on -/

/-- What a handler gets of a submission: once the values, or nothing. -/
def State.handedOn (s : State) : List (OrderedMap Value) :=
  if s.passes && s.form.takesSubmissions then [s.coerced] else []

/-! ## Whole submissions -/

/-- A submission whose handler comes to its end at once. -/
theorem exec_submit_of_quiet {handler : Reaction Command}
    (hhandler : Keeps (Peopled Listener.Quiet) (reportAll inner handler.commands))
    (hs : Peopled Listener.Quiet s) (hadmitted : s.rejects = false) :
    let opened := (exec (openSubmission inner) s).2
    let handled := (exec (handOn inner handler s.coerced) opened).2
    ∃ t, exec (submit inner handler) s =
        (if s.passes then conclusion (s.handlerOutcome handler) else .ok false, t) ∧
      t.form.store = (if s.passes then handled.settled else opened).form.store ∧
      t.journal.received = s.journal.received ++ s.handedOn := by
  dsimp only
  obtain ⟨u, hopen, hu⟩ := exec_openSubmission_of_quiet inner hs hadmitted
  have htakes : u.form.takesSubmissions = s.form.takesSubmissions := by
    rw [hu.form]
    rfl
  have hreceived : u.journal.received = s.journal.received := hu.received
  cases hpasses : s.passes with
  | false =>
    rw [hpasses] at hopen
    rw [submit, exec_bind_of_ok hopen, hopen]
    refine ⟨u, rfl, rfl, ?_⟩
    rw [hreceived, State.handedOn, hpasses]
    exact (List.append_nil _).symm
  | true =>
    rw [hpasses] at hopen
    obtain ⟨v, hhand, hv⟩ := exec_handOn inner handler s.coerced u
    -- the handler may bring in listeners, but they only take notes, too
    have hquiet : Peopled Listener.Quiet v := by
      have hkept := kept_quiet.robust.keeps_handOn hhandler s.coerced u
        (hu.peopled ⟨hs.present, hs.named⟩)
      rwa [hhand] at hkept
    obtain ⟨t, hsettle, ht⟩ := exec_settle_of_quiet inner (u.handlerOutcome handler) hquiet
    rw [exec_submit_of_opened hopen, exec_bind_of_ok hhand, hopen, hhand, hsettle]
    refine ⟨t, ?_, ?_, ?_⟩
    · rw [State.handlerOutcome, htakes]
      rfl
    · rw [ht.form]
      rfl
    · rw [ht.received, State.handedOn, hpasses, Bool.true_and, ← htakes, ← hreceived]
      exact hv

/-- A submission that leaves its handler at work. -/
theorem exec_start_of_quiet (id : String) {handler : Reaction Command}
    (hhandler : Keeps (Peopled Listener.Quiet) (reportAll inner handler.commands))
    (hs : Peopled Listener.Quiet s) (hadmitted : s.rejects = false) :
    ∃ t, exec (start inner id handler) s =
        (.ok (if s.passes && s.form.takesSubmissions then .pending else .flag s.passes), t) ∧
      t.journal.received = s.journal.received ++ s.handedOn ∧
      ((s.passes && s.form.takesSubmissions) = true →
        Peopled Listener.Quiet t ∧ t.submissions.get? id = some handler.exception) := by
  obtain ⟨u, hopen, hu⟩ := exec_openSubmission_of_quiet inner hs hadmitted
  have htakes : u.form.takesSubmissions = s.form.takesSubmissions := by
    rw [hu.form]
    rfl
  have hreceived : u.journal.received = s.journal.received := hu.received
  have hquiet : Peopled Listener.Quiet u := hu.peopled ⟨hs.present, hs.named⟩
  rw [State.handedOn, ← htakes, ← hreceived]
  cases hpasses : s.passes with
  | false =>
    rw [hpasses] at hopen
    rw [start, exec_bind_of_ok hopen]
    exact ⟨u, rfl, (List.append_nil _).symm, fun h => by cases h⟩
  | true =>
    rw [hpasses] at hopen
    rw [start, exec_bind_of_ok hopen, if_pos rfl, exec_bind_of_ok (exec_currentForm u), Bool.true_and]
    cases u.form.takesSubmissions with
    | true =>
      obtain ⟨v, hhand, hv⟩ := exec_receive inner handler s.coerced u
      have hkept := keeps_receive (kept_quiet.robust.keeps_received s.coerced) hhandler u hquiet
      rw [hhand] at hkept
      refine ⟨_, exec_bind_of_ok hhand, hv, fun _ => ⟨⟨hkept.present, hkept.named⟩, ?_⟩⟩
      exact (OrderedMap.get?_insert v.submissions id id handler.exception).trans (if_pos rfl)
    -- without a handler of the host the values are dropped and the submission ends at once
    | false =>
      obtain ⟨v, hsettle, hv⟩ := exec_settle_of_quiet inner none
        (s := { u with events := u.events ++ [.discardedValues s.coerced.size] })
        ⟨hquiet.present, hquiet.named⟩
      refine ⟨v, ?_, ?_, fun h => by cases h⟩
      · exact (exec_bind_of_ok (exec_log _ u)).trans (exec_bind_of_ok hsettle)
      · exact hv.received.trans (List.append_nil _).symm

/-! ## Handlers at work -/

/-- How the command lets a handler come to its end that was to end in this exception, if it does. -/
def Command.outcome? (exception : Option HostException) : Command → Option (Option Failure)
  | .finish _ => some (exception.map .host)
  | .fail _ found => some (some (.host found))
  | .cancel _ => some (some .cancelled)
  | _ => none

/-- The end of a submission whose handler was at work, whatever has been done meanwhile. -/
theorem exec_end_of_quiet (inner : Command → SessionM Result) {id : String}
    {exception : Option HostException} {command : Command} {outcome : Option Failure} (hs : Peopled Listener.Quiet s)
    (hfound : s.submissions.get? id = some exception) (hticket : command.ticket? = some id)
    (hend : command.outcome? exception = some outcome) :
    ∃ t, exec (step inner command) s = ((conclusion outcome).map .flag, t) ∧
      t.form.store = { s.form.store with submitting := false } ∧
      t.journal.received = s.journal.received := by
  have htake := exec_takeSubmission id s
  rw [hfound] at htake
  obtain ⟨t, hsettle, ht⟩ := exec_settle_of_quiet inner outcome
    (s := { s with submissions := s.submissions.erase id }) ⟨hs.present, hs.named⟩
  have hexec : exec (do return Result.flag (← settle inner outcome))
      { s with submissions := s.submissions.erase id } = ((conclusion outcome).map .flag, t) := by
    rw [exec_bind, hsettle]
    cases outcome <;> rfl
  refine ⟨t, ?_, congrArg Form.store ht.form, ht.received⟩
  cases command with
  | finish name =>
    cases hticket
    cases hend
    exact (exec_bind_of_ok htake).trans hexec
  | fail name found =>
    cases hticket
    cases hend
    exact (exec_bind_of_ok htake).trans hexec
  | cancel name =>
    cases hticket
    cases hend
    exact (exec_bind_of_ok htake).trans hexec
  | _ => cases hend

/-! ## Sessions -/

/-- The command adds no listener that is not quiet, and it does not have to do with the submission of this
name. -/
def Command.QuietlySpares (id : String) (command : Command) : Prop :=
  command.AddsQuiet ∧ command.ticket? ≠ some id

/-- A submission under way stays under way while others come and go. -/
theorem indifferent_submission (id : String) (exception : Option HostException) :
    Indifferent (Command.QuietlySpares id) fun s => s.submissions.get? id = some exception where
  events _ h := h
  journal _ h := h
  listeners _ _ _ h := h
  writes _ _ _ _ h := h
  phase _ _ _ _ h := h
  submissions := by
    intro command hcommand other hother s h
    have hne : id ≠ other := by
      rintro rfl
      exact hcommand.2 hother
    refine ⟨?_, fun found => ?_⟩
    · exact (OrderedMap.get?_erase s.submissions other id).trans ((if_neg hne).trans h)
    · exact (OrderedMap.get?_insert s.submissions other id found).trans ((if_neg hne).trans h)

theorem kept_submission (id : String) (exception : Option HostException) :
    Kept (Command.QuietlySpares id) fun s =>
      Peopled Listener.Quiet s ∧ s.submissions.get? id = some exception :=
  kept_peopled (fun _ h => h.gives _) (fun hcommand => hcommand.self.1.quiet)
    (indifferent_submission id exception)

/-- What a submission tells the host that has made it. An event is held back once. -/
def answer (event returned : Bool) : Result :=
  if event then .answered returned 1 else .flag returned

/-- **A submission hands on what it finds when it begins, once, or nothing at all.** If no rule is broken
then, the handler gets the coerced values of that moment, and what comes of it is what comes of the
submission, whatever is done to the form in between. Otherwise no handler is called. The submission itself
writes no value. -/
theorem gate_of_run (settings : Settings) (schema : Schema) (layout? : Option Layout)
    (options : FormOptions) (commands : List Command)
    (hsilent : ∀ command ∈ commands, command.Silent)
    (hadmitted : (run (.ofSchema settings schema layout? options) commands).2.rejects = false)
    (depth : Nat) :
    let s := (run (.ofSchema settings schema layout? options) commands).2
    let store := s.form.store
    let violations := schema.violations store.values
    let coerced := schema.coerce store.values
    let called := violations.isEmpty && options.takesSubmissions
    let opened := (exec (openSubmission (perform depth)) s).2
    ((exec (openSubmission (perform depth)) s).1 =
        .ok (if violations.isEmpty then some coerced else none) ∧
      opened.form.store =
        { store with
          errors := violations
          touched := schema.names
          submitting := violations.isEmpty || store.submitting }) ∧
    (∀ event handler, (∀ command ∈ handler.commands, command.Silent) →
      let handled := (exec (handOn (perform depth) handler coerced) opened).2
      let outcome := if options.takesSubmissions then handler.exception.map Failure.host else none
      let ended := exec (perform (depth + 1) (.submit event handler)) s
      ended.1 = (if violations.isEmpty then conclusion outcome else .ok false).map (answer event) ∧
      ended.2.form.store =
        (if violations.isEmpty then { handled.form.store with submitting := false }
          else opened.form.store) ∧
      ended.2.journal.received = s.journal.received ++ (if called then [coerced] else [])) ∧
    (∀ id handler, (∀ command ∈ handler.commands, command.Silent) →
      let started := exec (perform (depth + 1) (.start id handler)) s
      started.1 = .ok (if called then .pending else .flag violations.isEmpty) ∧
      started.2.journal.received = s.journal.received ++ (if called then [coerced] else []) ∧
      (called = true →
        ∀ between, (∀ command ∈ between, command.Throughout (Command.QuietlySpares id)) →
        ∀ command outcome, command.ticket? = some id →
          command.outcome? handler.exception = some outcome →
        let later := (exec (reports between) started.2).2
        let ended := exec (perform (depth + 1) command) later
        ended.1 = (conclusion outcome).map .flag ∧
        ended.2.form.store = { later.form.store with submitting := false } ∧
        ended.2.journal.received = later.journal.received)) := by
  intro s store violations coerced called opened
  have hs : Peopled Listener.Quiet s := kept_quiet.run hsilent (peopled_ofForm _)
  have hschema : store.schema = schema :=
    run_keeps (I := fun store => store.schema = schema)
      (fun store operation h => (store.schema_apply operation).trans h) commands rfl
  have htakes : s.form.takesSubmissions = options.takesSubmissions :=
    congrArg Form.takesSubmissions (form_run (.ofSchema settings schema layout? options) commands)
  have hpasses : s.passes = violations.isEmpty := by
    rw [State.passes, show s.form.store.schema = schema from hschema]
  have hcoerced : s.coerced = coerced := by
    rw [State.coerced, show s.form.store.schema = schema from hschema]
  have hhanded : s.handedOn = if called then [coerced] else [] := by
    rw [State.handedOn, hpasses, htakes, hcoerced]
  have houtcome : ∀ handler, s.handlerOutcome handler =
      if options.takesSubmissions then handler.exception.map Failure.host else none := by
    intro handler
    rw [State.handlerOutcome, htakes]
  refine ⟨?_, ?_, ?_⟩
  · obtain ⟨u, hopen, hu⟩ := exec_openSubmission_of_quiet (perform depth) hs hadmitted
    have hstore : opened.form.store = s.opened.form.store := by
      rw [← hu.form]
      exact congrArg (fun outcome => outcome.2.form.store) hopen
    rw [hstore, ← hpasses, ← hcoerced]
    refine ⟨congrArg Prod.fst hopen, ?_⟩
    show Store.mk .. = Store.mk ..
    rw [hschema]
  · intro event handler hhandler handled outcome ended
    obtain ⟨t, hsubmit, hstore, hreceived⟩ :=
      exec_submit_of_quiet (kept_quiet.reportAll depth hhandler) hs hadmitted
    have hended : ended = _ := exec_answer (submit (perform depth) handler) (answer event) s
    rw [hsubmit, houtcome, hpasses] at hended
    rw [hpasses, hcoerced] at hstore
    rw [hended, ← hhanded]
    refine ⟨rfl, ?_, hreceived⟩
    rw [hstore]
    cases violations.isEmpty <;> rfl
  · intro id handler hhandler started
    obtain ⟨t, hstart, hreceived, hwork⟩ :=
      exec_start_of_quiet id (kept_quiet.reportAll depth hhandler) hs hadmitted
    have hstarted : started = _ := hstart
    rw [hpasses, htakes] at hstarted hwork
    rw [hstarted, ← hhanded]
    refine ⟨rfl, hreceived, fun hcalled between hbetween command outcome hticket hend => ?_⟩
    intro later ended
    -- whatever comes in between, the submission waits under its name
    obtain ⟨hquiet, hfound⟩ :=
      (kept_submission id handler.exception).reports hbetween t (hwork hcalled)
    obtain ⟨u, hexec, hrest⟩ := exec_end_of_quiet (perform depth) hquiet hfound hticket hend
    have hended : ended = _ := hexec
    rw [hended]
    exact ⟨rfl, hrest⟩

/-- One whole number, which may not be left empty. -/
def order : Schema :=
  { title := none
    description := none
    properties := .ofList [("quantity", { type := .integer })]
    required := ["quantity"] }

/-- A form of which a number is typed, -/
def orderSession : List Command :=
  [.subscribe "log" {} false, .setValue "quantity" (.text " 5 ")]

theorem silent_orderSession : ∀ command ∈ orderSession, command.Silent := by
  intro command hmem
  simp only [orderSession, List.mem_cons, List.not_mem_nil, or_false] at hmem
  rcases hmem with rfl | rfl
  · refine .of_nil ?_ rfl rfl
    intro id reaction once heq
    cases heq
    exact ⟨rfl, rfl⟩
  · exact .of_nil nofun rfl rfl

def orderState : State :=
  (run (.ofSchema {} order none { takesSubmissions := true }) orderSession).2

/-- that is submitted, -/
def orderStarted : State := (exec (perform 1 (.start "first" {})) orderState).2

/-- and that is written to and reset while the handler is at work. -/
def orderEdits : List Command := [.setValue "quantity" (.text "9"), .reset]

theorem spares_orderEdits :
    ∀ command ∈ orderEdits, command.Throughout (Command.QuietlySpares "first") := by
  intro command hmem
  simp only [orderEdits, List.mem_cons, List.not_mem_nil, or_false] at hmem
  rcases hmem with rfl | rfl
  · exact .of_nil ⟨nofun, nofun⟩ rfl rfl
  · exact .of_nil ⟨nofun, nofun⟩ rfl rfl

def orderEdited : State := (exec (reports orderEdits) orderStarted).2

theorem gate_of_run_order :
    (∀ command ∈ orderSession, command.Silent) ∧ orderState.rejects = false ∧
      (∀ command ∈ orderEdits, command.Throughout (Command.QuietlySpares "first")) ∧
      orderStarted.journal.received = [.ofList [("quantity", .int 5)]] ∧
      (exec (perform 1 (.finish "first")) orderEdited).1 = .ok (.flag true) ∧
      (exec (perform 1 (.finish "first")) orderEdited).2.form.store =
        { orderEdited.form.store with submitting := false } := by
  have hadmitted : orderState.rejects = false := by decide +kernel
  have hcalled : ((order.violations orderState.form.store.values).isEmpty && true) = true := by
    decide +kernel
  have hcoerced : order.coerce orderState.form.store.values = .ofList [("quantity", .int 5)] := by
    rfl
  obtain ⟨-, -, hstart⟩ := gate_of_run {} order none { takesSubmissions := true } orderSession
    silent_orderSession hadmitted 0
  obtain ⟨-, hreceived, hend⟩ := hstart "first" {} fun _ hmem => absurd hmem List.not_mem_nil
  obtain ⟨hresult, hstore, -⟩ :=
    hend hcalled orderEdits spares_orderEdits (.finish "first") none rfl rfl
  refine ⟨silent_orderSession, hadmitted, spares_orderEdits, ?_, hresult, hstore⟩
  have hhanded : orderStarted.journal.received =
      orderState.journal.received ++ [order.coerce orderState.form.store.values] :=
    hreceived.trans (congrArg _ (if_pos hcalled))
  rw [hhanded, hcoerced]
  rfl

end SchemaForm.Session
