import SchemaForm.Proofs.Session.Execution

/-!
# Properties that commands keep

A command writes to the store through operations and tells the listeners of it. Beside that it keeps
books: events, notes, and the list of those who listen. This module follows a property of states through
all that a command does, whatever the property says of the store.

* `Command.operations`, `Command.listenerCommands`, `Command.handlerCommands` — what a command does to
  the store itself, and which commands come of it later;
* `Peopled` — what is true of everybody who listens;
* `Steady` — a property that bookkeeping does not touch, and under which listeners give commands of one
  kind only; `Robust` — one that does not say either what handlers were given;
* `Steady.ensures_step` — one command that neither begins nor ends a submission keeps such a property, and
  is not turned away;
* `Steady.keeps_step` — any command keeps it, if its operations and its handler do, and if what is handed
  on may be noted;
* `keeps_perform`, `keeps_reports` — the same for commands inside each other, and for whole sessions.
-/

namespace SchemaForm.Session

/-! ## What comes of a command -/

namespace Command

/-- The commands of the listener that the command adds. -/
def listenerCommands : Command → List Command
  | .subscribe _ reaction _ => reaction.commands
  | _ => []

/-- The commands of the handler to which the command may lead. -/
def handlerCommands : Command → List Command
  | .submit _ handler => handler.commands
  | .click _ handler => handler.commands
  | .saveDraft handler => handler.commands
  | .start _ handler => handler.commands
  | _ => []

/-- What a submission does to the store, on the whole. -/
def submission : List Store.Operation := [.validateForm, .setSubmitting true, .setSubmitting false]

/-- What the command itself may do to the store. -/
def operations : Command → List Store.Operation
  | .setValue name value => [.setValue name value]
  | .setTouched name => [.setTouched name]
  | .validateField name => [.validateField name]
  | .validateForm => [.validateForm]
  | .reset => [.reset]
  | .setSubmitting flag => [.setSubmitting flag]
  | .change name value => [.setValue name value]
  | .blur name => [.setTouched name]
  | .submit .. => submission
  | .click .. => submission
  | .start .. => submission
  | .finish _ => [.setSubmitting false]
  | .fail .. => [.setSubmitting false]
  | .cancel _ => [.setSubmitting false]
  | _ => []

/-- Whether the command may begin or end a submission. -/
def submits : Command → Bool
  | .submit .. => true
  | .click .. => true
  | .start .. => true
  | .finish _ => true
  | .fail .. => true
  | .cancel _ => true
  | _ => false

/-- The name of the submission that the command begins or ends, if it has one. -/
def ticket? : Command → Option String
  | .start id _ => some id
  | .finish id => some id
  | .fail id _ => some id
  | .cancel id => some id
  | _ => none

end Command

variable {inner : Command → SessionM Result} {P Q : State → Prop} {E : Failure → Prop}
  {L : Command → Prop} {G : Listener → Prop}

/-! ## Who listens -/

/-- The listener reacts with commands of this kind only. -/
def Listener.Gives (L : Command → Prop) (listener : Listener) : Prop :=
  ∀ command ∈ listener.reaction.commands, L command

/-- All listeners are of the kind `G`. Those that have a name count even while they are away, since they
may be added again. -/
structure Peopled (G : Listener → Prop) (s : State) : Prop where
  present : ∀ listener ∈ s.listeners, G listener
  named : ∀ {id listener}, s.subscriptions.get? id = some listener → G listener

namespace Peopled

theorem keeps_removeListener (listener : Listener) : Keeps (Peopled G) (removeListener listener) :=
  fun _ h => ⟨fun other hmem => h.present other (List.mem_of_mem_eraseP hmem), h.named⟩

theorem keeps_addListener (id : String) {listener : Listener} (hlistener : G listener) :
    Keeps (Peopled G) (addListener id listener) := by
  intro s h
  refine ⟨fun other hmem => ?_, fun {name other} hfound => ?_⟩
  · rcases List.mem_append.mp hmem with hold | hnew
    · exact h.present other hold
    · rw [List.mem_singleton.mp hnew]
      exact hlistener
  · have hget : (s.subscriptions.insert id listener).get? name = some other := hfound
    rw [OrderedMap.get?_insert] at hget
    by_cases hname : name = id
    · rw [if_pos hname, Option.some.injEq] at hget
      rw [← hget]
      exact hlistener
    · rw [if_neg hname] at hget
      exact h.named hget

end Peopled

/-! ## Robust properties -/

/-- The property says nothing about what is logged, what is noted outside of the reports of handlers, or
who listens. -/
structure Insensitive (Q : State → Prop) : Prop where
  keeps_log : ∀ events, Keeps Q (log events)
  keeps_note : ∀ {write : Journal → Journal}, (∀ journal, (write journal).during = journal.during) →
    Keeps Q (note write)
  listeners : ∀ {s : State} (listeners : List Listener) (subscriptions : OrderedMap Listener)
    (listenerCount : Nat), Q s → Q { s with listeners, subscriptions, listenerCount }

/-- Listeners give commands of the kind `L` only, and bookkeeping keeps the property, but for what is
noted of handlers. -/
structure Steady (L : Command → Prop) (P : State → Prop) : Prop where
  gives : ∀ {s}, P s → ∀ listener ∈ s.listeners, listener.Gives L
  keeps_log : ∀ events, Keeps P (log events)
  keeps_note : ∀ {write : Journal → Journal}, (∀ journal, (write journal).during = journal.during) →
    (∀ journal, (write journal).received = journal.received) → Keeps P (note write)
  keeps_removeListener : ∀ listener, Keeps P (removeListener listener)
  addNamed : ∀ {s : State} (id : String) {other : String} {listener : Listener},
    s.subscriptions.get? other = some listener → P s → P (exec (addListener id listener) s).2

/-- The note that a handler was given these values. -/
def noteReceived (values : OrderedMap Value) : SessionM Unit :=
  note fun journal => { journal with received := journal.received ++ [values] }

/-- The property does not say either what handlers were given. -/
structure Robust (L : Command → Prop) (P : State → Prop) : Prop extends Steady L P where
  keeps_received : ∀ values, Keeps P (noteReceived values)

theorem robust_peopled (hG : ∀ listener, G listener → listener.Gives L) (hQ : Insensitive Q) :
    Robust L fun s => Peopled G s ∧ Q s where
  gives h listener hmem := hG listener (h.1.present listener hmem)
  keeps_log events s h := ⟨⟨h.1.present, h.1.named⟩, hQ.keeps_log events s h.2⟩
  keeps_note hduring _ s h := ⟨⟨h.1.present, h.1.named⟩, hQ.keeps_note hduring s h.2⟩
  keeps_removeListener listener s h :=
    ⟨Peopled.keeps_removeListener listener s h.1, hQ.listeners _ s.subscriptions s.listenerCount h.2⟩
  addNamed id _ _ hfound h :=
    ⟨Peopled.keeps_addListener id (h.1.named hfound) _ h.1, hQ.listeners _ _ _ h.2⟩
  keeps_received values s h := by
    have hkeeps : Keeps Q (noteReceived values) := hQ.keeps_note fun _ => rfl
    exact ⟨⟨h.1.present, h.1.named⟩, hkeeps s h.2⟩

theorem keeps_subscribe (hQ : Insensitive Q) (id : String) {reaction : Reaction Command} {once : Bool}
    (hlistener : ∀ number, G { number, id, reaction, once }) :
    Keeps (fun s => Peopled G s ∧ Q s) (subscribe id reaction once) := by
  intro s h
  rw [subscribe, exec_bind_of_ok (exec_get s), exec_bind_of_ok (exec_modify _ s)]
  have hcounted : Peopled G { s with listenerCount := s.listenerCount + 1 } :=
    ⟨h.1.present, h.1.named⟩
  refine ⟨Peopled.keeps_addListener id (hlistener _) _ hcounted, ?_⟩
  exact hQ.listeners (s := s) _ _ (s.listenerCount + 1) h.2

/-- The state in which an operation has been done, and nobody has been told of it yet. -/
def State.written (s : State) (operation : Store.Operation) : State :=
  { s with form := s.form.withStore (s.form.store.apply operation).store }

/-- What the operation writes to the store does not put an end to the property. -/
def Writes (P : State → Prop) (operation : Store.Operation) : Prop := ∀ s, P s → P (s.written operation)

/-! ## Parts of commands -/

theorem exec_apply_eq (operation : Store.Operation) (s : State) :
    exec (apply inner operation) s =
      exec (match (s.form.store.apply operation).notice with
        | some notice => tell inner notice
        | none => pure ())
      { s.written operation with
        events := s.events ++ (s.form.store.apply operation).events } := by
  rw [apply, exec_bind_of_ok (exec_currentStore s)]
  dsimp only
  rw [exec_bind_of_ok (exec_modify _ s), exec_bind_of_ok (exec_log _ _)]
  rfl

/-- Looking at a form leaves nothing but events. -/
theorem exec_currentView (s : State) :
    exec currentView s =
      (match s.form.view with
        | .ok view => .ok view
        | .error missing => .error (.missingFallback missing.kind),
        { s with events := s.events ++ s.form.viewEvents }) := by
  rw [currentView, exec_bind_of_ok (exec_currentForm s), exec_bind_of_ok (exec_log _ s)]
  cases s.form.view <;> rfl

theorem ensures_giveAll {commands : List Command}
    (h : ∀ command ∈ commands, Ensures P E (inner command)) : Ensures P E (giveAll inner commands) := by
  induction commands with
  | nil => exact .pure ()
  | cons command rest ih =>
    have hrest := ih fun other hmem => h other (List.mem_cons_of_mem _ hmem)
    exact .bind (h command (List.mem_cons_self ..)) fun _ => hrest

/-! ## Submissions -/

/-- The state in which a submission checks the form. -/
def State.validating (s : State) : State := { s with phase := .validating }

/-- Whether a submission would be turned away. -/
def State.rejects (s : State) : Bool := s.form.store.submitting && s.form.rejectsConcurrent

/-- The first half of a submission that is not turned away. -/
def opening (inner : Command → SessionM Result) : SessionM (Option (OrderedMap Value)) := do
  enter .validating
  if ← validateForm inner then
    apply inner (.setSubmitting true)
    enter .submitting
    let store ← currentStore
    let values := store.schema.coerce store.values
    log (store.schema.coerceEvents store.values ++ [.startedSubmission values.size])
    return some values
  else
    log [.blockedSubmission (← currentStore).errors.size]
    enter .idle
    return none

/-- A submission that is turned away has been logged, and nothing else. -/
theorem exec_openSubmission_of_rejects {s : State} (h : s.rejects = true) :
    exec (openSubmission inner) s =
      (.error .submissionInProgress, { s with events := s.events ++ [.rejectedSubmission] }) := by
  rw [openSubmission, exec_bind_of_ok (exec_currentForm s)]
  dsimp only
  rw [State.rejects] at h
  rw [if_pos h]
  rfl

theorem exec_openSubmission {s : State} (h : s.rejects = false) :
    exec (openSubmission inner) s = exec (opening inner) s := by
  rw [openSubmission, exec_bind_of_ok (exec_currentForm s)]
  dsimp only
  rw [State.rejects] at h
  rw [h]
  rfl

theorem exec_submit_of_rejects {s : State} {handler : Reaction Command} (h : s.rejects = true) :
    exec (submit inner handler) s =
      (.error .submissionInProgress, { s with events := s.events ++ [.rejectedSubmission] }) :=
  exec_bind_of_error (exec_openSubmission_of_rejects h)

theorem exec_start_of_rejects {s : State} {id : String} {handler : Reaction Command}
    (h : s.rejects = true) :
    exec (start inner id handler) s =
      (.error .submissionInProgress, { s with events := s.events ++ [.rejectedSubmission] }) :=
  exec_bind_of_error (exec_openSubmission_of_rejects h)

/-! ## Clicks -/

/-- The action that a click at this place leads to, if the form can be shown. -/
def State.clicked? (s : State) (index : Int) : Option Form.Action :=
  match s.form.view with
  | .ok _ => (buttonIndex s.form.actions.length index).bind (s.form.actions[·]?)
  | .error _ => none

/-- The state after somebody has looked at the form. -/
def State.looked (s : State) : State := { s with events := s.events ++ s.form.viewEvents }

/-- What a button does. -/
def press (inner : Command → SessionM Result) (handler : Reaction Command) :
    Form.Action → SessionM Result
  | .submit => do return .flag (← submit inner handler)
  | .saveDraft => do
    saveDraft inner handler
    return .nothing

/-- A click looks at the form, and then it does what the button does. -/
theorem exec_click {index : Int} {handler : Reaction Command} {s : State} {action : Form.Action}
    (h : s.clicked? index = some action) :
    exec (click inner index handler) s = exec (press inner handler action) s.looked := by
  have hlook := exec_currentView s
  rw [State.clicked?] at h
  rw [click, exec_bind_of_ok (exec_currentForm s)]
  cases hview : s.form.view with
  | error missing =>
    rw [hview] at h
    cases h
  | ok view =>
    rw [hview] at hlook h
    rw [exec_bind_of_ok hlook]
    dsimp only at h ⊢
    rw [h]
    cases action <;> rfl

/-- A click that hits no button does nothing more, and so does one on a form that cannot be shown. -/
theorem exec_click_of_none (inner : Command → SessionM Result) (handler : Reaction Command)
    {index : Int} {s : State} (h : s.clicked? index = none) :
    ∃ result, exec (click inner index handler) s = (result, s.looked) ∧
      (result = .ok .noButton ∨ ∃ kind, result = .error (.missingFallback kind)) := by
  have hlook := exec_currentView s
  rw [State.clicked?] at h
  rw [click, exec_bind_of_ok (exec_currentForm s)]
  cases hview : s.form.view with
  | error missing =>
    rw [hview] at hlook
    exact ⟨_, exec_bind_of_error hlook, Or.inr ⟨missing.kind, rfl⟩⟩
  | ok view =>
    rw [hview] at hlook h
    rw [exec_bind_of_ok hlook]
    dsimp only at h ⊢
    rw [h]
    exact ⟨_, rfl, Or.inl rfl⟩

/-! ## Reports -/

/-- The report of a command that came to this result and left this state. -/
def reportOf (command : Command) (result : Except Failure Result) (s : State) : Report where
  command := command.name
  result := result
  notes := s.journal.notes
  received := s.journal.received
  drafts := s.journal.drafts
  during := s.journal.during
  after := s.status

/-- A report never fails, and afterwards the journal is what it was before. -/
theorem exec_report (command : Command) (s : State) :
    exec (report inner command) s =
      (.ok (reportOf command (exec (inner command) { s with journal := {} }).1
          (exec (inner command) { s with journal := {} }).2),
        { (exec (inner command) { s with journal := {} }).2 with journal := s.journal }) := by
  rw [report, exec_bind_of_ok (exec_get s), exec_bind_of_ok (exec_note _ s),
    exec_bind_of_ok (exec_observing _ _)]
  rfl

theorem exists_report (inner : Command → SessionM Result) (command : Command) (s : State) :
    ∃ found t, exec (report inner command) s = (.ok found, t) := ⟨_, _, exec_report command s⟩

/-- The commands of a handler do not stop it, and they note nothing in its place. -/
theorem exec_reportAll (inner : Command → SessionM Result) (commands : List Command) (s : State) :
    ∃ t, exec (reportAll inner commands) s = (.ok (), t) ∧ t.journal.drafts = s.journal.drafts ∧
      t.journal.received = s.journal.received := by
  induction commands generalizing s with
  | nil => exact ⟨s, rfl, rfl, rfl⟩
  | cons command rest ih =>
    rw [reportAll, exec_bind_of_ok (exec_report command s), exec_bind_of_ok (exec_note _ _)]
    exact ih _

theorem keeps_receive {values : OrderedMap Value} {handler : Reaction Command}
    (hreceived : Keeps P (noteReceived values))
    (hhandler : Keeps P (reportAll inner handler.commands)) :
    Keeps P (receive inner values handler) :=
  Keeps.bind hreceived fun _ => hhandler

/-- What submissions hand on may be noted without harm to the property. -/
def Delivers (inner : Command → SessionM Result) (P : State → Prop) : Prop :=
  ∀ {s : State}, P s → ∀ {values t}, exec (openSubmission inner) s = (.ok (some values), t) →
    Keeps P (noteReceived values)

/-! ## What steady properties survive -/

namespace Steady

variable (hP : Steady L P)
include hP

theorem ensures_log (events : List Event) : Ensures P E (log events) :=
  .of_ok (hP.keeps_log events) fun _ => ⟨(), _, rfl⟩

/-- It is enough to look at submissions that are not turned away. -/
theorem of_admitted {α : Type} {act : SessionM α} {s : State}
    (hrejected : s.rejects = true → exec act s =
      (.error .submissionInProgress, { s with events := s.events ++ [.rejectedSubmission] }))
    (hadmitted : s.rejects = false → P s → P (exec act s).2) (h : P s) : P (exec act s).2 := by
  cases hrejects : s.rejects with
  | true =>
    rw [hrejected hrejects]
    exact hP.keeps_log [.rejectedSubmission] s h
  | false => exact hadmitted hrejects h

/-! ### Steps that are never turned away

Such a step may fail for many reasons: a listener fails, a name is unknown, a view cannot be drawn. That a
submission is under way is a reason for submissions only. -/

section
variable (hE : ∀ failure, failure ≠ .submissionInProgress → E failure)
include hE

theorem ensures_currentView : Ensures P E currentView := by
  refine .bind .currentForm fun form => .bind (hP.ensures_log _) fun _ => ?_
  cases form.view with
  | ok view => exact .pure view
  | error missing => exact .throw (hE _ (by simp))

theorem ensures_currentHtml : Ensures P E currentHtml := by
  refine .bind (hP.ensures_currentView hE) fun view => ?_
  cases view.toHtml with
  | ok text => exact .pure _
  | error failure => exact .throw (hE _ (by simp))

theorem ensures_subscribeAgain (id other : String) :
    Ensures P E (do
      addListener id (← orUnknown other ((← get).subscriptions.get? other))
      return Result.nothing) := by
  constructor
  · intro s h
    rw [exec_bind_of_ok (exec_get s)]
    cases hfound : s.subscriptions.get? other with
    | none => exact h
    | some listener =>
      rw [exec_bind_of_ok (show exec (orUnknown other (some listener)) s = (.ok listener, s) from rfl)]
      exact Keeps.after (fun _ => Keeps.pure _) (hP.addNamed id hfound h)
  · intro s _ failure hfails
    rw [exec_bind_of_ok (exec_get s)] at hfails
    cases hfound : s.subscriptions.get? other with
    | none =>
      rw [hfound] at hfails
      cases hfails
      exact hE _ (by simp)
    | some listener =>
      rw [hfound] at hfails
      cases hfails

theorem ensures_unsubscribe (id : String) :
    Ensures P E (do
      removeListener (← orUnknown id ((← get).subscriptions.get? id))
      return Result.nothing) := by
  refine .bind .get fun s => .bind (.orUnknown (hE _ (by simp)) _) fun listener => ?_
  exact .bind (.of_ok (hP.keeps_removeListener listener) fun _ => ⟨(), _, rfl⟩) fun _ => .pure _

/-- Commands of a handler are reported, whatever comes of them. -/
theorem ensures_saveDraft {handler : Reaction Command}
    (hhandler : Keeps P (reportAll inner handler.commands)) : Ensures P E (saveDraft inner handler) := by
  refine .bind .currentForm fun form => ?_
  split
  · have hnote : Ensures P E
        (note fun journal => { journal with drafts := journal.drafts ++ [form.store.values] }) :=
      .of_ok (hP.keeps_note (fun _ => rfl) fun _ => rfl) fun _ => ⟨(), _, rfl⟩
    refine .bind hnote fun _ => ?_
    refine .bind (.of_ok hhandler fun s => ?_) fun _ => .failWith (fun _ => hE _ (by simp)) _
    obtain ⟨t, hexec, -⟩ := exec_reportAll inner handler.commands s
    exact ⟨(), t, hexec⟩
  · exact hP.ensures_log _

variable (hinner : ∀ command, L command → Ensures P E (inner command))
include hinner

theorem ensures_tellListener (notice : Notice) {listener : Listener} (hgives : listener.Gives L) :
    Ensures P E (tellListener inner notice listener) := by
  have hnote : Ensures P E
      (note fun journal => { journal with notes := journal.notes ++ [(listener.id, notice)] }) :=
    .of_ok (hP.keeps_note (fun _ => rfl) fun _ => rfl) fun _ => ⟨(), _, rfl⟩
  have hgive : Ensures P E (giveAll inner listener.reaction.commands) :=
    ensures_giveAll fun command hmem => hinner command (hgives command hmem)
  have hfail : Ensures P E (failWith listener.reaction.exception) :=
    .failWith (fun _ => hE _ (by simp)) _
  refine .bind hnote fun _ => .bind hgive fun _ => ?_
  split
  · exact .bind (.of_ok (hP.keeps_removeListener listener) fun _ => ⟨(), _, rfl⟩) fun _ => hfail
  · exact hfail

theorem ensures_tellAll (notice : Notice) {listeners : List Listener}
    (hgives : ∀ listener ∈ listeners, listener.Gives L) :
    Ensures P E (tellAll inner notice listeners) := by
  induction listeners with
  | nil => exact .pure ()
  | cons listener rest ih =>
    have hfirst := hP.ensures_tellListener hE hinner notice (hgives listener (List.mem_cons_self ..))
    have hrest := ih fun other hmem => hgives other (List.mem_cons_of_mem _ hmem)
    exact .bind hfirst fun _ => hrest

theorem ensures_tell (notice : Notice) : Ensures P E (tell inner notice) := by
  constructor
  · intro s h
    rw [tell, exec_bind_of_ok (exec_get s)]
    exact (hP.ensures_tellAll hE hinner notice (hP.gives h)).keeps s h
  · intro s h
    rw [tell, exec_bind_of_ok (exec_get s)]
    exact (hP.ensures_tellAll hE hinner notice (hP.gives h)).reason s h

theorem ensures_apply {operation : Store.Operation} (hwrites : Writes P operation) :
    Ensures P E (apply inner operation) := by
  -- the store has been written when the listeners are told
  have htold : ∀ notice : Option Notice, Ensures P E (match notice with
      | some notice => tell inner notice
      | none => Pure.pure ()) := by
    intro notice
    cases notice with
    | some notice => exact hP.ensures_tell hE hinner notice
    | none => exact .pure ()
  constructor
  · intro s h
    rw [exec_apply_eq]
    exact (htold _).keeps _ (hP.keeps_log _ _ (hwrites s h))
  · intro s h
    rw [exec_apply_eq]
    exact (htold _).reason _ (hP.keeps_log _ _ (hwrites s h))

theorem ensures_applyOnly {operation : Store.Operation} (hwrites : Writes P operation) :
    Ensures P E (applyOnly inner operation) :=
  .bind (hP.ensures_apply hE hinner hwrites) fun _ => .pure _

theorem ensures_useWidget (name : String) {operation : Store.Operation}
    (hwrites : Writes P operation) : Ensures P E (useWidget inner name operation) := by
  refine .bind (hP.ensures_currentView hE) fun view => ?_
  cases view.widget? name with
  | some _ => exact hP.ensures_applyOnly hE hinner hwrites
  | none => exact .pure _

/-- The first half of a submission that is not turned away when it begins. -/
theorem ensures_opening (henter : ∀ phase, Keeps P (enter phase))
    (hoperations : ∀ operation ∈ Command.submission, Writes P operation) :
    Ensures P E (opening inner) := by
  have hphase : ∀ phase, Ensures P E (enter phase) := fun phase =>
    .of_ok (henter phase) fun _ => ⟨(), _, rfl⟩
  have hcheck :=
    hP.ensures_apply hE hinner (hoperations .validateForm (by simp [Command.submission]))
  have hbegin :=
    hP.ensures_apply hE hinner (hoperations (.setSubmitting true) (by simp [Command.submission]))
  refine .bind (hphase _) fun _ => .bind (.bind hcheck fun _ => ?_) fun valid => ?_
  · exact .bind .currentStore fun _ => .pure _
  cases valid with
  | true =>
    refine .bind hbegin fun _ => .bind (hphase _) fun _ => .bind .currentStore fun _ => ?_
    exact .bind (hP.ensures_log _) fun _ => .pure _
  | false =>
    refine .bind .currentStore fun _ => .bind (hP.ensures_log _) fun _ => ?_
    exact .bind (hphase _) fun _ => .pure _

/-- One command that neither begins nor ends a submission. -/
theorem ensures_step {command : Command} (hsubmits : command.submits = false)
    (hoperations : ∀ operation ∈ command.operations, Writes P operation)
    (hsubscribe : ∀ {id reaction once}, command = .subscribe id reaction once →
      Keeps P (subscribe id reaction once))
    (hhandler : Keeps P (reportAll inner command.handlerCommands)) :
    Ensures P E (step inner command) := by
  -- what most commands need to know of their only operation
  have hone : ∀ {operation}, command.operations = [operation] → Writes P operation :=
    fun h => hoperations _ (h ▸ List.mem_singleton_self _)
  cases command with
  | setValue name value => exact hP.ensures_applyOnly hE hinner (hone rfl)
  | setTouched name => exact hP.ensures_applyOnly hE hinner (hone rfl)
  | validateField name =>
    exact .bind .currentStore fun _ => .bind (hP.ensures_apply hE hinner (hone rfl)) fun _ => .pure _
  | validateForm =>
    refine .bind (.bind (hP.ensures_apply hE hinner (hone rfl)) fun _ => ?_) fun _ => .pure _
    exact .bind .currentStore fun _ => .pure _
  | reset => exact hP.ensures_applyOnly hE hinner (hone rfl)
  | setSubmitting flag => exact hP.ensures_applyOnly hE hinner (hone rfl)
  | query name => exact .bind (.bind .currentStore fun _ => .pure _) fun _ => .pure _
  | coerce => exact .bind .currentStore fun _ => .bind (hP.ensures_log _) fun _ => .pure _
  | render => exact .bind (hP.ensures_currentView hE) fun _ => .pure _
  | html => exact hP.ensures_currentHtml hE
  | widgets => exact .bind (hP.ensures_currentView hE) fun _ => .pure _
  | change name value => exact hP.ensures_useWidget hE hinner name (hone rfl)
  | blur name => exact hP.ensures_useWidget hE hinner name (hone rfl)
  | subscribe id reaction once =>
    exact .bind (.of_ok (hsubscribe rfl) fun _ => ⟨(), _, rfl⟩) fun _ => .pure _
  | subscribeAgain id other => exact hP.ensures_subscribeAgain hE id other
  | unsubscribe id => exact hP.ensures_unsubscribe hE id
  | saveDraft handler => exact .bind (hP.ensures_saveDraft hE hhandler) fun _ => .pure _
  | submit event handler => cases hsubmits
  | click index handler => cases hsubmits
  | start id handler => cases hsubmits
  | finish id => cases hsubmits
  | fail id exception => cases hsubmits
  | cancel id => cases hsubmits

end

/-! ### Operations -/

variable (hinner : ∀ command, L command → Keeps P (inner command))
include hinner

/-- The store is written before the listeners are told, so that what the operation brings about holds
while they react. -/
theorem after_apply {s : State} {operation : Store.Operation} (h : P (s.written operation)) :
    P (exec (apply inner operation) s).2 := by
  rw [exec_apply_eq]
  have hlogged := hP.keeps_log (s.form.store.apply operation).events _ h
  cases (s.form.store.apply operation).notice with
  | none => exact hlogged
  | some notice =>
    have htell : Ensures P (fun _ => True) (tell inner notice) :=
      hP.ensures_tell (fun _ _ => trivial) (fun command hcommand => (hinner command hcommand).ensures) notice
    exact htell.keeps _ hlogged

theorem keeps_apply {operation : Store.Operation} (hwrites : Writes P operation) :
    Keeps P (apply inner operation) :=
  fun s h => hP.after_apply hinner (hwrites s h)

/-- A check of the whole form brings about what its operation does. -/
theorem after_validateForm {s : State} (h : P (s.written .validateForm)) :
    P (exec (validateForm inner) s).2 :=
  Keeps.after (fun _ => Keeps.bind Keeps.currentStore fun _ => Keeps.pure _) (hP.after_apply hinner h)

/-! ### Submissions -/

section
variable (henter : ∀ phase, Keeps P (enter phase))
include henter

/-- A submission that is not turned away begins with a check of the form, so that it brings about what
the check brings about. -/
theorem after_openSubmission {s : State} (hadmitted : s.rejects = false)
    (h : P (s.validating.written .validateForm)) (hbegin : Writes P (.setSubmitting true)) :
    P (exec (openSubmission inner) s).2 := by
  have hchecks : exec (enter .validating) s = (.ok (), s.validating) := rfl
  rw [exec_openSubmission hadmitted, opening, exec_bind_of_ok hchecks]
  refine Keeps.after (fun valid => ?_) (hP.after_validateForm hinner h)
  cases valid with
  | true =>
    refine Keeps.bind (hP.keeps_apply hinner hbegin) fun _ => Keeps.bind (henter _) fun _ => ?_
    exact Keeps.bind Keeps.currentStore fun _ => Keeps.bind (hP.keeps_log _) fun _ => Keeps.pure _
  | false =>
    refine Keeps.bind Keeps.currentStore fun _ => Keeps.bind (hP.keeps_log _) fun _ => ?_
    exact Keeps.bind (henter _) fun _ => Keeps.pure _

/-- The second half of a submission. -/
theorem keeps_settle (hend : Writes P (.setSubmitting false)) (outcome : Option Failure) :
    Keeps P (settle inner outcome) := by
  unfold settle
  refine Keeps.when (hP.keeps_log _) fun _ => Keeps.bind (hP.keeps_apply hinner hend) fun _ => ?_
  refine Keeps.bind (henter _) fun _ => ?_
  cases outcome with
  | some failure => exact Keeps.throw failure
  | none => exact Keeps.bind (hP.keeps_log _) fun _ => Keeps.pure true

theorem keeps_openSubmission (hoperations : ∀ operation ∈ Command.submission, Writes P operation) :
    Keeps P (openSubmission inner) := by
  have hcheck : Writes P .validateForm := hoperations _ (by simp [Command.submission])
  have hbegin : Writes P (.setSubmitting true) := hoperations _ (by simp [Command.submission])
  intro s
  refine hP.of_admitted exec_openSubmission_of_rejects fun hadmitted h => ?_
  exact hP.after_openSubmission hinner henter hadmitted (hcheck _ (henter .validating s h)) hbegin

section
variable (hend : Writes P (.setSubmitting false))
include hend

/-- A whole submission, from what is known after its first half. -/
theorem after_submit {s : State} {handler : Reaction Command}
    (h : P (exec (openSubmission inner) s).2)
    (hreceived : ∀ {values t}, exec (openSubmission inner) s = (.ok (some values), t) →
      Keeps P (noteReceived values))
    (hhandler : Keeps P (reportAll inner handler.commands)) :
    P (exec (submit inner handler) s).2 := by
  rw [submit]
  refine Keeps.after_of_ok (fun {opened t} hopen => ?_) h
  cases opened with
  | none => exact Keeps.pure false
  | some values =>
    refine Keeps.bind Keeps.currentForm fun form => ?_
    split
    · refine Keeps.bind (keeps_receive (hreceived hopen) hhandler) fun _ => ?_
      exact hP.keeps_settle hinner henter hend _
    · exact Keeps.bind (hP.keeps_log _) fun _ => hP.keeps_settle hinner henter hend none

/-- A submission to a handler that does not come to its end, from what is known after its first half. -/
theorem after_start {s : State} {id : String} {handler : Reaction Command}
    (h : P (exec (openSubmission inner) s).2)
    (hreceived : ∀ {values t}, exec (openSubmission inner) s = (.ok (some values), t) →
      Keeps P (noteReceived values))
    (hhandler : Keeps P (reportAll inner handler.commands))
    (hticket : Keeps P
      (modify fun s => { s with submissions := s.submissions.insert id handler.exception })) :
    P (exec (start inner id handler) s).2 := by
  rw [start]
  refine Keeps.after_of_ok (fun {opened t} hopen => ?_) h
  cases opened with
  | none => exact Keeps.pure _
  | some values =>
    refine Keeps.bind Keeps.currentForm fun form => ?_
    split
    · refine Keeps.bind (keeps_receive (hreceived hopen) hhandler) fun _ => ?_
      exact Keeps.bind hticket fun _ => Keeps.pure _
    · refine Keeps.bind (hP.keeps_log _) fun _ => ?_
      exact Keeps.bind (hP.keeps_settle hinner henter hend none) fun _ => Keeps.pure _

/-- A command that ends a submission. -/
theorem keeps_endSubmission {id : String} (hticket : Keeps P (takeSubmission id))
    (outcome : Option HostException → Option Failure) :
    Keeps P (do
      let exception ← takeSubmission id
      return Result.flag (← settle inner (outcome exception))) :=
  Keeps.bind hticket fun _ =>
    Keeps.bind (hP.keeps_settle hinner henter hend _) fun _ => Keeps.pure _

end

variable (hoperations : ∀ operation ∈ Command.submission, Writes P operation)
  (hreceived : Delivers inner P)
include hoperations hreceived

theorem keeps_submit {handler : Reaction Command}
    (hhandler : Keeps P (reportAll inner handler.commands)) : Keeps P (submit inner handler) := by
  have hend : Writes P (.setSubmitting false) := hoperations _ (by simp [Command.submission])
  intro s h
  have hopened := hP.keeps_openSubmission hinner henter hoperations s h
  exact hP.after_submit hinner henter hend hopened (hreceived h) hhandler

theorem keeps_start {id : String} {handler : Reaction Command}
    (hhandler : Keeps P (reportAll inner handler.commands))
    (hticket : Keeps P
      (modify fun s => { s with submissions := s.submissions.insert id handler.exception })) :
    Keeps P (start inner id handler) := by
  have hend : Writes P (.setSubmitting false) := hoperations _ (by simp [Command.submission])
  intro s h
  have hopened := hP.keeps_openSubmission hinner henter hoperations s h
  exact hP.after_start hinner henter hend hopened (hreceived h) hhandler hticket

theorem keeps_click {index : Int} {handler : Reaction Command}
    (hhandler : Keeps P (reportAll inner handler.commands)) : Keeps P (click inner index handler) := by
  have hsubmit := hP.keeps_submit hinner henter hoperations hreceived hhandler
  have hview : Ensures P (fun _ => True) currentView := hP.ensures_currentView fun _ _ => trivial
  have hdraft : Ensures P (fun _ => True) (saveDraft inner handler) :=
    hP.ensures_saveDraft (fun _ _ => trivial) hhandler
  refine Keeps.bind Keeps.currentForm fun form => Keeps.bind hview.keeps fun view => ?_
  split
  · exact Keeps.bind hsubmit fun _ => Keeps.pure _
  · exact Keeps.bind hdraft.keeps fun _ => Keeps.pure _
  · exact Keeps.pure _

end

/-! ### Commands -/

/-- One command keeps what its operations and its handler keep, and what the listener keeps that it may
add. A command that begins or ends a submission has to do with phases, with the submissions that have a
name, and with what handlers are given. -/
theorem keeps_step {command : Command}
    (hoperations : ∀ operation ∈ command.operations, Writes P operation)
    (hsubscribe : ∀ {id reaction once}, command = .subscribe id reaction once →
      Keeps P (subscribe id reaction once))
    (hhandler : Keeps P (reportAll inner command.handlerCommands))
    (henter : command.submits = true → ∀ phase, Keeps P (enter phase))
    (hticket : ∀ id, command.ticket? = some id → Keeps P (takeSubmission id) ∧
      ∀ exception, Keeps P
        (modify fun s => { s with submissions := s.submissions.insert id exception }))
    (hreceived : Delivers inner P) : Keeps P (step inner command) := by
  cases hsubmits : command.submits with
  | false =>
    have hensures : Ensures P (fun _ => True) (step inner command) :=
      hP.ensures_step (fun _ _ => trivial) (fun given hgiven => (hinner given hgiven).ensures) hsubmits
        hoperations hsubscribe hhandler
    exact hensures.keeps
  | true =>
    replace henter := henter hsubmits
    cases command with
    | submit event handler =>
      have hsubmit := hP.keeps_submit hinner henter hoperations hreceived hhandler
      exact Keeps.bind hsubmit fun _ => Keeps.pure _
    | click index handler => exact hP.keeps_click hinner henter hoperations hreceived hhandler
    | start id handler =>
      exact hP.keeps_start hinner henter hoperations hreceived hhandler ((hticket id rfl).2 _)
    | finish id =>
      exact hP.keeps_endSubmission hinner henter (hoperations _ (List.mem_singleton_self _))
        (hticket id rfl).1 _
    | fail id exception =>
      exact hP.keeps_endSubmission hinner henter (hoperations _ (List.mem_singleton_self _))
        (hticket id rfl).1 fun _ => some (.host exception)
    | cancel id =>
      exact hP.keeps_endSubmission hinner henter (hoperations _ (List.mem_singleton_self _))
        (hticket id rfl).1 fun _ => some .cancelled
    | _ => cases hsubmits

end Steady

/-- A robust property does not mind what is handed on. -/
theorem Robust.delivers (hP : Robust L P) : Delivers inner P := fun _ _ _ _ => hP.keeps_received _

/-! ## Commands inside each other -/

/-- The property says nothing about what is noted. -/
def JournalFree (P : State → Prop) : Prop := ∀ {s : State} (journal : Journal), P s → P { s with journal }

section
variable (hfree : JournalFree P)
include hfree

theorem keeps_report {command : Command} (h : Keeps P (inner command)) :
    Keeps P (report inner command) := by
  intro s hs
  rw [exec_report]
  exact hfree s.journal (h _ (hfree {} hs))

theorem keeps_reportAll {commands : List Command} (h : ∀ command ∈ commands, Keeps P (inner command)) :
    Keeps P (reportAll inner commands) := by
  induction commands with
  | nil => exact Keeps.pure ()
  | cons command rest ih =>
    have hrest := ih fun other hmem => h other (List.mem_cons_of_mem _ hmem)
    refine Keeps.bind (keeps_report hfree (h command (List.mem_cons_self ..))) fun found => ?_
    exact Keeps.bind (Keeps.modify fun _ hs => hfree _ hs) fun _ => hrest

/-- Whole sessions, if the commands of the host keep the property. -/
theorem keeps_reports_of {commands : List Command}
    (h : ∀ command ∈ commands, Keeps P (perform maxDepth command)) : Keeps P (reports commands) := by
  induction commands with
  | nil => exact Keeps.pure []
  | cons command rest ih =>
    have hfirst := keeps_report hfree (h command (List.mem_cons_self ..))
    have hrest := ih fun other hmem => h other (List.mem_cons_of_mem _ hmem)
    exact Keeps.bind hfirst fun _ => Keeps.bind hrest fun _ => Keeps.pure _

variable {C : Command → Prop}
  (hhandler : ∀ {command : Command}, C command → ∀ given ∈ command.handlerCommands, C given)
  (hstep : ∀ (inner : Command → SessionM Result) (command : Command), C command →
    (∀ given, C given → Keeps P (inner given)) →
    Keeps P (reportAll inner command.handlerCommands) → Keeps P (step inner command))
include hhandler hstep

/-- By induction on the depth: what is given inside a command is one level deeper. -/
theorem keeps_perform (depth : Nat) : ∀ command, C command → Keeps P (perform depth command) := by
  induction depth with
  | zero => exact fun _ _ => Keeps.throw .endless
  | succ depth ih =>
    intro command hcommand
    have hreports : Keeps P (reportAll (perform depth) command.handlerCommands) :=
      keeps_reportAll hfree fun given hmem => ih given (hhandler hcommand given hmem)
    exact hstep (perform depth) command hcommand ih hreports

theorem keeps_reports {commands : List Command} (h : ∀ command ∈ commands, C command) :
    Keeps P (reports commands) :=
  keeps_reports_of hfree fun command hmem =>
    keeps_perform hfree hhandler hstep maxDepth command (h command hmem)

end

end SchemaForm.Session
