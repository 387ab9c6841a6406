import SchemaForm.Session.State
import SchemaForm.Coercion

/-!
# Commands at work

What each command does to a session: the methods of `JsonForm`, `FormStore` and `SubmissionPipeline` with the
listeners and handlers that they call.

* `tell` — all listeners are called with a notice (`_notify`), and react;
* `apply` — a method of the store, and its notice;
* `openSubmission`, `settle` — `handle_submit` up to the call of the handler, and from its end on;
* `submit`, `start` — both halves in one, and the first with a handler that stays pending;
* `step` — one command, where `inner` does the commands that listeners and handlers give meanwhile;
* `perform` — one command, with up to so many of them inside each other;
* `run` — commands one after the other, with a report of each.

`handle_submit` calls `validate_form`, sets the in-flight flag, hands the coerced values to the handler, and
clears the flag whatever comes of the handler. Each of these steps may call listeners, and a listener that
raises stops the command that called it, also between two steps.
-/

namespace SchemaForm.Session

variable (inner : Command → SessionM Result)

/-! ## Listeners -/

/-- Calls what `subscribe` has returned: the first equal entry of `_listeners` is removed, if there is one. -/
def removeListener (listener : Listener) : SessionM Unit :=
  modify fun s => { s with listeners := s.listeners.eraseP (·.number == listener.number) }

/-- `subscribe`: the listener goes to the end of `_listeners`, and the host keeps what is returned under a
name. -/
def addListener (id : String) (listener : Listener) : SessionM Unit :=
  modify fun s => { s with
    listeners := s.listeners ++ [listener]
    subscriptions := s.subscriptions.insert id listener }

/-- Subscribes a callable that was not there before. -/
def subscribe (id : String) (reaction : Reaction Command) (once : Bool) : SessionM Unit := do
  let number := (← get).listenerCount
  modify fun s => { s with listenerCount := number + 1 }
  addListener id { number, id, reaction, once }

/-- The commands that a listener gives, up to the first that raises. -/
def giveAll : List Command → SessionM Unit
  | [] => return
  | command :: rest => do
    let _ ← inner command
    giveAll rest

/-- Raises the exception in which a part of the host ends, if any. -/
def failWith : Option HostException → SessionM Unit
  | some exception => throw (.host exception)
  | none => return

/-- Calls one listener: it notes the call, gives its commands, unsubscribes if it wants to be called once, and
raises if it does. -/
def tellListener (notice : Notice) (listener : Listener) : SessionM Unit := do
  note fun journal => { journal with notes := journal.notes ++ [(listener.id, notice)] }
  giveAll inner listener.reaction.commands
  if listener.once then removeListener listener
  failWith listener.reaction.exception

/-- Calls listeners one after the other, up to the first that raises. -/
def tellAll (notice : Notice) : List Listener → SessionM Unit
  | [] => return
  | listener :: rest => do
    tellListener inner notice listener
    tellAll notice rest

/-- `_notify`: calls all listeners of a copy of the list. So those that subscribe meanwhile are not called yet,
and those that unsubscribe are called still. -/
def tell (notice : Notice) : SessionM Unit := do tellAll inner notice (← get).listeners

/-- A method of the store: the change is written and logged, and then `_notify` is called if it has a
notice. -/
def apply (operation : Store.Operation) : SessionM Unit := do
  let change := (← currentStore).apply operation
  modify fun s => { s with form := s.form.withStore change.store }
  log change.events
  match change.notice with
  | some notice => tell inner notice
  | none => return

/-- A method of the store that returns nothing. -/
def applyOnly (operation : Store.Operation) : SessionM Result := do
  apply inner operation
  return .nothing

/-- `validate_field`, with the message that it returns. It was found before the listeners were called. -/
def validateField (name : String) : SessionM Result := do
  let store ← currentStore
  let found := store.schema.violation? name (store.value name)
  apply inner (.validateField name)
  return .message (found.map Violation.message)

/-- `validate_form`: it returns whether `_errors` are empty when all listeners were called, so that what these
have changed counts. -/
def validateForm : SessionM Bool := do
  apply inner .validateForm
  return (← currentStore).errors.isEmpty

/-! ## Views -/

/-- `render`, for the values and errors of this moment. -/
def currentView : SessionM View := do
  let form ← currentForm
  log form.viewEvents
  match form.view with
  | .ok view => return view
  | .error missing => throw (.missingFallback missing.kind)

/-- `to_html`. -/
def currentHtml : SessionM Result := do
  match (← currentView).toHtml with
  | .ok text => return .html text
  | .error failure => throw (.noHtml failure)

/-- `change` or `blur` of the widget of a name in a new rendering (`find_widget`), if there is one. -/
def useWidget (name : String) (operation : Store.Operation) : SessionM Result := do
  match (← currentView).widget? name with
  | some _ => applyOnly inner operation
  | none => return .noWidget

/-- The answers of a store about one name, and its snapshot. -/
def inspect (name : String) : SessionM Inspection := do
  let store ← currentStore
  return {
    value := store.value name
    error := store.message? name
    touched := store.isTouched name
    visibleError := store.visibleMessage? name
    errorCount := store.errors.size
    initial := Schema.valueIn store.initial name
    form := store.snapshot }

/-! ## Handlers -/

/-- One command with its report. An exception that leaves the command is part of the report; what the command
notes does not mix with what the command around it notes. -/
def report (command : Command) : SessionM Report := do
  let outer := (← get).journal
  note fun _ => {}
  let result ← observing (inner command)
  let s ← get
  note fun _ => outer
  return {
    command := command.name
    result
    notes := s.journal.notes
    received := s.journal.received
    drafts := s.journal.drafts
    during := s.journal.during
    after := s.status }
where
  observing (act : SessionM Result) : SessionM (Except Failure Result) :=
    tryCatch (return .ok (← act)) fun failure => return .error failure

/-- The commands that a handler gives. It catches what they raise, and reports it. -/
def reportAll : List Command → SessionM Unit
  | [] => return
  | command :: rest => do
    let found ← report inner command
    note fun journal => { journal with during := journal.during ++ [found] }
    reportAll rest

/-! ## Submissions -/

/-- `handle_submit` up to the call of `on_submit`: the coerced values, or nothing if `validate_form` has stopped
the submission. A listener that raises when `set_submitting` calls it leaves the in-flight flag set: the part of
`handle_submit` that clears it again has not been entered. -/
def openSubmission : SessionM (Option (OrderedMap Value)) := do
  let form ← currentForm
  if form.store.submitting && form.rejectsConcurrent then
    log [.rejectedSubmission]
    throw .submissionInProgress
  enter .validating
  if ← validateForm inner then
    apply inner (.setSubmitting true)
    enter .submitting
    let store ← currentStore
    let values := store.schema.coerce store.values
    log (store.schema.coerceEvents store.values ++ [.startedSubmission values.size])
    return some values
  else
    log [.blockedSubmission (← currentStore).errors.size]
    enter .idle
    return none

/-- `handle_submit` from the end of `on_submit` on: an ordinary failure is logged, the in-flight flag is cleared,
and then the failure is raised again. -/
def settle (outcome : Option Failure) : SessionM Bool := do
  if outcome.any Failure.isOrdinary then log [.failedSubmission]
  apply inner (.setSubmitting false)
  enter .idle
  match outcome with
  | some failure => throw failure
  | none =>
    log [.finishedSubmission]
    return true

/-- The call of `on_submit`: the host notes the values, and gives its commands. -/
def receive (values : OrderedMap Value) (handler : Reaction Command) : SessionM Unit := do
  note fun journal => { journal with received := journal.received ++ [values] }
  reportAll inner handler.commands

/-- `submit` with a handler that comes to its end at once. Without `on_submit` the values go to
`_discard_submission`. -/
def submit (handler : Reaction Command) : SessionM Bool := do
  match ← openSubmission inner with
  | none => return false
  | some values =>
    if (← currentForm).takesSubmissions then
      receive inner values handler
      settle inner (handler.exception.map .host)
    else
      log [.discardedValues values.size]
      settle inner none

/-- `submit` with a handler that stays pending: the second half waits for `finish`, `fail` or `cancel`. -/
def start (id : String) (handler : Reaction Command) : SessionM Result := do
  match ← openSubmission inner with
  | none => return .flag false
  | some values =>
    if (← currentForm).takesSubmissions then
      receive inner values handler
      modify fun s => { s with submissions := s.submissions.insert id handler.exception }
      return .pending
    else
      log [.discardedValues values.size]
      return .flag (← settle inner none)

/-- The pending handler of a name, which pends no longer, and the exception in which it ends. -/
def takeSubmission (id : String) : SessionM (Option HostException) := do
  let found ← orUnknown id ((← get).submissions.get? id)
  modify fun s => { s with submissions := s.submissions.erase id }
  return found

/-- `save_draft`: `on_save_draft` is called with the values as they are, without validation or coercion. -/
def saveDraft (handler : Reaction Command) : SessionM Unit := do
  let form ← currentForm
  if form.takesDrafts then
    note fun journal => { journal with drafts := journal.drafts ++ [form.store.values] }
    reportAll inner handler.commands
    failWith handler.exception
  else log [.noDraftHandler]

/-- The place in a list that an index stands for: a negative one counts from the end. -/
def buttonIndex (count : Nat) (index : Int) : Option Nat :=
  let place := if index < 0 then index + count else index
  if 0 ≤ place then some place.toNat else none

/-- Calls what a button of a new rendering does (`on_click`). -/
def click (index : Int) (handler : Reaction Command) : SessionM Result := do
  let form ← currentForm
  let _ ← currentView
  match (buttonIndex form.actions.length index).bind (form.actions[·]?) with
  | some .submit => return .flag (← submit inner handler)
  | some .saveDraft =>
    saveDraft inner handler
    return .nothing
  | none => return .noButton

/-! ## Commands -/

/-- One command; `inner` does the commands that listeners and handlers give meanwhile. -/
def step : Command → SessionM Result
  | .setValue name value => applyOnly inner (.setValue name value)
  | .setTouched name => applyOnly inner (.setTouched name)
  | .validateField name => validateField inner name
  | .validateForm => return .flag (← validateForm inner)
  | .reset => applyOnly inner .reset
  | .setSubmitting flag => applyOnly inner (.setSubmitting flag)
  | .query name => return .inspection (← inspect name)
  | .coerce => do
    let store ← currentStore
    log (store.schema.coerceEvents store.values)
    return .values (store.schema.coerce store.values)
  | .render => return .view (← currentView)
  | .html => currentHtml
  | .widgets => return .names ((← currentView).widgets.map (·.binding.name))
  | .change name value => useWidget inner name (.setValue name value)
  | .blur name => useWidget inner name (.setTouched name)
  | .subscribe id reaction once => do
    subscribe id reaction once
    return .nothing
  | .subscribeAgain id other => do
    addListener id (← orUnknown other ((← get).subscriptions.get? other))
    return .nothing
  | .unsubscribe id => do
    removeListener (← orUnknown id ((← get).subscriptions.get? id))
    return .nothing
  | .submit event handler => do
    let returned ← submit inner handler
    return if event then .answered returned 1 else .flag returned
  | .click index handler => click inner index handler
  | .saveDraft handler => do
    saveDraft inner handler
    return .nothing
  | .start id handler => start inner id handler
  | .finish id => do
    let exception ← takeSubmission id
    return .flag (← settle inner (exception.map .host))
  | .fail id exception => do
    let _ ← takeSubmission id
    return .flag (← settle inner (some (.host exception)))
  | .cancel id => do
    let _ ← takeSubmission id
    return .flag (← settle inner (some .cancelled))

/-- One command, with up to `depth` commands inside each other: each listener that gives commands is a call
inside the call of the method that has told it. -/
def perform : Nat → Command → SessionM Result
  | 0, _ => throw .endless
  | depth + 1, command => step (perform depth) command

/-! ## Sessions -/

/-- How many commands may be inside each other before the stack is taken to be full. -/
def maxDepth : Nat := 200

/-- The reports of commands, each of which is given when the one before has returned or raised. -/
def reports : List Command → SessionM (List Report)
  | [] => return []
  | command :: rest => do
    let first ← report (perform maxDepth) command
    return first :: (← reports rest)

/-- A whole session with a form: the reports of its commands, and the state in which it ends. -/
def run (form : Form) (commands : List Command) : List Report × State :=
  match (reports commands).run.run (.ofForm form) with
  | (.ok found, s) => (found, s)
  | (.error _, s) => ([], s)

end SchemaForm.Session
