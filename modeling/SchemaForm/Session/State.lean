import SchemaForm.Session.Command

/-!
# Sessions

A session is a `JsonForm` in the hands of a host that subscribes listeners, submits and saves drafts. Its state
has what `FormStore` and `SubmissionPipeline` hold beside the values (the list `_listeners`, the `phase`), the
handlers that are still pending, and what the host has noted.

* `Phase` — the phases of a `SubmissionPipeline` (`SubmissionPhase`);
* `Listener` — a callable that was given to `subscribe`;
* `State` — all that the commands of a session read and write;
* `Report` — what is to be seen of one command;
* `SessionM` — steps that read and write the state and may raise; what was written before stays.
-/

namespace SchemaForm.Session

/-- The phases of `handle_submit` (`SubmissionPhase`). -/
inductive Phase where
  | idle
  | validating
  | submitting
  deriving DecidableEq, Repr

namespace Phase

/-- The value of the phase as it is reported. -/
def name : Phase → String
  | .idle => "idle"
  | .validating => "validating"
  | .submitting => "submitting"

end Phase

/-- A callable that was given to `subscribe`. Two entries of the list `_listeners` are equal if they have the
same number. -/
structure Listener where
  number : Nat
  /-- The name under which the listener notes what it is told. -/
  id : String
  /-- What it does when it is called. -/
  reaction : Reaction Command
  /-- Whether it unsubscribes itself when it was called. -/
  once : Bool

/-- What a host sees of a form: its `snapshot`, and the `phase` of the pipeline. -/
structure Status where
  snapshot : Snapshot
  phase : Phase

/-- One command, what came of it, and what the host was called with meanwhile. -/
structure Report where
  command : String
  result : Except Failure Result
  /-- The calls of listeners, in order. -/
  notes : List (String × Notice)
  /-- The values with which `on_submit` was called. -/
  received : List (OrderedMap Value)
  /-- The values with which `on_save_draft` was called. -/
  drafts : List (OrderedMap Value)
  /-- The commands that handlers have given meanwhile. -/
  during : List Report
  after : Status

/-- What the host notes while one command runs; a report takes it over. -/
structure Journal where
  notes : List (String × Notice) := []
  received : List (OrderedMap Value) := []
  drafts : List (OrderedMap Value) := []
  during : List Report := []

/-- All that the commands of a session read and write. -/
structure State where
  form : Form
  phase : Phase := .idle
  /-- `_listeners`, in the order in which they were subscribed. -/
  listeners : List Listener := []
  /-- The function that `subscribe` returned last under a name: calling it takes away this listener. -/
  subscriptions : OrderedMap Listener := ∅
  /-- The calls of `handle_submit` whose handler is pending, with the exception that it will raise, if any. -/
  submissions : OrderedMap (Option HostException) := ∅
  /-- How many callables were made; the next one has this number. -/
  listenerCount : Nat := 0
  journal : Journal := {}
  events : List Event := []

namespace State

/-- A session with a new form: nobody has subscribed, and the pipeline is idle. -/
def ofForm (form : Form) : State := { form }

/-- `snapshot` and `phase`. -/
def status (s : State) : Status := ⟨s.form.store.snapshot, s.phase⟩

end State

/-- Steps that read and write the state, and may raise. The state is kept when a step raises: nothing is
rolled back. -/
abbrev SessionM := ExceptT Failure (StateM State)

/-- Appends to the log. -/
def log (events : List Event) : SessionM Unit :=
  modify fun s => { s with events := s.events ++ events }

/-- Writes the journal of the command that runs. -/
def note (write : Journal → Journal) : SessionM Unit :=
  modify fun s => { s with journal := write s.journal }

/-- Assigns the `_phase` of the pipeline. -/
def enter (phase : Phase) : SessionM Unit := modify fun s => { s with phase }

/-- The form that the session holds at this step; listeners may have changed it since the last one. -/
def currentForm : SessionM Form := return (← get).form

/-- The store of that form. -/
def currentStore : SessionM Store := return (← get).form.store

/-- What is known under a name of the host, or else the failure that nothing is. -/
def orUnknown {α : Type} (id : String) : Option α → SessionM α
  | some a => return a
  | none => throw (.unknown id)

end SchemaForm.Session
