import SchemaForm.Form
import SchemaForm.Html

/-!
# Commands

What a host calls on a `JsonForm`, its store and its widgets, and what comes back.

* `Command` — one call; listeners and handlers are given by the calls that they make in turn;
* `Result` — what the call returns;
* `Failure` — what it raises.
-/

namespace SchemaForm.Session

/-- An exception that a listener or a handler raises. -/
structure HostException where
  kind : String
  message : String
  deriving DecidableEq, Repr

/-- What a listener or a handler does when it is called: it gives commands, and then raises or not. -/
structure Reaction (α : Type) where
  commands : List α := []
  exception : Option HostException := none

/-- One call of a host. -/
inductive Command where
  | setValue (name : String) (value : Value)
  | setTouched (name : String)
  | validateField (name : String)
  | validateForm
  | reset
  | setSubmitting (flag : Bool)
  /-- Asks the store about one name and for its snapshot. -/
  | query (name : String)
  | coerce
  | render
  | html
  /-- Asks a rendering for the names of its widgets (`iter_widgets`). -/
  | widgets
  /-- Calls `change` of a widget. -/
  | change (name : String) (value : Value)
  /-- Calls `blur` of a widget. -/
  | blur (name : String)
  /-- Subscribes a new listener; one that is to be called once unsubscribes itself then. -/
  | subscribe (id : String) (reaction : Reaction Command) (once : Bool)
  /-- Subscribes the same listener once more that was subscribed under another name. -/
  | subscribeAgain (id other : String)
  | unsubscribe (id : String)
  /-- Calls `submit`, with an event of the host or without one. -/
  | submit (event : Bool) (handler : Reaction Command)
  /-- Calls `on_click` of a button; a negative index counts from the last. -/
  | click (index : Int) (handler : Reaction Command)
  | saveDraft (handler : Reaction Command)
  /-- Calls `submit` with a handler that stays pending. -/
  | start (id : String) (handler : Reaction Command)
  /-- Lets a pending handler return, or raise the exception that it was started with. -/
  | finish (id : String)
  | fail (id : String) (exception : HostException)
  | cancel (id : String)

namespace Command

/-- The name of the command in a report. -/
def name : Command → String
  | .setValue .. => "set_value"
  | .setTouched _ => "set_touched"
  | .validateField _ => "validate_field"
  | .validateForm => "validate_form"
  | .reset => "reset"
  | .setSubmitting _ => "set_submitting"
  | .query _ => "query"
  | .coerce => "coerce"
  | .render => "render"
  | .html => "html"
  | .widgets => "widgets"
  | .change .. => "change"
  | .blur _ => "blur"
  | .subscribe .. => "subscribe"
  | .subscribeAgain .. => "subscribe"
  | .unsubscribe _ => "unsubscribe"
  | .submit .. => "submit"
  | .click .. => "click"
  | .saveDraft _ => "save_draft"
  | .start .. => "start"
  | .finish _ => "finish"
  | .fail .. => "fail"
  | .cancel _ => "cancel"

end Command

/-- What the store answers about one name: `get_value`, `get_error`, `is_touched`, `visible_error`, `error_count`,
`initial_values` and `snapshot`. -/
structure Inspection where
  value : Value
  error : Option String
  touched : Bool
  visibleError : Option String
  errorCount : Nat
  initial : Value
  form : Snapshot

/-- What a call returns. -/
inductive Result where
  | nothing
  | flag (value : Bool)
  | message (text : Option String)
  | inspection (found : Inspection)
  | values (values : OrderedMap Value)
  | view (view : View)
  | html (text : String)
  | names (names : List String)
  | noWidget
  | noButton
  /-- The handler is pending. -/
  | pending
  /-- What `submit` returned for an event, and how often `prevent_default` was called. -/
  | answered (returned : Bool) (prevented : Nat)

/-- What a call raises. -/
inductive Failure where
  | missingFallback (kind : String)
  | noHtml (failure : Html.Failure)
  | submissionInProgress
  /-- The host knows no listener and no pending handler of this name. -/
  | unknown (id : String)
  | host (exception : HostException)
  | cancelled
  /-- Listeners give commands inside each other without end. -/
  | endless
  deriving DecidableEq, Repr

namespace Failure

/-- Whether `handle_submit` logs the failure; it does not when it is cancelled. -/
def isOrdinary : Failure → Bool
  | .cancelled => false
  | _ => true

/-- The message of the failure. -/
def message : Failure → String
  | .missingFallback kind => kind
  | .noHtml failure => failure.message
  | .submissionInProgress => "A submission is already in progress"
  | .unknown id => id
  | .host exception => exception.message
  | .cancelled => "cancelled"
  | .endless => "maximum recursion depth exceeded"

end Failure

end SchemaForm.Session
