import SchemaForm.Text.Quoted

/-!
# Events

What the loggers of the library are given. Events do not change what a form does.

* `Event` — what happened;
* `Event.area`, `Event.level`, `Event.message` — which part of the library reports it, how important it
  is, and in what words.
-/

namespace SchemaForm

/-- The part of the library that reports an event. -/
inductive Area where
  | store
  | validator
  | resolver
  | submission
  | form
  | commandLine
  deriving DecidableEq, Repr

/-- How important an event is. -/
inductive Level where
  | debug
  | info
  | warning
  | error
  deriving DecidableEq, Repr

/-- Something that a log may tell. -/
inductive Event where
  /-- A value was not written, since no property has that name. -/
  | undeclaredValue (name : String)
  /-- A property was checked; without a message its value was accepted. -/
  | checkedProperty (name : String) (message : Option String)
  /-- A control was left out, since its scope names no property. -/
  | skippedControl (scope : String)
  /-- A text stays a text, since it is no number. -/
  | keptText (name : String)
  /-- A submission was turned away by one that is under way. -/
  | rejectedSubmission
  /-- A submission was stopped by this many messages. -/
  | blockedSubmission (messages : Nat)
  /-- This many values go to the submit handler. -/
  | startedSubmission (values : Nat)
  | failedSubmission
  | finishedSubmission
  /-- Nobody takes the values that were submitted. -/
  | discardedValues (values : Nat)
  /-- Nobody takes drafts. -/
  | noDraftHandler
  /-- A command was given up. -/
  | failedCommand (message : String)
  deriving DecidableEq, Repr

namespace Event

/-- The part of the library that reports the event. -/
def area : Event → Area
  | .undeclaredValue _ => .store
  | .checkedProperty .. => .validator
  | .skippedControl _ => .resolver
  | .keptText _ => .submission
  | .rejectedSubmission => .submission
  | .blockedSubmission _ => .submission
  | .startedSubmission _ => .submission
  | .failedSubmission => .submission
  | .finishedSubmission => .submission
  | .discardedValues _ => .form
  | .noDraftHandler => .form
  | .failedCommand _ => .commandLine

/-- How important the event is. -/
def level : Event → Level
  | .undeclaredValue _ => .warning
  | .checkedProperty .. => .debug
  | .skippedControl _ => .debug
  | .keptText _ => .warning
  | .rejectedSubmission => .warning
  | .blockedSubmission _ => .debug
  | .startedSubmission _ => .info
  | .failedSubmission => .error
  | .finishedSubmission => .info
  | .discardedValues _ => .info
  | .noDraftHandler => .debug
  | .failedCommand _ => .error

/-- The event in words. -/
def message : Event → String
  | .undeclaredValue name => "Ignoring value for undeclared property " ++ Text.quoted name
  | .checkedProperty name message => "Validated " ++ name ++ ": " ++ message.getD "ok"
  | .skippedControl scope => "Skipping control with unresolvable scope " ++ Text.quoted scope
  | .keptText name => "Leaving unparseable numeric value for " ++ Text.quoted name ++ " as text"
  | .rejectedSubmission => "Rejecting submit: a submission is already in flight"
  | .blockedSubmission messages =>
    "Submit blocked by " ++ toString messages ++ " validation error(s)"
  | .startedSubmission values => "Submitting form with " ++ toString values ++ " value(s)"
  | .failedSubmission => "Submit handler failed"
  | .finishedSubmission => "Form submitted"
  | .discardedValues values =>
    "No submit handler configured; discarding " ++ toString values ++ " value(s)"
  | .noDraftHandler => "save_draft called without a draft handler"
  | .failedCommand message => message

end Event

end SchemaForm
