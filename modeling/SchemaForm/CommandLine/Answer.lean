import SchemaForm.CommandLine.Files
import SchemaForm.CommandLine.Request
import SchemaForm.Coercion
import SchemaForm.Form
import SchemaForm.Html
import SchemaForm.Json.Printer

/-!
# Answers

What the program does with a request and the files that it names.

* `Answer` — what is written, and with which status the program ends;
* `Crash` — the exceptions that leave `main`;
* `readDefinition`, `readData` — the files of a request (`load_form_definition`, `_load_data`);
* `renderAnswer`, `validateAnswer` — the answers of `cmd_render` and `cmd_validate` once the files are read;
* `answer` — the answer to a request (`main`).

What is wrong with a file or a definition is a `FormDefinitionError`, which `main` tells the user with the status
2. A file that is not UTF-8 or goes beyond a limit of JSON, and a content without members, are other exceptions
and not caught. There is no answer here to a request for a file in which a string has half of a surrogate pair.
-/

namespace SchemaForm.CommandLine

/-- What is written, and with which status the program ends. -/
structure Answer where
  status : Nat
  output : String := ""
  errors : String := ""
  events : List Event := []

/-- An exception that `main` does not catch. -/
inductive Crash where
  /-- A file is not UTF-8. -/
  | encoding (fault : Text.Utf8.Fault)
  /-- A file goes beyond a limit of JSON. -/
  | beyondLimit (cause : Json.Cause)
  /-- `from_payload` looks for members of a content that has none. -/
  | contentWithoutMembers (fault : Definition.Fault)
  /-- What `to_html` raises. -/
  | unshown (failure : Form.Unshown)
  deriving DecidableEq, Repr

namespace Crash

/-- The message of the crash. -/
def message : Crash → String
  | .encoding fault => fault.message
  | .beyondLimit cause => cause.message
  | .contentWithoutMembers fault => fault.message
  | .unshown failure => failure.message

end Crash

/-- Why there is no answer. -/
inductive NoAnswer where
  | crash (crash : Crash)
  /-- A file has a string that is no text of this library. What the program does then is not said here. -/
  | outside
  deriving DecidableEq, Repr

namespace NoAnswer

/-- Why there is no answer, in words. -/
def message : NoAnswer → String
  | .crash uncaught => uncaught.message
  | .outside => Json.ReadError.halfPair.message

end NoAnswer

/-- Why a request has no regular answer. -/
inductive Failure where
  /-- The user is told this. -/
  | reported (message : String)
  | unanswered (reason : NoAnswer)
  deriving DecidableEq, Repr

/-! ## Files -/

/-- What becomes of a fault of a file, with the messages for a file that cannot be read and for one that
is no JSON. -/
def Failure.ofReadFault (unreadable malformed : String → String) (path : String) :
    ReadFault → Failure
  | .file fault => .reported (unreadable (fault.message path))
  | .encoding fault => .unanswered (.crash (.encoding fault))
  | .json (.beyondLimit cause) => .unanswered (.crash (.beyondLimit cause))
  | .json .halfPair => .unanswered .outside
  | .json error => .reported (malformed error.message)

/-- `load_form_definition`: the definition in a file. -/
def readDefinition (path : String) (content : Content) : Except Failure Definition := do
  let shown := plainPath path
  let payload ← (readJson content).mapError <| Failure.ofReadFault
    (fun message => "Could not read form definition " ++ shown ++ ": " ++ message)
    (fun message => "Form definition " ++ shown ++ " is not valid JSON: " ++ message) path
  (Definition.ofPayload payload).mapError fun
    | .contentWithoutMembers typeName =>
      .unanswered (.crash (.contentWithoutMembers (.contentWithoutMembers typeName)))
    | fault => .reported fault.message

/-- `_load_data`: the data in a file, which must be an object. -/
def readData (path : String) (content : Content) : Except Failure (OrderedMap Value) := do
  let unreadable (message : String) : String :=
    "Could not read data file " ++ path ++ ": " ++ message
  match ← (readJson content).mapError (Failure.ofReadFault unreadable unreadable path) with
  | .object members => return .ofList members
  | _ => throw (.reported ("Data file " ++ path ++ " must contain a JSON object"))

/-! ## Commands -/

/-- `cmd_render`, once the files are read: the HTML of a new form, with every message if that is asked for. -/
def renderAnswer (settings : Settings) (definition : Definition) (data? : Option (OrderedMap Value))
    (touchAll : Bool) : Except Failure Answer := do
  let options := definition.options
  let form := (definition.form settings { options with data := data?.getD options.data }).touchAll touchAll
  let html ← form.toHtml.mapError fun failure => .unanswered (.crash (.unshown failure))
  return { status := 0, output := html ++ "\n", events := form.viewEvents }

/-- How the result of a validation is laid out: an indentation below zero is none. -/
def spacing (settings : Settings) : Json.Spacing := .indented settings.indent.toNat

/-- `cmd_validate`, once the files are read: whether the data are valid, the messages, and the values that a
submission would hand on, or those of the form if they are not valid. -/
def validateAnswer (settings : Settings) (definition : Definition) (data : OrderedMap Value) :
    Answer :=
  let form := definition.form settings { definition.options with data }
  let store := form.store.validateForm.store
  let isValid := store.errors.isEmpty
  let values := if isValid then store.schema.coerce store.values else store.values
  let result : Value := .object
    [("is_valid", .bool isValid),
      ("errors", .object (store.messages.map fun _ message => Value.text message).entries),
      ("values", .object values.entries)]
  { status := if isValid then 0 else 1
    output := Json.print (spacing settings) result ++ "\n"
    events := if isValid then store.schema.coerceEvents store.values else [] }

/-- The answer of `cmd_render` or `cmd_validate`, or what goes wrong first; `contents` are the files. -/
def tryAnswer (settings : Settings) (contents : String → Content) :
    Request → Except Failure Answer
  | .render definitionPath dataPath? touchAll => do
    let definition ← readDefinition definitionPath (contents definitionPath)
    match dataPath? with
    | some path =>
      let data ← readData path (contents path)
      renderAnswer settings definition (some data) touchAll
    | none => renderAnswer settings definition none touchAll
  | .validate definitionPath dataPath => do
    let definition ← readDefinition definitionPath (contents definitionPath)
    let data ← readData dataPath (contents dataPath)
    return validateAnswer settings definition data

/-- What `main` makes of a `FormDefinitionError`. -/
def reportedAnswer (message : String) : Answer :=
  { status := 2, errors := "Error: " ++ message, events := [.failedCommand message] }

/-- `main` for a request: what goes wrong is told to the user, as far as it is caught. -/
def answer (settings : Settings) (contents : String → Content) (request : Request) :
    Except NoAnswer Answer :=
  match tryAnswer settings contents request with
  | .ok found => .ok found
  | .error (.reported message) => .ok (reportedAnswer message)
  | .error (.unanswered reason) => .error reason

/-- The answer to a command line. -/
def answerWords (settings : Settings) (contents : String → Content) (words : List String) :
    Except NoAnswer Answer :=
  match Request.ofWords words with
  | .ok request => answer settings contents request
  | .error (.help text) => .ok { status := 0, output := text }
  | .error (.usage message) => .ok { status := 2, errors := "error: " ++ message }

end SchemaForm.CommandLine
