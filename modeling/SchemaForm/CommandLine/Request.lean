import SchemaForm.CommandLine.Arguments
import SchemaForm.OrderedMap

/-!
# Requests

The two commands of the program, and how they are asked for (`build_parser`).

* `Request` — to render a form, or to validate data against one;
* `Request.ofWords` — the request of a command line, or why there is none.
-/

namespace SchemaForm.CommandLine

/-- What the program is asked for. -/
inductive Request where
  /-- To render the form of a definition, perhaps with data and with all messages visible. -/
  | render (definition : String) (data? : Option String) (touchAll : Bool)
  /-- To validate data against a definition. -/
  | validate (definition data : String)
  deriving DecidableEq, Repr

/-- Why there is no request. -/
inductive NoRequest where
  /-- The user wants this help text. -/
  | help (text : String)
  | usage (message : String)
  deriving DecidableEq, Repr

/-! ## Usage -/

/-- The option for the help text. -/
def helpOption : OptionForm := ⟨["-h", "--help"], .help⟩

/-- The names of the commands. -/
def commandNames : List String := ["render", "validate"]

/-- What the program takes. -/
def programUsage : Usage := { options := [helpOption], operands := ["command"], takesRest := true }

/-- What the command `render` takes. -/
def renderUsage : Usage :=
  { options := [helpOption, ⟨["--data"], .value⟩, ⟨["--touch-all"], .flag⟩]
    operands := ["definition"] }

/-- What the command `validate` takes. -/
def validateUsage : Usage := { options := [helpOption], operands := ["definition", "data"] }

/-! ## Help -/

/-- A text of lines. -/
def lines (parts : List String) : String := String.intercalate "\n" parts

/-- The help text of the program. -/
def programHelp : String := lines
  ["usage: trade-forms [-h] \x7brender,validate\x7d ...",
    "",
    "Render and validate schema-driven declaration forms",
    "",
    "positional arguments:",
    "  \x7brender,validate\x7d",
    "    render           Render a form definition to HTML",
    "    validate         Validate data against a form",
    "",
    "options:",
    "  -h, --help         show this help message and exit",
    "",
    "Environment Variables:",
    "  TRADE_FORMS_LOG_LEVEL                 Logging level (default: WARNING)",
    "  TRADE_FORMS_SUBMIT_LABEL              Submit button text (default: Submit)",
    "  TRADE_FORMS_DRAFT_LABEL               Draft button text (default: Save Draft)",
    "  TRADE_FORMS_REJECT_CONCURRENT_SUBMIT  Reject overlapping submits (default: true)",
    "        ",
    ""]

/-- The help text of the command `render`. -/
def renderHelp : String := lines
  ["usage: trade-forms render [-h] [--data DATA] [--touch-all] definition",
    "",
    "positional arguments:",
    "  definition   Form definition JSON file",
    "",
    "options:",
    "  -h, --help   show this help message and exit",
    "  --data DATA  JSON file with initial values",
    "  --touch-all  Validate the whole form so every error is shown",
    ""]

/-- The help text of the command `validate`. -/
def validateHelp : String := lines
  ["usage: trade-forms validate [-h] definition data",
    "",
    "positional arguments:",
    "  definition  Form definition JSON file",
    "  data        JSON file with the values to validate",
    "",
    "options:",
    "  -h, --help  show this help message and exit",
    ""]

/-! ## Requests -/

/-- Takes the words of a command apart; who asks for help gets this text. -/
def parseWith (usage : Usage) (help : String) (words : List String) : Except NoRequest Found :=
  (parse usage words).mapError fun
    | .help => .help help
    | .usage message => .usage message

/-- The word for an operand. -/
def operand (found : Found) (name : String) : String :=
  ((Entries.get? name found.operands).getD []).headD ""

/-- The request of the command `render`, and the words that are left over. -/
def renderRequest (words : List String) : Except NoRequest (Request × List String) := do
  let found ← parseWith renderUsage renderHelp words
  return (.render (operand found "definition") (found.values.getLast?.map Prod.snd)
    (found.flags.contains "--touch-all"), found.extras)

/-- The request of the command `validate`, and the words that are left over. -/
def validateRequest (words : List String) : Except NoRequest (Request × List String) := do
  let found ← parseWith validateUsage validateHelp words
  return (.validate (operand found "definition") (operand found "data"), found.extras)

/-- The message for a command that does not exist. -/
def unknownCommand (word : String) : String :=
  "argument command: invalid choice: " ++ Text.quoted word ++ " (choose from " ++
    String.intercalate ", " (commandNames.map Text.quoted) ++ ")"

/-- The request of a command, and the words that are left over. -/
def commandRequest : List String → Except NoRequest (Request × List String)
  | "render" :: words => renderRequest words
  | "validate" :: words => validateRequest words
  | word :: _ => .error (.usage (unknownCommand word))
  | [] => .error (.usage (unknownCommand ""))

/-- The request of a command line. All words must be taken by somebody. -/
def Request.ofWords (words : List String) : Except NoRequest Request := do
  let found ← parseWith programUsage programHelp words
  let (request, extras) ← commandRequest ((Entries.get? "command" found.operands).getD [])
  match found.extras ++ extras with
  | [] => return request
  | left => throw (.usage ("unrecognized arguments: " ++ String.intercalate " " left))

end SchemaForm.CommandLine
