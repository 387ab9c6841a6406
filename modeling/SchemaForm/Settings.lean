import SchemaForm.Value
import SchemaForm.Number.Numeral
import SchemaForm.Number.Decimal
import SchemaForm.Text.Quoted

/-!
# Settings

What all forms of a program have in common: the texts of the buttons, what to do with a submission
while another is under way, and how the command line writes its results.

* `Settings` — the settings, with their defaults (`FormConfig`);
* `Settings.ofEnvironment` — from variables of the environment (`from_env`);
* `Settings.update` — with some of them changed (`update_config`).

A host may set a setting to any value. One of the wrong type is kept and shown, but has no effect, except
that a flag is set if the value counts as true.
-/

namespace SchemaForm

/-- A `FormConfig`: what all forms of a program have in common. -/
structure Settings where
  submitLabel : String := "Submit"
  /-- The text of the submit button while a submission is under way. -/
  submittingLabel : String := "Submitting..."
  draftLabel : String := "Save Draft"
  /-- Whether a submission is turned away while another is under way. -/
  rejectsConcurrent : Bool := true
  logLevel : String := "WARNING"
  /-- How far the parts of a result are indented. -/
  indent : Int := 2
  /-- Values that a host has set and that are of no use. -/
  unused : OrderedMap Value := ∅

namespace Settings

/-! ## Environment -/

/-- Why the settings cannot be taken from the environment. -/
inductive Fault where
  /-- The indentation is no whole number. -/
  | indent (text : String) (fault : IntegerFault)
  deriving DecidableEq, Repr

namespace Fault

/-- The message of the fault. -/
def message : Fault → String
  | .indent text .malformed =>
    "invalid literal for int() with base 10: " ++
      String.ofList ((Text.quoted text).toList.take 200)
  | .indent _ (.tooLong digits) =>
    "Exceeds the limit (" ++ toString maxDigits ++
      " digits) for integer string conversion: value has " ++ toString digits ++
      " digits; use sys.set_int_max_str_digits() to increase the limit"

end Fault

/-- The name of the variable for a setting. -/
def variableName (setting : String) : String := "TRADE_FORMS_" ++ setting

/-- `from_env`: the settings of an environment. A variable that is not set leaves the default; a flag is set
by the word "true" alone. -/
def ofEnvironment (environment : OrderedMap String) : Except Fault Settings := do
  let defaults : Settings := {}
  let text (setting default : String) : String := (environment.get? (variableName setting)).getD default
  let indentText := text "INDENT_JSON" (toString defaults.indent)
  let indent ← (integerOfNumeral (numeral indentText)).mapError (Fault.indent indentText)
  return { defaults with
    submitLabel := text "SUBMIT_LABEL" defaults.submitLabel
    submittingLabel := text "SUBMITTING_LABEL" defaults.submittingLabel
    draftLabel := text "DRAFT_LABEL" defaults.draftLabel
    rejectsConcurrent :=
      match environment.get? (variableName "REJECT_CONCURRENT_SUBMIT") with
      | some flag => flag.toLower == "true"
      | none => defaults.rejectsConcurrent
    logLevel := (text "LOG_LEVEL" defaults.logLevel).toUpper
    indent }

/-! ## Changes -/

/-- The settings with a value by name, among them those that are of no use. -/
def members (s : Settings) : List (String × Value) :=
  [("submit_label", .text s.submitLabel),
    ("submitting_label", .text s.submittingLabel),
    ("draft_label", .text s.draftLabel),
    ("reject_concurrent_submit", .bool s.rejectsConcurrent),
    ("log_level", .text s.logLevel),
    ("indent_json_output", .int s.indent)].map fun (name, v) =>
      (name, (s.unused.get? name).getD v)

/-- The names that a host may set besides the settings. -/
def otherNames : List String := ["from_env"]

/-- What was set besides the settings. -/
def extra (s : Settings) : List String := otherNames.filter s.unused.contains

/-- Forgets a value that is of no use. -/
def used (s : Settings) (name : String) : Settings := { s with unused := s.unused.erase name }

/-- Keeps a value that is of no use. -/
def keep (s : Settings) (name : String) (v : Value) : Settings :=
  { s with unused := s.unused.insert name v }

/-- Sets one setting; a name that is none is ignored. -/
def set (s : Settings) (name : String) (v : Value) : Settings :=
  if !(s.members.map Prod.fst ++ otherNames).contains name then s
  else match name, v with
  | "submit_label", .text label => { s.used name with submitLabel := label }
  | "submitting_label", .text label => { s.used name with submittingLabel := label }
  | "draft_label", .text label => { s.used name with draftLabel := label }
  | "reject_concurrent_submit", .bool flag => { s.used name with rejectsConcurrent := flag }
  | "reject_concurrent_submit", _ => { s.keep name v with rejectsConcurrent := v.isTruthy }
  | "log_level", .text level => { s.used name with logLevel := level }
  | "indent_json_output", .int n => { s.used name with indent := n }
  | _, _ => s.keep name v

/-- `update_config`: sets several settings. -/
def update (s : Settings) (changes : List (String × Value)) : Settings :=
  changes.foldl (fun s change => s.set change.1 change.2) s

end Settings

end SchemaForm
