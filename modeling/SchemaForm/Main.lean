import SchemaForm.CommandLine.Answer

/-!
# The program

Reads the environment and the files, and writes the answer.
-/

namespace SchemaForm.CommandLine

/-- The number of a fault; the system may report it below zero. -/
def faultNumber (code : UInt32) : Nat :=
  if code.toNat < 0x80000000 then code.toNat else 0x100000000 - code.toNat

/-- The fault of this number. -/
def faultOfNumber (number : Nat) (text : String) : FileFault :=
  let known : List FileFault := [.missing, .permission, .notDirectory, .isDirectory, .nameTooLong]
  (known.find? (·.code == number)).getD (.other number text)

/-- The fault of a file that the system reports. -/
def faultOf : IO.Error → FileFault
  | .noFileOrDirectory .. => .missing
  | .permissionDenied _ code text => faultOfNumber (faultNumber code) text
  | .inappropriateType _ code text => faultOfNumber (faultNumber code) text
  | .invalidArgument _ code text => faultOfNumber (faultNumber code) text
  | other => .other 5 (toString other)

/-- The octets of a file. -/
def readContent (path : String) : IO Content := do
  try
    let octets ← IO.FS.readBinFile (plainPath path)
    return .ok (octets.toList.map UInt8.toNat)
  catch fault => return .error (faultOf fault)

/-- The files that a request names, with what they hold. -/
def readContents : Except NoRequest Request → IO (List (String × Content))
  | .ok (.render definition data? _) =>
    (definition :: data?.toList).mapM fun path => return (path, ← readContent path)
  | .ok (.validate definition data) =>
    [definition, data].mapM fun path => return (path, ← readContent path)
  | .error _ => return []

/-- The settings of the environment in which the program runs. -/
def readSettings : IO (Except Settings.Fault Settings) := do
  let names := ["SUBMIT_LABEL", "SUBMITTING_LABEL", "DRAFT_LABEL", "REJECT_CONCURRENT_SUBMIT",
    "LOG_LEVEL", "INDENT_JSON"].map Settings.variableName
  let entries ← names.filterMapM fun name => return (← IO.getEnv name).map (name, ·)
  return Settings.ofEnvironment (.ofList entries)

/-- Writes to both outputs, and ends with a status. -/
def finish (status : Nat) (output errors : String) : IO UInt32 := do
  (← IO.getStdout).putStr output
  if errors != "" then (← IO.getStderr).putStr (errors ++ "\n")
  return status.toUInt32

end SchemaForm.CommandLine

open SchemaForm.CommandLine

/-- The program. -/
def main (words : List String) : IO UInt32 := do
  match ← readSettings with
  | .error fault => finish 1 "" fault.message
  | .ok settings =>
    let contents ← readContents (Request.ofWords words)
    let content (path : String) : Content :=
      (SchemaForm.Entries.get? path contents).getD (.error .missing)
    match answerWords settings content words with
    | .ok found => finish found.status found.output found.errors
    | .error reason => finish 1 "" reason.message
