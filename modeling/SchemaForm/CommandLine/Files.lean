import SchemaForm.Json.Parser
import SchemaForm.Text.Quoted
import SchemaForm.Text.Utf8

/-!
# Files of a command

What a command gets from the files that it is given.

* `plainPath` — a path without what does not matter in it;
* `FileFault`, `Content` — what reading a file brings: octets, or why there are none;
* `readJson` — the value in a file, or what is wrong with it.
-/

namespace SchemaForm.CommandLine

/-! ## Paths -/

/-- The slashes at the start of an absolute path: exactly two stay two, any other number becomes one. -/
def rootOf (path : List Char) : List Char :=
  match (path.takeWhile (· == '/')).length with
  | 0 => []
  | 2 => ['/', '/']
  | _ => ['/']

/-- The parts of a path between the slashes. -/
def partsOf (path : String) : List String := path.splitOn "/"

/-- A path without empty parts and parts that stand for the place itself. -/
def plainPath (path : String) : String :=
  let parts := (partsOf path).filter fun part => part != "" && part != "."
  let plain := String.ofList (rootOf path.toList) ++ String.intercalate "/" parts
  if plain = "" then "." else plain

/-! ## Reading -/

/-- Why a file cannot be read. -/
inductive FileFault where
  | missing
  | notDirectory
  | isDirectory
  | nameTooLong
  | permission
  | other (code : Nat) (text : String)
  deriving DecidableEq, Repr

namespace FileFault

/-- The number of the fault. -/
def code : FileFault → Nat
  | .missing => 2
  | .permission => 13
  | .notDirectory => 20
  | .isDirectory => 21
  | .nameTooLong => 36
  | .other code _ => code

/-- The fault in words. -/
def text : FileFault → String
  | .missing => "No such file or directory"
  | .permission => "Permission denied"
  | .notDirectory => "Not a directory"
  | .isDirectory => "Is a directory"
  | .nameTooLong => "File name too long"
  | .other _ text => text

/-- The message of the fault for the file at a path. -/
def message (fault : FileFault) (path : String) : String :=
  "[Errno " ++ toString fault.code ++ "] " ++ fault.text ++ ": " ++ Text.quoted (plainPath path)

end FileFault

/-- The octets of a file, or why there are none. -/
abbrev Content := Except FileFault (List Nat)

/-- Why there is no value in a file. -/
inductive ReadFault where
  | file (fault : FileFault)
  | encoding (fault : Text.Utf8.Fault)
  | json (error : Json.ReadError)
  deriving DecidableEq, Repr

/-- Text with a line feed at the end of every line, whichever way the lines end in the file. -/
def unifyLines : List Char → List Char
  | '\r' :: '\n' :: rest => '\n' :: unifyLines rest
  | '\r' :: rest => '\n' :: unifyLines rest
  | c :: rest => c :: unifyLines rest
  | [] => []

/-- The value in a file. -/
def readJson (content : Content) : Except ReadFault Value := do
  let octets ← content.mapError .file
  let text ← (Text.Utf8.decode octets).mapError .encoding
  (Json.parse (String.ofList (unifyLines text))).mapError .json

end SchemaForm.CommandLine
