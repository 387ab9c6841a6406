import SchemaForm.Text.Quoted
import SchemaForm.Text.Digit

/-!
# Arguments of a command

How the words of a command line are taken apart into options and operands.

* `OptionForm`, `Usage` — what a command takes;
* `Word` — what a single word can be; `classify` tells it;
* `parse` — the words of a command, or why it stops.

Options may stand anywhere among the operands, up to a `--`. A long option may be cut short as long as
it is clear which one is meant, and may have its value after a `=`; short options without a value may
be written in one word. What nobody takes is left over, and it is for the caller to say what to do with
it.
-/

namespace SchemaForm.CommandLine

/-! ## What a command takes -/

/-- What an option does. -/
inductive OptionKind where
  /-- It asks for the help text, and nothing else matters. -/
  | help
  | flag
  | value
  deriving DecidableEq, Repr

/-- An option with its names. -/
structure OptionForm where
  names : List String
  kind : OptionKind
  deriving DecidableEq, Repr

/-- What a command takes. -/
structure Usage where
  options : List OptionForm
  /-- The names of the operands, each of which must be given. -/
  operands : List String
  /-- Whether the last operand takes all words after it, options among them. -/
  takesRest : Bool := false
  deriving DecidableEq, Repr

/-- Why a command stops at its arguments. -/
inductive Stop where
  | help
  | usage (message : String)
  deriving DecidableEq, Repr

/-- What was found among the words of a command. -/
structure Found where
  /-- The words for the operands. -/
  operands : List (String × List String) := []
  flags : List String := []
  values : List (String × String) := []
  /-- The words that nobody takes. -/
  extras : List String := []
  deriving DecidableEq, Repr

namespace OptionForm

/-- The option in messages. -/
def shown (o : OptionForm) : String := String.intercalate "/" o.names

/-- The name under which the option is found. -/
def key (o : OptionForm) : String := o.names.getLastD ""

/-- A message about the option. -/
def complaint (o : OptionForm) (message : String) : Stop :=
  .usage ("argument " ++ o.shown ++ ": " ++ message)

/-- A value was given to an option that takes none. -/
def unwanted (o : OptionForm) (value : List Char) : Stop :=
  o.complaint ("ignored explicit argument " ++ Text.quoted (String.ofList value))

end OptionForm

namespace Usage

/-- The options by their names, in order. -/
def byName (u : Usage) : List (String × OptionForm) :=
  u.options.flatMap fun o => o.names.map (·, o)

/-- The option of a name. -/
def option? (u : Usage) (name : String) : Option OptionForm :=
  (u.byName.find? (·.1 == name)).map Prod.snd

end Usage

/-! ## Words -/

/-- How a value is attached to its option. -/
inductive Attached where
  | nothing
  /-- After an equals sign. -/
  | equals (value : List Char)
  /-- Right after a short option. -/
  | joined (value : List Char)
  deriving DecidableEq, Repr

/-- An option as a word names it. -/
structure Reading where
  option : OptionForm
  /-- The full name. -/
  name : String
  attached : Attached
  deriving DecidableEq, Repr

/-- What a word can be. -/
inductive Word where
  | operand (text : String)
  /-- The word after which there are only operands. -/
  | separator
  /-- An option, known or not. -/
  | option (text : String) (reading : Option Reading)
  deriving DecidableEq, Repr

namespace Word

/-- The word as it was given. -/
def text : Word → String
  | .operand text => text
  | .separator => "--"
  | .option text _ => text

/-- Whether the word is an option. -/
def isOption : Word → Bool
  | .option .. => true
  | _ => false

end Word

/-- What is attached after the first equals sign, and what is before it. -/
def splitEquals (word : List Char) : List Char × Attached :=
  match word.dropWhile (· != '=') with
  | [] => (word, .nothing)
  | _ :: value => (word.takeWhile (· != '='), .equals value)

/-- The options that a word may stand for although it is no full name. -/
def readings (u : Usage) : List Char → List Reading
  | '-' :: '-' :: rest =>
    let (start, attached) := splitEquals ('-' :: '-' :: rest)
    u.byName.filterMap fun (name, option) =>
      if start.isPrefixOf name.toList then some ⟨option, name, attached⟩ else none
  | '-' :: c :: rest =>
    u.byName.filterMap fun (name, option) =>
      if name.toList = ['-', c] then some ⟨option, name, .joined rest⟩
      else if ('-' :: c :: rest).isPrefixOf name.toList then some ⟨option, name, .nothing⟩
      else none
  | _ => []

/-- Whether a word is a negative number. -/
def isNegativeNumber : List Char → Bool
  | '-' :: rest =>
    let isDigit (c : Char) : Bool := (Text.digitValue? c).isSome
    let whole := rest.takeWhile isDigit
    match rest.dropWhile isDigit with
    | [] => !whole.isEmpty
    | ['\n'] => !whole.isEmpty
    | '.' :: fraction =>
      let digits := fraction.takeWhile isDigit
      !digits.isEmpty && ["".toList, ['\n']].contains (fraction.dropWhile isDigit)
    | _ => false
  | _ => false

/-- What a word is. -/
def classify (u : Usage) (word : String) : Except Stop Word :=
  match word.toList with
  | [] => .ok (.operand word)
  | ['-'] => .ok (.operand word)
  | '-' :: rest =>
    let (start, attached) := splitEquals ('-' :: rest)
    match u.option? word, u.option? (String.ofList start) with
    | some option, _ => .ok (.option word (some ⟨option, word, .nothing⟩))
    | none, some option => .ok (.option word (some ⟨option, String.ofList start, attached⟩))
    | none, none =>
      match readings u ('-' :: rest) with
      | [reading] => .ok (.option word (some reading))
      | [] =>
        if isNegativeNumber ('-' :: rest) || rest.contains ' ' then .ok (.operand word)
        else .ok (.option word none)
      | several =>
        .error (.usage ("ambiguous option: " ++ word ++ " could match " ++
          String.intercalate ", " (several.map Reading.name)))
  | _ => .ok (.operand word)

/-- What the words are; after a separator there are only operands. -/
def classifyAll (u : Usage) : List String → Except Stop (List Word)
  | [] => .ok []
  | word :: rest =>
    if word = "--" then .ok (.separator :: rest.map .operand)
    else return (← classify u word) :: (← classifyAll u rest)

/-! ## Options -/

/-- Takes an option without a value. -/
def takeBare (found : Found) (option : OptionForm) : Except Stop Found :=
  match option.kind with
  | .help => .error .help
  | _ => .ok { found with flags := found.flags ++ [option.key] }

/-- The options of a word of short options, and what is left of the word. -/
def shortOptions (u : Usage) (option : OptionForm) : List Char → Except Stop (List OptionForm × List String)
  | [] => .ok ([option], [])
  | c :: rest =>
    if c = '-' then .error (option.unwanted (c :: rest))
    else match u.option? (String.ofList ['-', c]), rest with
      | none, _ => .ok ([option], [String.ofList ('-' :: c :: rest)])
      | some next, '=' :: value => .error (next.unwanted value)
      | some next, rest => do
        let (options, left) ← shortOptions u next rest
        return (option :: options, left)

/-- Whether the name of an option is a long one. -/
def isLong (name : String) : Bool := "--".toList.isPrefixOf name.toList

/-- Takes an option off the front: the new findings and the words that are left. -/
def takeOption (u : Usage) (found : Found) (reading : Reading) (rest : List Word) :
    Except Stop (Found × List Word) :=
  let option := reading.option
  if option.kind = .value then
    let keep (value : String) (rest : List Word) : Except Stop (Found × List Word) :=
      .ok ({ found with values := found.values ++ [(option.key, value)] }, rest)
    match reading.attached, rest with
    | .equals value, _ => keep (String.ofList value) rest
    | .joined value, _ => keep (String.ofList value) rest
    | .nothing, .operand value :: others => keep value others
    | .nothing, _ => .error (option.complaint "expected one argument")
  else
    match reading.attached with
    | .nothing => return (← takeBare found option, rest)
    | .equals value => .error (option.unwanted value)
    | .joined value =>
      if isLong reading.name then .error (option.unwanted value)
      else do
        let (options, left) ← shortOptions u option value
        let found ← options.foldlM takeBare found
        return ({ found with extras := found.extras ++ left }, rest)

/-! ## Operands -/

/-- Takes the words for one operand off the front: a word with the separator around it. -/
def takeOperand? : List Word → Option (String × List Word)
  | .separator :: .operand text :: rest => some (text, rest)
  | .operand text :: .separator :: rest => some (text, rest)
  | .operand text :: rest => some (text, rest)
  | _ => none

/-- Takes the words for as many operands as there are words for. -/
def takeOperands (takesRest : Bool) (found : Found) :
    List String → List Word → Found × List String × List Word
  | [], words => (found, [], words)
  | name :: names, words =>
    match takeOperand? words with
    | none => (found, name :: names, words)
    | some (text, rest) =>
      let keep (texts : List String) : Found :=
        { found with operands := found.operands ++ [(name, texts)] }
      if takesRest && names.isEmpty then (keep (words.map Word.text), [], [])
      else takeOperands takesRest (keep [text]) names rest

/-! ## Commands -/

/-- Takes words that hold no option: those that are no operands are left over. -/
def takeLast (u : Usage) (found : Found) (names : List String) (words : List Word) :
    Found × List String :=
  let (taken, missing, rest) := takeOperands u.takesRest found names words
  ({ taken with extras := taken.extras ++ rest.map Word.text }, missing)

/-- Takes options and the operands before and between them; each step takes a word, and there are at
most so many. -/
def takeWords (u : Usage) : Nat → Found → List String → List Word →
    Except Stop (Found × List String)
  | 0, found, names, words => .ok (takeLast u found names words)
  | bound + 1, found, names, words =>
    if !words.any Word.isOption then .ok (takeLast u found names words)
    else match words with
    | .option text none :: rest =>
      takeWords u bound { found with extras := found.extras ++ [text] } names rest
    | .option _ (some reading) :: rest => do
      let (found, rest) ← takeOption u found reading rest
      takeWords u bound found names rest
    | _ =>
      let (taken, left, rest) := takeOperands u.takesRest found names words
      if rest.length < words.length then takeWords u bound taken left rest
      else
        -- no operand is missing that could take these words
        let extras := found.extras ++ (words.takeWhile (!·.isOption)).map Word.text
        takeWords u bound { found with extras } names (words.dropWhile (!·.isOption))

/-- Takes the words of a command apart. All operands must be there. -/
def parse (u : Usage) (words : List String) : Except Stop Found := do
  let words ← classifyAll u words
  let (found, missing) ← takeWords u words.length {} u.operands words
  if missing.isEmpty then return found
  else throw (.usage ("the following arguments are required: " ++ String.intercalate ", " missing))

end SchemaForm.CommandLine
