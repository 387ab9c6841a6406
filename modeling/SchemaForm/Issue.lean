import SchemaForm.Value.Display
import SchemaForm.Number.Typed

/-!
# Reading models from values

A form is described by values that somebody else wrote. Reading them finds all that is wrong, not just
the first thing, and says where.

* `Issue` — what is wrong at which place;
* `Checked` — a result, or the issues; as an applicative functor it collects the issues of both sides;
* `readText`, `readFlag`, `readInteger`, … — the basic readers;
* `required`, `optional` — one field of an object, under the first of its names that is present.
-/

namespace SchemaForm

/-! ## Issues -/

/-- One step on the way from the whole to a part. -/
inductive Step where
  | field (name : String)
  | index (i : Nat)
  deriving DecidableEq, Repr

/-- What can be wrong with a part. -/
inductive Problem where
  | missing
  | notText
  | notFlag
  | unreadableFlag
  | notInteger
  | unreadableInteger
  | oversizedInteger
  | fractionalInteger
  | notFinite
  | notList
  | notObject
  /-- No object where this model is expected. -/
  | notModel (model : String)
  /-- No object where a layout node is expected. -/
  | notNode
  | notAmong (words : List String)
  | noTag
  | unknownTag (tag : String) (words : List String)
  /-- Names that are required but not declared. -/
  | undeclared (names : List String)
  | frozen
  deriving DecidableEq, Repr

namespace Problem

/-- The code by which a host tells problems apart. -/
def code : Problem → String
  | .missing => "missing"
  | .notText => "string_type"
  | .notFlag => "bool_type"
  | .unreadableFlag => "bool_parsing"
  | .notInteger => "int_type"
  | .unreadableInteger => "int_parsing"
  | .oversizedInteger => "int_parsing_size"
  | .fractionalInteger => "int_from_float"
  | .notFinite => "finite_number"
  | .notList => "list_type"
  | .notObject => "dict_type"
  | .notModel _ => "model_type"
  | .notNode => "model_attributes_type"
  | .notAmong _ => "literal_error"
  | .noTag => "union_tag_not_found"
  | .unknownTag .. => "union_tag_invalid"
  | .undeclared _ => "value_error"
  | .frozen => "frozen_instance"

/-- A word between quotes. -/
def inQuotes (word : String) : String := "'" ++ word ++ "'"

/-- Words between quotes, the last one after an "or". -/
def alternatives : List String → String
  | [] => ""
  | [word] => inQuotes word
  | [word, last] => inQuotes word ++ " or " ++ inQuotes last
  | word :: rest => inQuotes word ++ ", " ++ alternatives rest

/-- What is wrong, in words. -/
def message : Problem → String
  | .missing => "Field required"
  | .notText => "Input should be a valid string"
  | .notFlag => "Input should be a valid boolean"
  | .unreadableFlag => "Input should be a valid boolean, unable to interpret input"
  | .notInteger => "Input should be a valid integer"
  | .unreadableInteger => "Input should be a valid integer, unable to parse string as an integer"
  | .oversizedInteger => "Unable to parse input string as an integer, exceeded maximum size"
  | .fractionalInteger => "Input should be a valid integer, got a number with a fractional part"
  | .notFinite => "Input should be a finite number"
  | .notList => "Input should be a valid list"
  | .notObject => "Input should be a valid dictionary"
  | .notModel model => "Input should be a valid dictionary or instance of " ++ model
  | .notNode => "Input should be a valid dictionary or object to extract fields from"
  | .notAmong words => "Input should be " ++ alternatives words
  | .noTag => "Unable to extract tag using discriminator 'type'"
  | .unknownTag tag words =>
    "Input tag '" ++ tag ++ "' found using 'type' does not match any of the expected tags: " ++
      String.intercalate ", " (words.map inQuotes)
  | .undeclared names =>
    "Value error, Required properties not declared in properties: " ++ String.intercalate ", " names
  | .frozen => "Instance is frozen"

end Problem

/-- A problem and the way to the part that has it. -/
structure Issue where
  path : List Step
  problem : Problem
  deriving DecidableEq, Repr

/-! ## Checked results -/

/-- A result, or all that stands in its way. -/
inductive Checked (α : Type) where
  | ok (value : α)
  | bad (issues : List Issue)
  deriving Repr

namespace Checked

variable {α β : Type}

/-- A single problem of the whole. -/
def fail (problem : Problem) : Checked α := .bad [⟨[], problem⟩]

/-- Changes the result. -/
def map (f : α → β) : Checked α → Checked β
  | .ok a => .ok (f a)
  | .bad issues => .bad issues

/-- Applies a checked function; the issues of the function come first. -/
def apply : Checked (α → β) → Checked α → Checked β
  | .ok f, .ok a => .ok (f a)
  | .ok _, .bad issues => .bad issues
  | .bad issues, .ok _ => .bad issues
  | .bad issues, .bad more => .bad (issues ++ more)

/-- Goes on with a result; without one the issues stay as they are. -/
def andThen (f : α → Checked β) : Checked α → Checked β
  | .ok a => f a
  | .bad issues => .bad issues

instance : Functor Checked := ⟨map, fun a => map fun _ => a⟩

instance : Applicative Checked where
  pure := .ok
  seq f x := f.apply (x ())

/-- Puts a step in front of the places of all issues. -/
def under (step : Step) : Checked α → Checked α
  | .ok a => .ok a
  | .bad issues => .bad (issues.map fun issue => { issue with path := step :: issue.path })

/-- The result as an exception. -/
def toExcept : Checked α → Except (List Issue) α
  | .ok a => .ok a
  | .bad issues => .error issues

@[simp] theorem map_ok (f : α → β) (a : α) : map f (.ok a) = .ok (f a) := rfl

@[simp] theorem apply_ok (f : α → β) (a : α) : apply (.ok f) (.ok a) = .ok (f a) := rfl

@[simp] theorem andThen_ok (f : α → Checked β) (a : α) : andThen f (.ok a) = f a := rfl

@[simp] theorem under_ok (step : Step) (a : α) : under step (.ok a : Checked α) = .ok a := rfl

@[simp] theorem map_eq (f : α → β) (x : Checked α) : f <$> x = x.map f := rfl

@[simp] theorem seq_eq (f : Checked (α → β)) (x : Checked α) : f <*> x = f.apply x := rfl

@[simp] theorem pure_eq (a : α) : (pure a : Checked α) = .ok a := rfl

/-- A result of two parts needs both. -/
theorem apply_eq_ok_iff {f : Checked (α → β)} {x : Checked α} {b : β} :
    f.apply x = .ok b ↔ ∃ g a, f = .ok g ∧ x = .ok a ∧ g a = b := by
  cases f <;> cases x <;> simp [apply]

/-- Reads the parts of a list, with their places. -/
def mapIdx (f : α → Checked β) : Nat → List α → Checked (List β)
  | _, [] => .ok []
  | i, a :: rest => List.cons <$> (f a).under (.index i) <*> mapIdx f (i + 1) rest

end Checked

/-! ## Basic readers -/

variable {α : Type}

/-- Takes any value. -/
def readAny (v : Value) : Checked Value := .ok v

/-- Takes a text and nothing else. -/
def readText : Value → Checked String
  | .text s => .ok s
  | _ => .fail .notText

/-- Words for false, in lower case. -/
def falseWords : List String := ["0", "off", "f", "false", "n", "no"]

/-- Words for true, in lower case. -/
def trueWords : List String := ["1", "on", "t", "true", "y", "yes"]

/-- The whole number zero or one as a flag. -/
def flagOfInt (n : Int) : Checked Bool :=
  if n = 0 then .ok false else if n = 1 then .ok true else .fail .unreadableFlag

/-- Takes a flag, zero or one, or a word for a flag. -/
def readFlag : Value → Checked Bool
  | .bool flag => .ok flag
  | .int n => if inWordRange n || n = -wordBound then flagOfInt n else .fail .notFlag
  | .float x =>
    match x.toInt? with
    | some n => if inWordRange n then flagOfInt n else .fail .notFlag
    | none => .fail .notFlag
  | .text s =>
    if falseWords.contains s.toLower then .ok false
    else if trueWords.contains s.toLower then .ok true
    else .fail .unreadableFlag
  | _ => .fail .notFlag

/-- Takes a whole number, also one that is held as a floating point number, as a flag or as a text. -/
def readInteger : Value → Checked Int
  | .bool flag => .ok (if flag then 1 else 0)
  | .int n => .ok n
  | .float x =>
    if !x.isFinite then .fail .notFinite
    else match x.toInt? with
      | some n => if inWordRange n then .ok n else .fail .oversizedInteger
      | none => .fail .fractionalInteger
  | .text s =>
    match typedInteger s with
    | .ok n => .ok n
    | .error .malformed => .fail .unreadableInteger
    | .error (.tooLong _) => .fail .oversizedInteger
  | _ => .fail .notInteger

/-- Takes a list of parts. -/
def readList (read : Value → Checked α) : Value → Checked (List α)
  | .list items => Checked.mapIdx read 0 items
  | _ => .fail .notList

/-- Takes an object of parts, each under its name. -/
def readEntries (read : Value → Checked α) : List (String × Value) → Checked (List (String × α))
  | [] => .ok []
  | (name, v) :: rest =>
    (fun a entries => (name, a) :: entries) <$> (read v).under (.field name) <*> readEntries read rest

/-- Takes an object of parts, each under its name. -/
def readObject (read : Value → Checked α) : Value → Checked (OrderedMap α)
  | .object members => OrderedMap.ofList <$> readEntries read members
  | _ => .fail .notObject

/-- Takes null for nothing. -/
def readNullable (read : Value → Checked α) : Value → Checked (Option α)
  | .null => .ok none
  | v => some <$> read v

/-! ## Fields of an object -/

/-- The first of these names that is present, with its value. -/
def firstPresent? (names : List String) (members : List (String × Value)) :
    Option (String × Value) :=
  names.findSome? fun name => (Entries.get? name members).map (name, ·)

/-- A field that must be there. A missing one is reported under its first name. -/
def required (names : List String) (read : Value → Checked α) (members : List (String × Value)) :
    Checked α :=
  match firstPresent? names members with
  | some (name, v) => (read v).under (.field name)
  | none => (Checked.fail .missing).under (.field (names.headD ""))

/-- A field with a value for its absence. -/
def optional (names : List String) (absent : α) (read : Value → Checked α)
    (members : List (String × Value)) : Checked α :=
  match firstPresent? names members with
  | some (name, v) => (read v).under (.field name)
  | none => .ok absent

/-- A field that may be absent or null. -/
def nullable (names : List String) (read : Value → Checked α) (members : List (String × Value)) :
    Checked (Option α) :=
  optional names none (readNullable read) members

/-- The members of an object; anything else is no such model. -/
def readModel (model : String) (read : List (String × Value) → Checked α) : Value → Checked α
  | .object members => read members
  | _ => .fail (.notModel model)

end SchemaForm
