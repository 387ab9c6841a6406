import SchemaForm.Text.Word
import SchemaForm.Value

/-!
# Reading JSON

A parser for JSON text that says where a text goes wrong. Beside the standard it reads `NaN`,
`Infinity` and `-Infinity`; numbers without a fraction and an exponent are whole numbers of up to
`maxDigits` digits; of two members of one name the later gives the value and the earlier the place. A
string that escapes half of a surrogate pair is not read: there is no character for it.

* `Json.Fault` — what is wrong, and the text that is left there;
* `Json.parseValue` — one value off the front of a text;
* `Json.parse` — a whole text, with the offset of the fault in an error.

The recursion is on a bound for the nesting of calls, which `parseText` takes from the length of the
text, so that it is never reached. How deep lists and objects may be nested is limited by `maxNesting`.
-/

namespace SchemaForm.Json

open SchemaForm.Text (isAsciiDigit afterWord?)

/-- What has parts. -/
inductive Container where
  | list
  | object
  deriving DecidableEq, Repr

/-- What can be wrong with a text. -/
inductive Cause where
  | noValue
  | noName
  | noColon
  | noComma
  | openString
  | controlCharacter
  | badEscape
  | badUnicodeEscape
  /-- An escape is half of a surrogate pair and has no other half: no text of this library holds it. -/
  | halfPair
  | extraText
  | byteOrderMark
  | integerTooLong (digits : Nat)
  | nestedTooDeep (container : Container)
  deriving DecidableEq, Repr

/-- What is wrong, and how much text is left where it is. -/
structure Fault where
  cause : Cause
  left : Nat

/-- A fault at the front of this text. -/
def faultAt {α : Type} (cause : Cause) (text : List Char) : Except Fault α :=
  .error ⟨cause, text.length⟩

/-- Cuts the blanks between tokens off the front. -/
def skipBlanks (text : List Char) : List Char :=
  text.dropWhile fun c => c == ' ' || c == '\t' || c == '\n' || c == '\r'

/-! ## Strings -/

/-- The value of a hexadecimal digit. -/
def hexDigit? (c : Char) : Option Nat :=
  let n := c.toNat
  if 0x30 ≤ n && n ≤ 0x39 then some (n - 0x30)
  else if 0x61 ≤ n && n ≤ 0x66 then some (n - 0x61 + 10)
  else if 0x41 ≤ n && n ≤ 0x46 then some (n - 0x41 + 10)
  else none

/-- The number that four hexadecimal digits write. -/
def hex4? (a b c d : Char) : Option Nat := do
  let a ← hexDigit? a
  let b ← hexDigit? b
  let c ← hexDigit? c
  let d ← hexDigit? d
  return ((a * 16 + b) * 16 + c) * 16 + d

/-- Whether a code unit opens a surrogate pair. -/
def isHighSurrogate (unit : Nat) : Bool := 0xd800 ≤ unit && unit ≤ 0xdbff

/-- Whether a code unit closes a surrogate pair. -/
def isLowSurrogate (unit : Nat) : Bool := 0xdc00 ≤ unit && unit ≤ 0xdfff

/-- The character of a code unit on its own; half of a surrogate pair is none. -/
def charOfUnit? (unit : Nat) : Option Char :=
  if isHighSurrogate unit || isLowSurrogate unit then none else some (Char.ofNat unit)

/-- The character of a surrogate pair. -/
def charOfPair (high low : Nat) : Char :=
  Char.ofNat (0x10000 + (high - 0xd800) * 0x400 + (low - 0xdc00))

/-- The character that a one-letter escape stands for. -/
def shortEscape? (c : Char) : Option Char :=
  if c == '\x22' || c == '\\' || c == '/' then some c
  else if c == 'b' then some '\x08'
  else if c == 'f' then some '\x0c'
  else if c == 'n' then some '\n'
  else if c == 'r' then some '\r'
  else if c == 't' then some '\t'
  else none

/-- Reads a string after its opening quote up to the closing one. -/
def parseString : List Char → Except Fault (List Char × List Char)
  | [] => .error ⟨.openString, 0⟩
  | '\x22' :: rest => .ok ([], rest)
  | ['\\'] => .error ⟨.openString, 0⟩
  | '\\' :: 'u' :: a :: b :: c :: d :: '\\' :: 'u' :: a' :: b' :: c' :: d' :: e :: rest =>
    match hex4? a b c d, hex4? a' b' c' d' with
    | none, _ => .error ⟨.badUnicodeEscape, rest.length + 12⟩
    | some unit, low? =>
      if isHighSurrogate unit then
        match low? with
        | none => .error ⟨.badUnicodeEscape, rest.length + 6⟩
        | some low =>
          if isLowSurrogate low then do
            let (tail, rest) ← parseString (e :: rest)
            return (charOfPair unit low :: tail, rest)
          else .error ⟨.halfPair, rest.length + 12⟩
      else
        match charOfUnit? unit with
        | none => .error ⟨.halfPair, rest.length + 12⟩
        | some c => do
          let (tail, rest) ← parseString ('\\' :: 'u' :: a' :: b' :: c' :: d' :: e :: rest)
          return (c :: tail, rest)
  | '\\' :: 'u' :: a :: b :: c :: d :: e :: rest =>
    match hex4? a b c d with
    | none => .error ⟨.badUnicodeEscape, rest.length + 6⟩
    | some unit =>
      match charOfUnit? unit with
      | none => .error ⟨.halfPair, rest.length + 6⟩
      | some c => do
        let (tail, rest) ← parseString (e :: rest)
        return (c :: tail, rest)
  | '\\' :: 'u' :: rest => .error ⟨.badUnicodeEscape, rest.length + 1⟩
  | '\\' :: c :: rest =>
    match shortEscape? c with
    | none => .error ⟨.badEscape, rest.length + 2⟩
    | some escaped => do
      let (tail, rest) ← parseString rest
      return (escaped :: tail, rest)
  | c :: rest =>
    if c.toNat ≤ 0x1f then .error ⟨.controlCharacter, rest.length + 1⟩
    else do
      let (tail, rest) ← parseString rest
      return (c :: tail, rest)

/-- Reads a string after its opening quote; one that is not closed is at fault where it opens. -/
def parseQuoted (text : List Char) : Except Fault (String × List Char) :=
  match parseString text with
  | .ok (s, rest) => .ok (String.ofList s, rest)
  | .error fault =>
    .error (if fault.cause = .openString then ⟨.openString, text.length + 1⟩ else fault)

/-! ## Numbers -/

/-- The digits of the whole part: a single zero, or digits that do not start with one. -/
def takeWhole : List Char → List Char × List Char
  | '0' :: rest => (['0'], rest)
  | text => (text.takeWhile isAsciiDigit, text.dropWhile isAsciiDigit)

/-- A point and the digits after it, if there are any. -/
def takePoint : List Char → List Char × List Char
  | '.' :: rest =>
    let digits := rest.takeWhile isAsciiDigit
    if digits.isEmpty then ([], '.' :: rest) else ('.' :: digits, rest.dropWhile isAsciiDigit)
  | text => ([], text)

/-- A sign in front of the digits of an exponent. -/
def takeExponentSign : List Char → List Char × List Char
  | '+' :: rest => (['+'], rest)
  | '-' :: rest => (['-'], rest)
  | text => ([], text)

/-- An exponent, if there is one with digits. -/
def takeExponent : List Char → List Char × List Char
  | [] => ([], [])
  | mark :: rest =>
    if mark == 'e' || mark == 'E' then
      let (sign, after) := takeExponentSign rest
      let digits := after.takeWhile isAsciiDigit
      if digits.isEmpty then ([], mark :: rest)
      else (mark :: (sign ++ digits), after.dropWhile isAsciiDigit)
    else ([], mark :: rest)

/-- Reads a number. -/
def parseNumber (text : List Char) : Except Fault (Value × List Char) :=
  let (sign, unsigned) := match text with
    | '-' :: rest => (['-'], rest)
    | _ => ([], text)
  let (whole, afterWhole) := takeWhole unsigned
  if whole.isEmpty then faultAt .noValue text
  else
    let (point, afterPoint) := takePoint afterWhole
    let (exponent, rest) := takeExponent afterPoint
    if point.isEmpty && exponent.isEmpty then
      if maxDigits < whole.length then faultAt (.integerTooLong whole.length) text
      else .ok (.int (if sign.isEmpty then ofDigits whole else -(ofDigits whole : Int)), rest)
    else
      match Decimal.parse? (sign ++ whole ++ point ++ exponent) with
      | some d => .ok (.float (Binary64.ofDecimal d), rest)
      | none => faultAt .noValue text

/-! ## Values -/

/-- The words that stand for a value. -/
def words : List (List Char × Value) :=
  [("null".toList, .null), ("true".toList, .bool true), ("false".toList, .bool false),
    ("NaN".toList, .float .nan), ("Infinity".toList, .float (.infinite false)),
    ("-Infinity".toList, .float (.infinite true))]

/-- Reads a word or a number. -/
def parseAtom (text : List Char) : Except Fault (Value × List Char) :=
  match words.findSome? fun word => (afterWord? word.1 text).map (word.2, ·) with
  | some result => .ok result
  | none => parseNumber text

/-- Reads the name of a member with the colon after it. -/
def parseName : List Char → Except Fault (String × List Char)
  | '\x22' :: rest => do
    let (name, rest) ← parseQuoted rest
    match skipBlanks rest with
    | ':' :: rest => return (name, skipBlanks rest)
    | rest => faultAt .noColon rest
  | text => faultAt .noName text

/-- How many lists and objects may stand inside each other. -/
def maxNesting : Nat := 985

mutual

/-- Reads one value with up to `depth` lists and objects inside each other. -/
def parseValue : Nat → Nat → List Char → Except Fault (Value × List Char)
  | 0, _, text => faultAt .noValue text
  | bound + 1, depth, text => do
    match text, depth with
    | '\x22' :: rest, _ =>
      let (s, rest) ← parseQuoted rest
      return (.text s, rest)
    | '[' :: _, 0 => faultAt (.nestedTooDeep .list) text
    | '\x7b' :: _, 0 => faultAt (.nestedTooDeep .object) text
    | '[' :: rest, depth + 1 =>
      match skipBlanks rest with
      | ']' :: rest => return (.list [], rest)
      | rest =>
        let (items, rest) ← parseItems bound depth rest
        return (.list items, rest)
    | '\x7b' :: rest, depth + 1 =>
      match skipBlanks rest with
      | '\x7d' :: rest => return (.object [], rest)
      | rest =>
        let (members, rest) ← parseMembers bound depth rest
        return (.object (members.foldl (fun all member => Entries.set member.1 member.2 all) []), rest)
    | text, _ => parseAtom text

/-- Reads the parts of a list up to its end. -/
def parseItems : Nat → Nat → List Char → Except Fault (List Value × List Char)
  | 0, _, text => faultAt .noValue text
  | bound + 1, depth, text => do
    let (item, rest) ← parseValue bound depth text
    match skipBlanks rest with
    | ']' :: rest => return ([item], rest)
    | ',' :: rest =>
      let (items, rest) ← parseItems bound depth (skipBlanks rest)
      return (item :: items, rest)
    | rest => faultAt .noComma rest

/-- Reads the members of an object up to its end. -/
def parseMembers : Nat → Nat → List Char → Except Fault (List (String × Value) × List Char)
  | 0, _, text => faultAt .noName text
  | bound + 1, depth, text => do
    let (name, rest) ← parseName text
    let (value, rest) ← parseValue bound depth rest
    match skipBlanks rest with
    | '\x7d' :: rest => return ([(name, value)], rest)
    | ',' :: rest =>
      let (members, rest) ← parseMembers bound depth (skipBlanks rest)
      return ((name, value) :: members, rest)
    | rest => faultAt .noComma rest

end

/-- Reads a text that is one value with blanks around it. -/
def parseText (text : List Char) : Except Fault Value := do
  if text.head? = some (Char.ofNat 0xfeff) then faultAt .byteOrderMark text
  else
    let start := skipBlanks text
    -- of two calls inside each other at least one has read a character
    let (value, rest) ← parseValue (2 * start.length + 2) maxNesting start
    match skipBlanks rest with
    | [] => return value
    | rest => faultAt .extraText rest

/-! ## Errors of a whole text -/

/-- Why a text is not read. -/
inductive ReadError where
  /-- It is no JSON from this offset on. -/
  | malformed (cause : Cause) (offset : Nat) (line column : Nat)
  /-- It goes beyond a limit: a whole number has too many digits, or the nesting is too deep. -/
  | beyondLimit (cause : Cause)
  /-- A string has half of a surrogate pair. What a program makes of such a string is not said here. -/
  | halfPair
  deriving DecidableEq, Repr

namespace Cause

/-- What is wrong, in words. -/
def message : Cause → String
  | .noValue => "Expecting value"
  | .noName => "Expecting property name enclosed in double quotes"
  | .noColon => "Expecting ':' delimiter"
  | .noComma => "Expecting ',' delimiter"
  | .openString => "Unterminated string starting at"
  | .controlCharacter => "Invalid control character at"
  | .badEscape => "Invalid \\escape"
  | .badUnicodeEscape => "Invalid \\uXXXX escape"
  | .halfPair => "Half of a surrogate pair"
  | .extraText => "Extra data"
  | .byteOrderMark => "Unexpected UTF-8 BOM (decode using utf-8-sig)"
  | .integerTooLong digits =>
    "Exceeds the limit (" ++ toString maxDigits ++
      " digits) for integer string conversion: value has " ++ toString digits ++
      " digits; use sys.set_int_max_str_digits() to increase the limit"
  | .nestedTooDeep .list =>
    "maximum recursion depth exceeded while decoding a JSON array from a unicode string"
  | .nestedTooDeep .object =>
    "maximum recursion depth exceeded while decoding a JSON object from a unicode string"

end Cause

namespace ReadError

/-- The message of the error, with the place of the fault. -/
def message : ReadError → String
  | .malformed cause offset line column =>
    cause.message ++ ": line " ++ toString line ++ " column " ++ toString column ++
      " (char " ++ toString offset ++ ")"
  | .beyondLimit cause => cause.message
  | .halfPair => Cause.halfPair.message

end ReadError

/-- The error of a fault in a text: lines and columns count from one. -/
def ReadError.ofFault (text : List Char) (fault : Fault) : ReadError :=
  match fault.cause with
  | .integerTooLong digits => .beyondLimit (.integerTooLong digits)
  | .nestedTooDeep container => .beyondLimit (.nestedTooDeep container)
  | .halfPair => .halfPair
  | cause =>
    let offset := text.length - fault.left
    let before := text.take offset
    let line := before.count '\n' + 1
    let column := (before.reverse.takeWhile (· != '\n')).length + 1
    .malformed cause offset line column

/-- Reads a text that is one value with blanks around it. -/
def parse (text : String) : Except ReadError Value :=
  (parseText text.toList).mapError (ReadError.ofFault text.toList)

end SchemaForm.Json
