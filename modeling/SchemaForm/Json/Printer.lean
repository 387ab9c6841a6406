import SchemaForm.Value.Display

/-!
# Writing JSON

The text of a value, in ASCII: what is not printable ASCII is escaped by its UTF-16 code units.
Floating point numbers are written as they are shown, infinities and what is not a number by the words
that the parser reads.

* `quote` — a string;
* `Spacing` — on one line, or with each part on a line of its own, indented by its depth;
* `print` — a value.
-/

namespace SchemaForm.Json

/-- A code unit as an escape. -/
def unicodeEscape (unit : Nat) : List Char := '\\' :: 'u' :: Text.hexDigits 4 unit

/-- One character of a string. -/
def escapeChar (c : Char) : List Char :=
  let n := c.toNat
  if c == '\x22' then ['\\', '\x22']
  else if c == '\\' then ['\\', '\\']
  else if c == '\n' then ['\\', 'n']
  else if c == '\r' then ['\\', 'r']
  else if c == '\t' then ['\\', 't']
  else if n == 0x08 then ['\\', 'b']
  else if n == 0x0c then ['\\', 'f']
  else if 0x20 ≤ n && n ≤ 0x7e then [c]
  else if n < 0x10000 then unicodeEscape n
  else
    -- two code units of ten bits each
    let offset := n - 0x10000
    unicodeEscape (0xd800 + offset / 0x400) ++ unicodeEscape (0xdc00 + offset % 0x400)

/-- A string with its quotes. -/
def quote (s : String) : String :=
  String.ofList ('\x22' :: (s.toList.flatMap escapeChar ++ ['\x22']))

/-- Floating point numbers as they are shown, with words for what is not finite. -/
def numberLayout : NumberLayout :=
  { Binary64.shownLayout with infinity := "Infinity", notANumber := "NaN" }

/-- Where the parts of a value go. -/
inductive Spacing where
  /-- All on one line. -/
  | line
  /-- Each on a line of its own, this many blanks further in than the whole. -/
  | indented (width : Nat)
  deriving DecidableEq, Repr

namespace Spacing

/-- What stands before a part at a depth. -/
def lineStart (depth : Nat) : Spacing → String
  | .line => ""
  | .indented width => String.ofList ('\n' :: List.replicate (width * depth) ' ')

/-- What stands between the parts, before the break. -/
def comma : Spacing → String
  | .line => ", "
  | .indented _ => ","

/-- Brackets around parts, a pair without a break if there is none. -/
def bracket (spacing : Spacing) (opening closing : String) (depth : Nat) : List String → String
  | [] => opening ++ closing
  | parts =>
    opening ++ String.intercalate spacing.comma (parts.map (spacing.lineStart (depth + 1) ++ ·)) ++
      spacing.lineStart depth ++ closing

end Spacing

mutual

/-- The text of a value at a depth. -/
def printAt (spacing : Spacing) (depth : Nat) : Value → String
  | .null => "null"
  | .bool flag => if flag then "true" else "false"
  | .int n => intText n
  | .float x => x.toText numberLayout
  | .text s => quote s
  | .list items => spacing.bracket "[" "]" depth (printItems spacing (depth + 1) items)
  | .object members =>
    spacing.bracket "\x7b" "\x7d" depth (printMembers spacing (depth + 1) members)

/-- The texts of the parts of a list. -/
def printItems (spacing : Spacing) (depth : Nat) : List Value → List String
  | [] => []
  | v :: rest => printAt spacing depth v :: printItems spacing depth rest

/-- The texts of the members of an object. -/
def printMembers (spacing : Spacing) (depth : Nat) : List (String × Value) → List String
  | [] => []
  | (name, v) :: rest =>
    (quote name ++ ": " ++ printAt spacing depth v) :: printMembers spacing depth rest

end

/-- The text of a value. -/
def print (spacing : Spacing) (v : Value) : String := printAt spacing 0 v

end SchemaForm.Json
