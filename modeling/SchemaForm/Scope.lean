import SchemaForm.Text.Word

/-!
# Scopes

The references by which controls name properties: the marker `#/properties/` and the name, in which
`~` and `/` are written `~0` and `~1`.

* `Scope.name` — the name that a reference stands for (`scope_to_property_name`);
* `Scope.ofName` — the reference of a name (`scope_for`).

`_SCOPE_PATTERN`, the pattern `#/properties/(.+)`, is searched for and not matched from the start: the marker
may stand anywhere, the first one with a character behind it counts, and the name goes to the end of the line,
since the point of the pattern stands for any character but a line feed. A text in which nothing is found
is the name itself.
-/

namespace SchemaForm.Scope

open SchemaForm.Text

/-- What a reference starts with. -/
def marker : List Char := "#/properties/".toList

/-! ## Finding the name -/

/-- The characters that `.+` runs through: what is left of the line. -/
def restOfLine (text : List Char) : List Char := text.takeWhile (· != '\n')

/-- The group of the pattern: the rest of the line behind the first marker that does not stand at the end of
one. -/
def reference? : List Char → Option (List Char)
  | [] => none
  | c :: rest =>
    match (afterWord? marker (c :: rest)).map restOfLine with
    | some (d :: name) => some (d :: name)
    | _ => reference? rest

/-- Undoes the escapes of a name: `~1` in the whole name, and then `~0`. -/
def unescape (text : List Char) : List Char :=
  replacePair '~' '0' '~' (replacePair '~' '1' '/' text)

/-- The name that a reference stands for (`scope_to_property_name`). -/
def name (scope : String) : String :=
  match reference? scope.toList with
  | some escaped => String.ofList (unescape escaped)
  | none => scope

/-! ## Writing the name -/

/-- A character of a name as `scope_for` writes it. -/
def escapeChar (c : Char) : List Char :=
  if c = '~' then ['~', '0'] else if c = '/' then ['~', '1'] else [c]

/-- The reference of a name (`scope_for`). Escaping `~` first and `/` then is the same as escaping each
character once. -/
def ofName (name : String) : String :=
  String.ofList (marker ++ name.toList.flatMap escapeChar)

end SchemaForm.Scope
