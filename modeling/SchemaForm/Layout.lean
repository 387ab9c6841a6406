import SchemaForm.Issue
import SchemaForm.Scope

/-!
# Layouts

The half of a form description that says where the properties are shown: a tree of stacks and groups
with controls and captions as its leaves.

* `ControlOptions`, `Control`, `Layout` — the models of those names; a node is a `VerticalLayout`, a
  `HorizontalLayout`, a `Group`, a `Control` or a `Label`;
* `Layout.read` — from JSON (`parse_layout`); the tag of a node says what it is;
* `Layout.toValue` — to JSON (`layout_to_dict`); what is null is not written, hints of a host among it;
* `Layout.default` — a control for each of some names (`default_layout`).
-/

namespace SchemaForm

/-! ## Controls -/

/-- Hints for showing a control. Members that the model does not have are kept as they are. -/
structure ControlOptions where
  /-- The kind of widget to use. -/
  format : Option String := none
  /-- Whether the text has several lines. -/
  multi : Option Bool := none
  /-- How many lines are shown. -/
  rows : Option Int := none
  /-- Hints that only some widgets know. -/
  extra : List (String × Value) := []

namespace ControlOptions

/-- The names of the hints that all forms know. -/
def knownNames : List String := ["format", "multi", "rows"]

/-- Reads the fields of the options; a member that is not known is kept, also if it is null. -/
def readFields (members : List (String × Value)) : Checked ControlOptions :=
  ControlOptions.mk
    <$> nullable ["format"] readText members
    <*> nullable ["multi"] readFlag members
    <*> nullable ["rows"] readInteger members
    <*> .ok (members.filter fun member => !knownNames.contains member.1)

/-- Reads options. -/
def read : Value → Checked ControlOptions := readModel "ControlOptions" readFields

/-- The options in JSON, without those that are null. -/
def toValue (options : ControlOptions) : Value :=
  .objectOfSome <|
    [("format", .ofOption .text options.format),
      ("multi", .ofOption .bool options.multi),
      ("rows", .ofOption .int options.rows)] ++ options.extra

end ControlOptions

/-- What a control says about its label: a union of a flag, a text and nothing. -/
inductive LabelSetting where
  /-- Nothing: the property decides. -/
  | unset
  /-- Whether there is a label; which one is for the property to say. -/
  | flag (shown : Bool)
  | text (label : String)
  deriving DecidableEq, Repr

namespace LabelSetting

/-- Reads a label: a text, or what can be taken for a flag. What is neither has both issues. -/
def read : Value → Checked LabelSetting
  | .null => .ok .unset
  | .text label => .ok (.text label)
  | v =>
    match readFlag v with
    | .ok shown => .ok (.flag shown)
    | .bad issues =>
      match Checked.under (.field "bool") (.bad issues : Checked LabelSetting) with
      | .ok label => .ok label
      | .bad issues => .bad (⟨[.field "str"], .notText⟩ :: issues)

/-- The label in JSON. -/
def toValue : LabelSetting → Value
  | .unset => .null
  | .flag shown => .bool shown
  | .text label => .text label

end LabelSetting

/-- A place for one property. -/
structure Control where
  /-- The reference to the property. -/
  scope : String
  label : LabelSetting := .unset
  options : Option ControlOptions := none

namespace Control

/-- The tag of a control. -/
def tag : String := "Control"

/-- Takes the tag of a control. -/
def readTag : Value → Checked Unit
  | .text s => if s = tag then .ok () else .fail (.notAmong [tag])
  | _ => .fail (.notAmong [tag])

/-- Reads the fields of a control. -/
def readFields (members : List (String × Value)) : Checked Control :=
  (fun _ scope label options => ⟨scope, label, options⟩)
    <$> optional ["type"] () readTag members
    <*> required ["scope"] readText members
    <*> optional ["label"] .unset LabelSetting.read members
    <*> nullable ["options"] ControlOptions.read members

/-- Reads a control on its own, where the tag may be missing. -/
def read : Value → Checked Control := readModel "Control" readFields

/-- The control in JSON. -/
def toValue (control : Control) : Value :=
  .objectOfSome
    [("type", .text tag),
      ("scope", .text control.scope),
      ("label", control.label.toValue),
      ("options", .ofOption ControlOptions.toValue control.options)]

end Control

/-! ## Layout nodes -/

/-- The direction in which parts follow each other. -/
inductive Direction where
  | vertical
  | horizontal
  deriving DecidableEq, Repr

namespace Direction

/-- The name of the direction. -/
def name : Direction → String
  | .vertical => "vertical"
  | .horizontal => "horizontal"

end Direction

/-- A node of a layout. -/
inductive Layout where
  | stack (direction : Direction) (label : Option String) (elements : List Layout)
  /-- A vertical stack with a boundary around it if it has a label. -/
  | group (label : Option String) (elements : List Layout)
  | control (control : Control)
  /-- A text between the controls. -/
  | caption (text : String)

namespace Layout

instance : Inhabited Layout := ⟨.stack .vertical none []⟩

/-- What a node is, as its tag says. -/
inductive Tag where
  | verticalLayout
  | horizontalLayout
  | group
  | control
  | label
  deriving DecidableEq, Repr

namespace Tag

/-- All tags, in the order in which messages list them. -/
def all : List Tag := [.verticalLayout, .horizontalLayout, .group, .control, .label]

/-- How the tag is written. -/
def name : Tag → String
  | .verticalLayout => "VerticalLayout"
  | .horizontalLayout => "HorizontalLayout"
  | .group => "Group"
  | .control => Control.tag
  | .label => "Label"

/-- The tag that is written so. -/
def ofName? (name : String) : Option Tag := all.find? (·.name == name)

theorem ofName?_name (t : Tag) : ofName? t.name = some t := by cases t <;> decide

/-- The text of a tag that nobody knows. -/
def shown (v : Value) : String :=
  match v.display with
  | .ok text => text
  | .error _ => "<unprintable " ++ v.typeName ++ " object>"

/-- The tag among the members of a node. -/
def read (members : List (String × Value)) : Checked Tag :=
  match Entries.get? "type" members with
  | none => .fail .noTag
  | some v =>
    let tag? := match v with
      | .text name => ofName? name
      | _ => none
    match tag? with
    | some tag => .ok tag
    | none => .fail (.unknownTag (shown v) (all.map name))

end Tag

/-! ## Reading -/

/-- The label of a stack or group. -/
def readLabel (members : List (String × Value)) : Checked (Option String) :=
  nullable ["label"] readText members

mutual

/-- Reads a node (`parse_layout`): the issues of its fields are reported under its tag. -/
def read : Value → Checked Layout
  | .object members =>
    match Tag.read members with
    | .bad issues => .bad issues
    | .ok tag =>
      Checked.under (.field tag.name) <|
        match tag with
        | .verticalLayout => Layout.stack .vertical <$> readLabel members <*> readElements members
        | .horizontalLayout =>
          Layout.stack .horizontal <$> readLabel members <*> readElements members
        | .group => Layout.group <$> readLabel members <*> readElements members
        | .control => Layout.control <$> Control.readFields members
        | .label => Layout.caption <$> required ["text"] readText members
  | _ => .fail .notNode

/-- Reads the elements among the members of a node; without that member there are none. -/
def readElements : List (String × Value) → Checked (List Layout)
  | [] => .ok []
  | (name, v) :: rest =>
    if name = "elements" then (readElementList v).under (.field "elements") else readElements rest

/-- Reads a list of nodes. -/
def readElementList : Value → Checked (List Layout)
  | .list items => readNodes 0 items
  | _ => .fail .notList

/-- Reads nodes, the first of which has this place. -/
def readNodes : Nat → List Value → Checked (List Layout)
  | _, [] => .ok []
  | i, v :: rest => List.cons <$> (read v).under (.index i) <*> readNodes (i + 1) rest

end

/-! ## Writing -/

mutual

/-- The node in JSON (`layout_to_dict`). -/
def toValue : Layout → Value
  | .stack direction label elements =>
    let tag : Tag := match direction with
      | .vertical => .verticalLayout
      | .horizontal => .horizontalLayout
    .objectOfSome
      [("label", .ofOption .text label), ("elements", .list (toValues elements)),
        ("type", .text tag.name)]
  | .group label elements =>
    .objectOfSome
      [("label", .ofOption .text label), ("elements", .list (toValues elements)),
        ("type", .text Tag.group.name)]
  | .control bound => bound.toValue
  | .caption text => .objectOfSome [("type", .text Tag.label.name), ("text", .text text)]

/-- The nodes in JSON. -/
def toValues : List Layout → List Value
  | [] => []
  | node :: rest => toValue node :: toValues rest

end

/-- `default_layout`: a control for each of the names, one below the other. -/
def default (names : List String) : Layout :=
  .stack .vertical none (names.map fun name => .control (Control.mk (Scope.ofName name) .unset none))

end Layout

end SchemaForm
