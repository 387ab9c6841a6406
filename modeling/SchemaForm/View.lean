import SchemaForm.Field

/-!
# Views

What a form shows, as a tree: stacks and fieldsets, captions, headings and buttons, and the widgets in
which values are edited.

* `Binding` — what a widget shows and edits (`FieldProps`);
* `WidgetClass`, `Widget` — the five built-in widgets (`TextField`, `NumberField`, `TextareaField`, `SelectField`,
  `CheckboxField`), and those that a host adds;
* `View` — the tree: `Stack`, `Fieldset`, `Caption`, `Heading`, `Button`, `FormView` and widgets; `View.widgets`
  lists its widgets (`iter_widgets`), `View.widget?` finds one by its name (`find_widget`).
-/

namespace SchemaForm

/-! ## Widgets -/

/-- What a widget shows and edits (`FieldProps`). Its callbacks are `set_value` and `set_touched` for the name
of the field, and are no part of it. -/
structure Binding where
  field : Field
  /-- The kind that was asked for. -/
  kind : String
  value : Value
  /-- The message at the value, whether it is shown or not. -/
  error : Option String
  touched : Bool

namespace Binding

/-- The name of the property. -/
def name (b : Binding) : String := b.field.name

/-- `visible_error`: the message, if the property was touched. -/
def visibleError (b : Binding) : Option String := if b.touched then b.error else none

/-- The kinds for which there is an input of that very type. -/
def inputTypes : List String :=
  ["text", "email", "password", "date", "datetime-local", "time", "tel", "url"]

/-- `input_type` of a line of text: the kind, if there is an input of that type. -/
def inputType (b : Binding) : String := if inputTypes.contains b.kind then b.kind else "text"

/-- `step` of an input for numbers. -/
def step (b : Binding) : String := if b.field.property.type = .integer then "1" else "any"

/-- The number of lines if nothing else is said. -/
def defaultRows : Int := 3

/-- `rows` of an input for long texts: what the options ask for, unless it is zero. -/
def rows (b : Binding) : Int :=
  match b.field.options.bind (·.rows) with
  | some rows => if rows = 0 then defaultRows else rows
  | none => defaultRows

/-- `choices` of a select: the values to choose from, with their texts. -/
def choices (b : Binding) : Except DisplayError (List (Value × String)) := b.field.property.choices

/-- `checked` of a checkbox: by true alone. -/
def checked (b : Binding) : Bool :=
  match b.value with
  | .bool flag => flag
  | _ => false

end Binding

/-- A widget that a host adds. -/
structure HostWidget where
  className : String
  /-- The name of the widget in style sheets. -/
  component : String
  /-- The HTML of the widget, if it has any. -/
  html? : Option (Binding → String)

/-- The classes of widgets. -/
inductive WidgetClass where
  | text
  | number
  | textarea
  | select
  | checkbox
  | host (widget : HostWidget)

namespace WidgetClass

/-- The name of the class. -/
def name : WidgetClass → String
  | .text => "TextField"
  | .number => "NumberField"
  | .textarea => "TextareaField"
  | .select => "SelectField"
  | .checkbox => "CheckboxField"
  | .host widget => widget.className

/-- The name of the class in style sheets. -/
def component : WidgetClass → String
  | .text => "text"
  | .number => "number"
  | .textarea => "textarea"
  | .select => "select"
  | .checkbox => "checkbox"
  | .host widget => widget.component

/-- Whether the class is one of the library. -/
def isBuiltIn : WidgetClass → Bool
  | .host _ => false
  | _ => true

end WidgetClass

/-- A widget with what it shows. -/
structure Widget where
  cls : WidgetClass
  binding : Binding

/-! ## Trees -/

/-- What a form shows: a node of the tree that `render` returns. -/
inductive View where
  | nothing
  | form (title body : View) (actions : List View)
  | stack (direction : Direction) (children : List View)
  | fieldset (legend : String) (content : View)
  | caption (text : String)
  | heading (text : String)
  | button (label kind : String) (disabled : Bool)
  | widget (widget : Widget)
  /-- Something of a host that knows its HTML. -/
  | custom (html : String)
  /-- Something of a host that has no HTML. -/
  | unknown (className : String)

namespace View

instance : Inhabited View := ⟨.nothing⟩

mutual

/-- The widgets of a view from top to bottom (`iter_widgets`). Those of a form are in its body. -/
def widgets : View → List Widget
  | .widget w => [w]
  | .stack _ children => widgetsOfAll children
  | .fieldset _ content => widgets content
  | .form _ body _ => widgets body
  | _ => []

/-- The widgets of several views, in order. -/
def widgetsOfAll : List View → List Widget
  | [] => []
  | view :: rest => widgets view ++ widgetsOfAll rest

end

/-- The first widget for a property (`find_widget`). -/
def widget? (view : View) (name : String) : Option Widget :=
  view.widgets.find? (·.binding.name == name)

end View

end SchemaForm
