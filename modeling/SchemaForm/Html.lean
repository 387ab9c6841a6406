import SchemaForm.View
import SchemaForm.Value.Equality
import SchemaForm.Html.Markup

/-!
# Views as HTML

The fragment of HTML that shows a view.

* `Html.Failure` — what `to_html` raises for a view without HTML;
* `Html.displayValue` — the text of a value in a widget (`_display_value`);
* `Widget.markup` — the markup of a widget (`_widget_html`), with its label (`_label`), its input
  (`_control_html`) and its message (`_error`);
* `View.markup`, `View.toHtml` — the markup of a view, and its text (`to_html`).

The recursion goes down the view as far as it reaches; the stack of an interpreter is no part of this library.
-/

namespace SchemaForm

namespace Html

/-- Why a view has no HTML: a host has a part of its own that knows none, or a whole number is too long. -/
inductive Failure where
  /-- A widget of this class has none. -/
  | widgetWithout (className : String)
  /-- Something else of this class has none. -/
  | nodeWithout (className : String)
  /-- A value has no text. -/
  | undisplayable (error : DisplayError)
  deriving DecidableEq, Repr

namespace Failure

/-- The message of the failure. -/
def message : Failure → String
  | .widgetWithout className => "No HTML output for widget " ++ className
  | .nodeWithout className => "No HTML output for " ++ className
  | .undisplayable error => error.message

end Failure

/-- An attribute with a value, as `_attrs` writes it. -/
def attr (name value : String) : Attribute := ⟨name, some value⟩

/-- An attribute of `_attrs` that is a flag: there or not. -/
def flag (name : String) (present : Bool) : List Attribute := if present then [⟨name, none⟩] else []

/-- The text of a value, as a part of a view. -/
def display (v : Value) : Except Failure String := v.display.mapError .undisplayable

/-- `_display_value`: the text of a value in a widget; null is shown as nothing. -/
def displayValue : Value → Except Failure String
  | .null => .ok ""
  | v => display v

end Html

open Html

/-! ## Widgets -/

namespace Binding

/-- The attributes that every input has. -/
def commonAttributes (b : Binding) : List Attribute :=
  [attr "id" b.name, attr "name" b.name] ++ flag "required" b.field.required

/-- `_label`: the label, if there is one, with a mark if a value is required. -/
def labelMarkup (b : Binding) : List Markup :=
  if b.field.hasLabel then
    [.element "label" [attr "for" b.name] <|
      .text b.field.label ::
        if b.field.required then [.element "span" [attr "class" "required"] [.text "*"]]
        else []]
  else []

/-- `_error`: the message, if one is shown. -/
def errorMarkup (b : Binding) : List Markup :=
  match b.visibleError with
  | some message => [.element "p" [attr "class" "field-error"] [.text message]]
  | none => []

/-- Whether a choice is the current one: the value is compared as it is held, and not as it is shown. -/
def selects (b : Binding) (choice : Value) : Bool :=
  match b.value with
  | .null => false
  | v => v.same choice

/-- One of the values to choose from. -/
def optionMarkup (b : Binding) (choice : Value × String) : Except Failure Markup := do
  let text ← displayValue choice.1
  return .element "option" (attr "value" text :: flag "selected" (b.selects choice.1))
    [.text choice.2]

/-- The input for a line of text or for a number. -/
def inputMarkup (b : Binding) (attributes : List Attribute) : Except Failure Markup := do
  let text ← displayValue b.value
  return .void "input" (attributes ++ attr "value" text :: b.commonAttributes)

/-- The list of the values to choose from. -/
def selectMarkup (b : Binding) : Except Failure Markup := do
  let choices ← b.choices.mapError .undisplayable
  let options ← choices.mapM b.optionMarkup
  return .element "select" b.commonAttributes
    (.element "option" [attr "value" ""] [.text "Select..."] :: options)

/-- The input for long texts. -/
def textareaMarkup (b : Binding) : Except Failure Markup := do
  let rows ← display (.int b.rows)
  let text ← displayValue b.value
  return .element "textarea" (attr "rows" rows :: b.commonAttributes) [.text text]

/-- The box to check. -/
def checkboxMarkup (b : Binding) : Markup :=
  .void "input" (attr "type" "checkbox" :: (flag "checked" b.checked ++ b.commonAttributes))

end Binding

namespace Widget

/-- A widget with its frame, which is named for the component. -/
def framed (w : Widget) (content : List Markup) : List Markup :=
  [.element "div" [attr "class" ("field field-" ++ w.cls.component)]
    (content ++ w.binding.errorMarkup)]

/-- `_widget_html`: the label, the input and the message of a widget. The label of a box stands behind it. -/
def markup (w : Widget) : Except Failure (List Markup) :=
  let b := w.binding
  match w.cls with
  | .text => return w.framed (b.labelMarkup ++ [← b.inputMarkup [attr "type" b.inputType]])
  | .number => return w.framed (b.labelMarkup ++
      [← b.inputMarkup [attr "type" "number", attr "step" b.step]])
  | .textarea => return w.framed (b.labelMarkup ++ [← b.textareaMarkup])
  | .select => return w.framed (b.labelMarkup ++ [← b.selectMarkup])
  | .checkbox => return w.framed (b.checkboxMarkup :: b.labelMarkup)
  | .host widget =>
    match widget.html? with
    | some html => return [.raw (html b)]
    | none => .error (.widgetWithout widget.className)

end Widget

/-! ## Views -/

namespace View

/-- The class of a stack. -/
def stackClass : Direction → String
  | .vertical => "vertical-layout"
  | .horizontal => "horizontal-layout flex gap-4"

/-- A child of a horizontal stack has a frame, so that all get the same share. -/
def cell : Direction → List Markup → List Markup
  | .vertical, content => content
  | .horizontal, content => [.element "div" [attr "class" "flex-1"] content]

/-- The row of the buttons of a form, if there are any. -/
def actionRow (buttons : List Markup) : List Markup :=
  [.element "div" [attr "class" "form-actions"] buttons]

mutual

/-- The markup of a view, by its nodes (`to_html`). -/
def markup : View → Except Failure (List Markup)
  | .nothing => return []
  | .form title body actions => do
    let heading ← markup title
    let content ← markup body
    match actions with
    | [] => return [.element "form" [⟨"novalidate", none⟩] (heading ++ content)]
    | action :: rest => do
      let first ← markup action
      let others ← markupOfAll .vertical rest
      return [.element "form" [⟨"novalidate", none⟩]
        (heading ++ content ++ actionRow (first ++ others))]
  | .stack direction children => do
    let content ← markupOfAll direction children
    return [.element "div" [attr "class" (stackClass direction)] content]
  | .fieldset legend content => do
    let inner ← markup content
    return [.element "fieldset" [] (.element "legend" [] [.text legend] :: inner)]
  | .caption text => return [.element "p" [attr "class" "label"] [.text text]]
  | .heading text => return [.element "h2" [] [.text text]]
  | .button label kind disabled =>
    return [.element "button" (attr "type" kind :: flag "disabled" disabled) [.text label]]
  | .widget w => w.markup
  | .custom html => return [.raw html]
  | .unknown className => .error (.nodeWithout className)

/-- The markup of the children of a stack. -/
def markupOfAll (direction : Direction) : List View → Except Failure (List Markup)
  | [] => return []
  | view :: rest => do
    let first ← markup view
    let others ← markupOfAll direction rest
    return cell direction first ++ others

end

/-- `to_html`: the HTML of a view. -/
def toHtml (view : View) : Except Failure String :=
  (view.markup).map fun parts => String.ofList (Markup.writeAll parts)

end View

end SchemaForm
