import SchemaForm.View.Registry
import SchemaForm.Schema.Property

/-!
# Rendering

The view of a layout for the values, messages and touched names of a form.

* `Context` — what a rendering looks up (`RenderContext`);
* `Context.view` — the view of a layout (`render`), with `Context.view?` for a node (`render_node`) and
  `Context.widget?` for a control (`_render_control`);
* `Layout.controls` — the controls of a layout, from top to bottom.

A control for an undeclared property has no view. Nothing is remembered from one rendering to the next.
-/

namespace SchemaForm

/-! ## Controls of a layout -/

namespace Layout

mutual

/-- The controls of a layout, from top to bottom. -/
def controls : Layout → List Control
  | .stack _ _ elements => controlsOfAll elements
  | .group _ elements => controlsOfAll elements
  | .control bound => [bound]
  | .caption _ => []

/-- The controls of several nodes, from top to bottom. -/
def controlsOfAll : List Layout → List Control
  | [] => []
  | node :: rest => controls node ++ controlsOfAll rest

end

end Layout

/-! ## Rendering -/

/-- What a rendering looks up (`RenderContext`). -/
structure Context where
  schema : Schema
  values : OrderedMap Value := ∅
  /-- Messages by property. -/
  errors : OrderedMap String := ∅
  /-- The names that were touched. -/
  touched : List String := []
  registry : Registry := .standard

namespace Context

/-- The `FieldProps` of a field: what is stored under its name. -/
def binding (c : Context) (field : Field) : Binding :=
  { field
    kind := field.kind
    value := (c.values.get? field.name).getD .null
    error := c.errors.get? field.name
    touched := c.touched.contains field.name }

/-- `_render_control`: the widget of a control, if its property is declared. -/
def widget? (c : Context) (control : Control) : Except MissingFallback (Option Widget) :=
  match control.field? c.schema with
  | none => .ok none
  | some field => (c.registry.create (c.binding field)).map some

mutual

/-- `render_node`: the view of a layout node, if there is anything to see. A group without a label is the
stack of its elements. -/
def view? (c : Context) : Layout → Except MissingFallback (Option View)
  | .stack direction _ elements => return some (.stack direction (← views c elements))
  | .group label elements => do
    let content := View.stack .vertical (← views c elements)
    match label.filter (· != "") with
    | some legend => return some (.fieldset legend content)
    | none => return some content
  | .control bound => return (← c.widget? bound).map View.widget
  | .caption text => return some (.caption text)

/-- `_render_children`: the views of nodes that follow each other. -/
def views (c : Context) : List Layout → Except MissingFallback (List View)
  | [] => return []
  | node :: rest => do
    let first ← view? c node
    let others ← views c rest
    return first.toList ++ others

end

/-- `render`: the view of a layout. -/
def view (c : Context) (layout : Layout) : Except MissingFallback View :=
  (c.view? layout).map (·.getD .nothing)

/-- Whether the widget of a control can be made, if it has one. -/
def succeeds (c : Context) (control : Control) : Bool := (c.widget? control).toOption.isSome

/-- What a rendering logs: the controls that are left out, up to the control at which it fails. -/
def events (c : Context) (layout : Layout) : List Event :=
  (layout.controls.takeWhile c.succeeds).flatMap (·.events c.schema)

end Context

end SchemaForm
