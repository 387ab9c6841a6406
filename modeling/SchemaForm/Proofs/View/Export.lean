import SchemaForm.Html
import SchemaForm.Proofs.Layout.Export
import SchemaForm.Proofs.Schema.Export
import SchemaForm.Proofs.View.Mapping

/-!
# What is shown of a layout that was written and read again

A layout loses the hints that are null when it is written, and a schema its empty texts. The HTML of a form
does not depend on them, as long as the widgets that a host adds do not either.

* `HostWidget.IgnoresNull`, `Registry.IgnoresNull` — the widgets do not look for hints that are null;
* `Context.markup_view_exported` — then what is left of a layout is shown as the layout is.
-/

namespace SchemaForm

open Html

/-! ## Widgets -/

/-- What is left of a field. -/
def Field.exported (field : Field) : Field :=
  { field with options := field.options.map ControlOptions.exported }

/-- What is left of what a widget shows. -/
def Binding.exported (b : Binding) : Binding := { b with field := b.field.exported }

/-- What is left of a widget. -/
def Widget.exported (w : Widget) : Widget := { w with binding := w.binding.exported }

/-- The HTML of the widget does not depend on hints that are null. -/
def HostWidget.IgnoresNull (widget : HostWidget) : Prop :=
  ∀ html ∈ widget.html?, ∀ b : Binding, html b.exported = html b

/-- The same of a class of widgets; the library asks for no hints but those that all forms know. -/
def WidgetClass.IgnoresNull : WidgetClass → Prop
  | .host widget => widget.IgnoresNull
  | _ => True

theorem Field.kind_exported (field : Field) : field.exported.kind = field.kind := by
  obtain ⟨name, label, property, required, options⟩ := field
  cases options <;> rfl

theorem Binding.rows_exported (b : Binding) : b.exported.rows = b.rows := by
  obtain ⟨⟨name, label, property, required, options⟩, kind, value, error, touched⟩ := b
  cases options <;> rfl

theorem Widget.markup_exported {w : Widget} (h : w.cls.IgnoresNull) : w.exported.markup = w.markup := by
  obtain ⟨cls, b⟩ := w
  cases cls with
  | text => rfl
  | number => rfl
  | textarea =>
    have htextarea : b.exported.textareaMarkup = b.textareaMarkup := by
      rw [Binding.textareaMarkup, Binding.rows_exported]
      rfl
    simp only [markup, exported, htextarea]
    rfl
  | select => rfl
  | checkbox => rfl
  | host widget =>
    have hhtml : ∀ html ∈ widget.html?, ∀ b : Binding, html b.exported = html b := h
    simp only [markup, exported]
    cases hw : widget.html? with
    | none => rfl
    | some html => simp only [hhtml html hw b]

/-- None of the widgets that a host adds looks for hints that are null. -/
def Registry.IgnoresNull (r : Registry) : Prop := ∀ entry ∈ r.classes.entries, entry.2.IgnoresNull

theorem Registry.create_exported (r : Registry) (b : Binding) :
    r.create b.exported = Widget.exported <$> r.create b := by
  have hkind : b.exported.kind = b.kind := rfl
  rw [create, create, hkind]
  cases r.resolve b.kind <;> rfl

theorem Registry.ignoresNull_standard : Registry.standard.IgnoresNull := by
  intro entry hmem
  obtain ⟨other, hother, heq⟩ := OrderedMap.mem_of_mem_ofList hmem
  simp only [List.mem_cons, List.not_mem_nil, or_false] at hother
  rw [← heq]
  rcases hother with rfl | rfl | rfl | rfl | rfl | rfl <;> trivial

theorem Control.field?_exported (control : Control) (schema : Schema) :
    control.exported.field? schema.exported = (control.field? schema).map Field.exported := by
  rw [field?, field?, Option.map_map]
  rfl

namespace Layout

mutual

/-- What is left of a layout is what is left of its controls. -/
theorem exported_eq_mapControls : ∀ layout : Layout, layout.exported = layout.mapControls Control.exported
  | .stack direction label elements => by rw [exported, mapControls, exportedAll_eq_mapControlsAll elements]
  | .group label elements => by rw [exported, mapControls, exportedAll_eq_mapControlsAll elements]
  | .control bound => by rw [exported, mapControls]
  | .caption text => by rw [exported, mapControls]

theorem exportedAll_eq_mapControlsAll : ∀ elements : List Layout,
    exportedAll elements = mapControlsAll Control.exported elements
  | [] => by rw [exportedAll, mapControlsAll]
  | node :: rest => by
    rw [exportedAll, mapControlsAll, exported_eq_mapControls node, exportedAll_eq_mapControlsAll rest]

end

end Layout

/-! ## Views -/

/-- Two results look the same through `f` if both fail in the same way, or what they are does. -/
theorem map_eq_map_iff {ε α β : Type} {f : α → β} {x y : Except ε α} :
    f <$> x = f <$> y ↔
      (∃ e, x = .error e ∧ y = .error e) ∨ ∃ a b, x = .ok a ∧ y = .ok b ∧ f a = f b := by
  cases x <;> cases y <;> simp [Functor.map, Except.map, eq_comm]

/-- The markup of a form depends on the markup of its body. -/
theorem View.markup_form_congr {title body other : View} {actions : List View}
    (h : body.markup = other.markup) : (form title body actions).markup = (form title other actions).markup := by
  rw [markup, markup, h]

namespace Context

/-- The same values, messages and widgets for what is left of the schema. -/
def exported (c : Context) : Context := { c with schema := c.schema.exported }

theorem binding_exported (c : Context) (field : Field) :
    c.exported.binding field.exported = (c.binding field).exported := by
  rw [binding, Field.kind_exported]
  rfl

/-- What is left of a control is shown by what is left of its widget, if the field is. -/
theorem widget?_exported_of_field? {c other : Context} {control : Control}
    (hfield : control.exported.field? other.schema = (control.field? c.schema).map Field.exported)
    (hbinding : ∀ field, other.binding field.exported = (c.binding field).exported)
    (hregistry : other.registry = c.registry) :
    other.widget? control.exported = Option.map Widget.exported <$> c.widget? control := by
  rw [widget?, widget?, hfield]
  cases control.field? c.schema with
  | none => rfl
  | some field =>
    simp only [Option.map_some, hregistry, hbinding, Registry.create_exported]
    cases c.registry.create (c.binding field) <;> rfl

theorem widget?_exported (c : Context) (control : Control) :
    c.exported.widget? control.exported = Option.map Widget.exported <$> c.widget? control :=
  widget?_exported_of_field? (control.field?_exported c.schema) c.binding_exported rfl

/-- What is left of all widgets looks as these do. -/
theorem markup_view_mapWidgets_exported {c : Context} (h : c.registry.IgnoresNull) (layout : Layout) :
    View.markup <$> View.mapWidgets Widget.exported <$> c.view layout = View.markup <$> c.view layout := by
  refine markup_view_mapWidgets fun control _ w hw => Widget.markup_exported ?_
  obtain ⟨entry, hentry, hcls⟩ := exists_entry_of_widget? hw
  exact hcls ▸ h entry hentry

/-- **What is left of a layout is shown as the layout is.** -/
theorem markup_view_exported {c : Context} (h : c.registry.IgnoresNull) (layout : Layout) :
    View.markup <$> c.exported.view layout.exported = View.markup <$> c.view layout := by
  rw [Layout.exported_eq_mapControls, view_mapControls fun control _ => c.widget?_exported control]
  exact markup_view_mapWidgets_exported h layout

end Context

end SchemaForm
