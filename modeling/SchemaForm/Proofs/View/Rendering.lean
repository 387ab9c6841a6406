import SchemaForm.Form

/-!
# What a view depends on

A view shows what is bound to its widgets and nothing else: two states of a form that bind the same to
every property look the same, whatever they hold besides.

* `Context.Alike` — two contexts that bind the same to every property;
* `Context.Alike.view_eq` — they have the same views.
-/

namespace SchemaForm

namespace Context

/-- The two contexts have the same properties and the same widgets, and what is found under the name of a
property is the same in both. -/
structure Alike (c d : Context) : Prop where
  schema : c.schema = d.schema
  registry : c.registry = d.registry
  value : ∀ name ∈ c.schema.names, c.values.get? name = d.values.get? name
  error : ∀ name ∈ c.schema.names, c.errors.get? name = d.errors.get? name
  touched : ∀ name ∈ c.schema.names, c.touched.contains name = d.touched.contains name

namespace Alike

variable {c d : Context}

theorem binding_eq (h : Alike c d) {field : Field} (hname : field.name ∈ c.schema.names) :
    c.binding field = d.binding field := by
  rw [binding, binding, h.value _ hname, h.error _ hname, h.touched _ hname]

theorem widget?_eq (h : Alike c d) (control : Control) : c.widget? control = d.widget? control := by
  rw [widget?, widget?, ← h.schema]
  cases hfield : control.field? c.schema with
  | none => rfl
  | some field =>
    have hname : field.name ∈ c.schema.names := by
      rw [Control.field?_name hfield, ← Control.field?_isSome_iff, hfield]
      rfl
    dsimp only
    rw [h.binding_eq hname, h.registry]

mutual

/-- By recursion on the layout, the leaves of which are its controls. -/
theorem view?_eq (h : Alike c d) : ∀ layout : Layout, c.view? layout = d.view? layout
  | .stack direction label elements => by simp only [view?, h.views_eq elements]
  | .group label elements => by simp only [view?, h.views_eq elements]
  | .control bound => by simp only [view?, h.widget?_eq bound]
  | .caption text => rfl

theorem views_eq (h : Alike c d) : ∀ elements : List Layout, c.views elements = d.views elements
  | [] => rfl
  | node :: rest => by simp only [views, h.view?_eq node, h.views_eq rest]

end

theorem view_eq (h : Alike c d) (layout : Layout) : c.view layout = d.view layout := by
  rw [view, view, h.view?_eq]

end Alike

end Context

end SchemaForm
