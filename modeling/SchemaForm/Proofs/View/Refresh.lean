import SchemaForm.Proofs.Store
import SchemaForm.Proofs.View.Mapping
import SchemaForm.Proofs.View.Rendering
import Mathlib.Data.List.Forall2

/-!
# Refreshing a view

A host whose listener is called with a name need not render the whole form again: it is enough to put new
bindings into the widgets of that property. This module says what such a refresh does, and that it is a new
rendering whenever the old state and the new one differ in that property only.

* `Context.refresh` — a view whose widgets for one property are bound anew;
* `Context.AlikeBut`, `Context.AlikeBut.view_eq` — two contexts that differ in one property, and their
  views;
* `Store.apply_of_silent`, `Store.alikeBut_apply` — what an operation changes if it gives no notice, and
  if its notice names a property.
-/

namespace SchemaForm

/-! ## New bindings for one property -/

namespace Context

/-- The widget with what the context binds to its field. -/
def rebind (c : Context) (w : Widget) : Widget := { w with binding := c.binding w.binding.field }

/-- A widget of the property is bound anew, any other one stays as it is. -/
def renew (c : Context) (name : String) (w : Widget) : Widget :=
  if w.binding.name = name then c.rebind w else w

/-- The view in which the widgets of the property are bound anew. -/
def refresh (c : Context) (name : String) (view : View) : View := view.mapWidgets (c.renew name)

variable {c d : Context} {name : String}

theorem renew_of_ne {w : Widget} (h : w.binding.name ≠ name) : c.renew name w = w := if_neg h

theorem name_renew (c : Context) (name : String) (w : Widget) :
    (c.renew name w).binding.name = w.binding.name := by
  rw [renew]
  split <;> rfl

/-- The two contexts have the same properties and the same widgets, and what is found under the name of a
property is the same in both, unless it is this one. -/
structure AlikeBut (name : String) (c d : Context) : Prop where
  schema : c.schema = d.schema
  registry : c.registry = d.registry
  value : ∀ other ≠ name, c.values.get? other = d.values.get? other
  error : ∀ other ≠ name, c.errors.get? other = d.errors.get? other
  touched : ∀ other ≠ name, c.touched.contains other = d.touched.contains other

namespace AlikeBut

theorem binding_eq (h : AlikeBut name c d) {field : Field} (hname : field.name ≠ name) :
    c.binding field = d.binding field := by
  rw [binding, binding, h.value _ hname, h.error _ hname, h.touched _ hname]

/-- The widget that is made now is the widget that was made before, bound anew if need be. -/
theorem create_eq (h : AlikeBut name c d) (field : Field) :
    d.registry.create (d.binding field) = (c.registry.create (c.binding field)).map (d.renew name) := by
  -- the class is that of the kind of field, and only the binding can be another one
  have hrenew : ∀ cls, d.renew name ⟨cls, c.binding field⟩ = ⟨cls, d.binding field⟩ := by
    intro cls
    by_cases hname : field.name = name
    · exact if_pos hname
    · rw [h.binding_eq hname]
      exact renew_of_ne hname
  rw [Registry.create, Registry.create, h.registry]
  show (d.registry.resolve field.kind).map _ = ((d.registry.resolve field.kind).map _).map _
  cases d.registry.resolve field.kind with
  | error missing => rfl
  | ok cls => exact congrArg Except.ok (hrenew cls).symm

theorem widget?_eq (h : AlikeBut name c d) (control : Control) :
    d.widget? control = (c.widget? control).map (Option.map (d.renew name)) := by
  rw [widget?, widget?, ← h.schema]
  cases control.field? c.schema with
  | none => rfl
  | some field =>
    dsimp only
    rw [h.create_eq field]
    cases c.registry.create (c.binding field) <;> rfl

theorem view_eq (h : AlikeBut name c d) (layout : Layout) :
    d.view layout = (c.view layout).map (d.refresh name) :=
  view_mapWidgets fun control _ => h.widget?_eq control

end AlikeBut

end Context

/-! ## What notices tell of an operation -/

namespace Store

variable {s : Store} {operation : Operation}

/-- The two stores are those of one form, and differ in what belongs to this name only. -/
structure AlikeBut (name : String) (s t : Store) : Prop where
  schema : t.schema = s.schema
  submitting : t.submitting = s.submitting
  value : ∀ other ≠ name, s.values.get? other = t.values.get? other
  error : ∀ other ≠ name, s.errors.get? other = t.errors.get? other
  touched : ∀ other ≠ name, s.isTouched other = t.isTouched other

/-- An operation that gives no notice has changed nothing. -/
theorem apply_of_silent (h : (s.apply operation).notice = none) : (s.apply operation).store = s := by
  cases operation with
  | setValue name v =>
    rw [apply, setValue] at h ⊢
    split at h
    · cases h
    · next hname => rw [if_neg hname]
  | setTouched name =>
    rw [apply, setTouched] at h ⊢
    split at h
    · next htouched => rw [if_pos htouched]
    · cases h
  | validateField name =>
    rw [apply, validateField] at h ⊢
    split at h
    · cases h
    · next hname => rw [if_neg hname]
  | validateForm => cases h
  | reset => cases h
  | setSubmitting flag =>
    rw [apply, setSubmitting] at h ⊢
    split at h
    · next hsame => rw [if_pos hsame]
    · cases h

namespace AlikeBut

variable {name : String}

theorem withError (s : Store) (name : String) (found : Option Violation) :
    AlikeBut name s (s.withError name found) where
  schema := rfl
  submitting := rfl
  value _ _ := rfl
  error other hother := by rw [get?_errors_withError, if_neg hother]
  touched _ _ := rfl

theorem written (s : Store) (name : String) (v : Value) : AlikeBut name s (s.written name v) where
  schema := rfl
  submitting := rfl
  value other hother := by
    have hget : (s.values.insert name v).get? other = if other = name then some v else _ :=
      OrderedMap.get?_insert s.values name other v
    rw [if_neg hother] at hget
    exact hget.symm
  error other hother := by rw [get?_errors_written, if_neg hother]
  touched _ _ := rfl

theorem touching (s : Store) (name : String) :
    AlikeBut name s { s with touched := s.touched ++ [name] } where
  schema := rfl
  submitting := rfl
  value _ _ := rfl
  error _ _ := rfl
  touched other hother := by simp [isTouched, hother]

end AlikeBut

/-- An operation whose notice names a property has changed nothing that belongs to another one. -/
theorem alikeBut_apply {name : String} (h : (s.apply operation).notice = some (.property name)) :
    AlikeBut name s (s.apply operation).store := by
  cases operation with
  | setValue other v =>
    rw [apply, setValue] at h ⊢
    split at h
    · next hmem =>
      cases h
      rw [if_pos hmem]
      exact AlikeBut.written s name v
    · cases h
  | setTouched other =>
    rw [apply, setTouched] at h ⊢
    split at h
    · cases h
    · next htouched =>
      cases h
      rw [if_neg htouched]
      exact AlikeBut.touching s name
  | validateField other =>
    rw [apply, validateField] at h ⊢
    split at h
    · next hmem =>
      cases h
      rw [if_pos hmem]
      exact AlikeBut.withError s name _
    · cases h
  -- the notices of the others name no property
  | validateForm => cases h
  | reset => cases h
  | setSubmitting flag =>
    rw [apply, setSubmitting] at h
    split at h <;> cases h

/-- Forms with such stores bind the same to all properties but one. -/
theorem AlikeBut.context {name : String} {s t : Store} (h : AlikeBut name s t) (form : Form) :
    Context.AlikeBut name (form.withStore s).context (form.withStore t).context where
  schema := h.schema.symm
  registry := rfl
  value := h.value
  error other hother := by
    show s.messages.get? other = t.messages.get? other
    rw [messages, messages, OrderedMap.get?_map, OrderedMap.get?_map, h.error other hother]
  touched := h.touched

end Store

/-! ## Forms -/

/-- The two views are forms with the same heading and the same buttons. Widget by widget they show the
same properties, and those of any property but this one are the same. -/
structure View.SameBut (name : String) (old new : View) : Prop where
  frame : ∃ title body newBody actions,
    old = .form title body actions ∧ new = .form title newBody actions
  widgets : List.Forall₂ (fun w v : Widget =>
    v.binding.name = w.binding.name ∧ (w.binding.name ≠ name → v = w)) old.widgets new.widgets

theorem Context.sameBut_refresh (c : Context) (name : String) (title body : View) (actions : List View) :
    View.SameBut name (.form title body actions) (c.refresh name (.form title body actions)) where
  frame := ⟨title, body, _, actions, rfl, rfl⟩
  widgets := by
    rw [refresh, View.widgets_mapWidgets, List.forall₂_map_right_iff, List.forall₂_same]
    exact fun w _ => ⟨c.name_renew name w, fun hne => renew_of_ne hne⟩

namespace Form

variable {f : Form} {name : String} {s t : Store}

/-- What a form shows is a form: the frame is made of the form itself, and the body of what the context
says. -/
theorem view_eq_map (f : Form) :
    f.view = (f.context.view f.layout).map (.form f.heading · (f.actions.map f.button)) := by
  rw [view]
  cases f.context.view f.layout <;> rfl

/-- Of the store, the buttons show only whether a submission is under way. -/
theorem button_withStore (form : Form) (h : t.submitting = s.submitting) :
    (form.withStore t).button = (form.withStore s).button := by
  funext action
  cases action with
  | submit => simp only [button, withStore, h]; rfl
  | saveDraft => simp only [button, withStore, h]

/-- If the stores differ in one property, then the new view is the old one refreshed. -/
theorem view_eq_refresh (h : s.AlikeBut name t) (form : Form) :
    (form.withStore t).view =
      (form.withStore s).view.map ((form.withStore t).context.refresh name) := by
  have hbody : (form.withStore t).context.view form.layout =
      ((form.withStore s).context.view form.layout).map ((form.withStore t).context.refresh name) :=
    (h.context form).view_eq form.layout
  rw [view_eq_map, view_eq_map, button_withStore form h.submitting]
  show ((form.withStore t).context.view form.layout).map _ = _
  rw [hbody]
  show _ = (((form.withStore s).context.view form.layout).map _).map _
  cases (form.withStore s).context.view form.layout <;> rfl

/-- A refreshed view differs from the old one in the widgets of the property only. -/
theorem sameBut_of_view {old : View} (h : f.view = .ok old) (c : Context) (name : String) :
    old.SameBut name (c.refresh name old) := by
  rw [view_eq_map] at h
  cases hbody : f.context.view f.layout with
  | error missing =>
    rw [hbody] at h
    cases h
  | ok body =>
    rw [hbody] at h
    cases h
    exact c.sameBut_refresh name f.heading body _

end Form

end SchemaForm
