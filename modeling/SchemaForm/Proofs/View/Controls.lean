import SchemaForm.Form
import SchemaForm.Proofs.OrderedMap

/-!
# The widgets of a rendering

However deep a layout is, the widgets of its view are those of its controls, from top to bottom. The
standard widgets show every kind of field, so that nothing can fail with them.

* `Control.isBound` — whether a control is for a declared property;
* `Context.widget?_eq_some_iff` — the widget of a control;
* `Context.widgets_view` — the widgets of a rendering, and how it fails;
* `Registry.resolve_standard`, `Registry.builtIn_standard` — there is a standard widget for each kind, and
  all of them are built-in ones;
* `Context.drawn`, `Context.exists_view` — the widgets of a rendering with the standard registry.
-/

namespace SchemaForm

/-! ## Controls and widgets -/

namespace Control

variable {control : Control} {schema : Schema}

/-- Whether the scope of the control names a declared property. -/
def isBound (control : Control) (schema : Schema) : Bool := schema.names.contains control.propertyName

theorem isBound_iff : control.isBound schema = true ↔ control.propertyName ∈ schema.names :=
  List.contains_iff_mem

theorem isSome_field? (control : Control) (schema : Schema) :
    (control.field? schema).isSome = control.isBound schema := by
  rw [Bool.eq_iff_iff, field?_isSome_iff, isBound_iff]

theorem field?_eq_none_iff : control.field? schema = none ↔ control.isBound schema = false := by
  rw [← isSome_field?, Option.isSome_eq_false_iff, Option.isNone_iff_eq_none]

end Control

namespace View

theorem widgetsOfAll_append (views others : List View) :
    widgetsOfAll (views ++ others) = widgetsOfAll views ++ widgetsOfAll others := by
  induction views with
  | nil => rfl
  | cons view rest ih => simp only [List.cons_append, widgetsOfAll, ih, List.append_assoc]

theorem widgetsOfAll_toList (view? : Option View) :
    widgetsOfAll view?.toList = (view?.map widgets).getD [] := by
  cases view? with
  | none => rfl
  | some view => exact List.append_nil _

end View

namespace Context

open View

variable {c : Context}

/-- The widgets of the controls that have one, up to the first that cannot be made. -/
def widgetsOf (c : Context) (controls : List Control) : Except MissingFallback (List Widget) :=
  (controls.mapM c.widget?).map (List.filterMap id)

theorem widgetsOf_append (c : Context) (controls others : List Control) :
    c.widgetsOf (controls ++ others) = do
      return (← c.widgetsOf controls) ++ (← c.widgetsOf others) := by
  rw [widgetsOf, widgetsOf, widgetsOf, List.mapM_append]
  cases controls.mapM c.widget? with
  | error missing => rfl
  | ok first =>
    cases others.mapM c.widget? with
    | error missing => rfl
    | ok second => exact congrArg Except.ok (List.filterMap_append ..)

theorem widgetsOf_singleton (c : Context) (control : Control) :
    c.widgetsOf [control] = (c.widget? control).map Option.toList := by
  rw [widgetsOf, List.mapM_cons, List.mapM_nil]
  cases c.widget? control with
  | error missing => rfl
  | ok widget? => cases widget? <;> rfl

section

variable {control : Control} {w : Widget}

/-- A control has a widget if its property is declared and the registry has a class for the kind. -/
theorem widget?_eq_some_iff :
    c.widget? control = .ok (some w) ↔
      ∃ field, control.field? c.schema = some field ∧ c.registry.resolve field.kind = .ok w.cls ∧
        w.binding = c.binding field := by
  rw [widget?]
  cases control.field? c.schema with
  | none => simp
  | some field =>
    have hkind : (c.binding field).kind = field.kind := rfl
    simp only [Option.some.injEq, exists_eq_left', Registry.create, hkind]
    cases c.registry.resolve field.kind with
    | error missing => simp [Except.map]
    | ok cls =>
      obtain ⟨found, binding⟩ := w
      simp [Except.map, eq_comm]

end

mutual

/-- By recursion on the layout: a node adds nothing to the widgets of its elements. -/
theorem widgets_view? (c : Context) : ∀ layout : Layout,
    (c.view? layout).map (fun view? => widgetsOfAll view?.toList) = c.widgetsOf layout.controls
  | .stack direction label elements => by
    rw [Layout.controls, ← widgets_views c elements, view?]
    cases c.views elements with
    | error missing => rfl
    | ok children => exact congrArg Except.ok (widgetsOfAll_toList _)
  | .group label elements => by
    rw [Layout.controls, ← widgets_views c elements, view?]
    cases c.views elements with
    | error missing => rfl
    | ok children =>
      cases label.filter (· != "") with
      | none => exact congrArg Except.ok (widgetsOfAll_toList _)
      | some legend => exact congrArg Except.ok (widgetsOfAll_toList _)
  | .control bound => by
    rw [Layout.controls, widgetsOf_singleton, view?]
    cases c.widget? bound with
    | error missing => rfl
    | ok widget? => cases widget? <;> rfl
  | .caption text => rfl

theorem widgets_views (c : Context) : ∀ elements : List Layout,
    (c.views elements).map widgetsOfAll = c.widgetsOf (Layout.controlsOfAll elements)
  | [] => rfl
  | node :: rest => by
    rw [Layout.controlsOfAll, widgetsOf_append, ← widgets_view? c node, ← widgets_views c rest, views]
    cases c.view? node with
    | error missing => rfl
    | ok first =>
      cases c.views rest with
      | error missing => rfl
      | ok others => exact congrArg Except.ok (widgetsOfAll_append ..)

end

/-- The widgets of a rendering are those of the controls of the layout, from top to bottom; and if one of
them cannot be made, neither can the view. -/
theorem widgets_view (c : Context) (layout : Layout) :
    (c.view layout).map widgets = c.widgetsOf layout.controls := by
  rw [← widgets_view?, view]
  cases c.view? layout with
  | error missing => rfl
  | ok view? =>
    refine congrArg Except.ok (Eq.trans ?_ (widgetsOfAll_toList view?).symm)
    cases view? <;> rfl

end Context

/-! ## The standard widgets -/

namespace Registry

/-- The class of the standard widgets for a kind. -/
def standardClass (kind : String) : WidgetClass :=
  (standard.classes.get? kind).getD .text

/-- A kind that is not registered is shown as a line of text. -/
theorem resolve_standard (kind : String) : standard.resolve kind = .ok (standardClass kind) := by
  rw [resolve, standardClass]
  cases standard.classes.get? kind <;> rfl

/-- All registered widgets are built-in ones. -/
def BuiltIn (r : Registry) : Prop := ∀ entry ∈ r.classes.entries, entry.2.isBuiltIn = true

theorem builtIn_standard : standard.BuiltIn := by
  rw [BuiltIn]
  decide

end Registry

namespace Context

variable {c : Context}

/-- The widget for a field with the standard registry. -/
def drawn (c : Context) (field : Field) : Widget := ⟨Registry.standardClass field.kind, c.binding field⟩

theorem widget?_of_standard (h : c.registry = .standard) (control : Control) :
    c.widget? control = .ok ((control.field? c.schema).map c.drawn) := by
  rw [widget?, h]
  cases control.field? c.schema with
  | none => rfl
  | some field =>
    show ((Registry.standard.resolve field.kind).map _).map some = _
    rw [Registry.resolve_standard]
    rfl

/-- With the standard registry every layout has a view, and its widgets are those of the fields of its
controls. -/
theorem exists_view (h : c.registry = .standard) (layout : Layout) :
    ∃ view, c.view layout = .ok view ∧
      view.widgets = layout.controls.filterMap fun control => (control.field? c.schema).map c.drawn := by
  have hcontrols : c.widgetsOf layout.controls =
      .ok (layout.controls.filterMap fun control => (control.field? c.schema).map c.drawn) := by
    have hwidget : c.widget? = fun control => pure ((control.field? c.schema).map c.drawn) :=
      funext (widget?_of_standard h)
    rw [widgetsOf, hwidget, List.mapM_pure]
    exact congrArg Except.ok (List.filterMap_map ..)
  have hview := c.widgets_view layout
  rw [hcontrols] at hview
  cases hfound : c.view layout with
  | error missing =>
    rw [hfound] at hview
    cases hview
  | ok view =>
    rw [hfound] at hview
    exact ⟨view, rfl, Except.ok.inj hview⟩

end Context

/-- With the standard registry a form can always be shown. -/
theorem Form.exists_view {f : Form} (h : f.registry = .standard) :
    ∃ view, f.view = .ok view ∧
      view.widgets = f.layout.controls.filterMap fun control =>
        (control.field? f.schema).map f.context.drawn := by
  obtain ⟨body, hbody, hwidgets⟩ := f.context.exists_view h f.layout
  exact ⟨.form f.heading body (f.actions.map f.button), by rw [view, hbody]; rfl, hwidgets⟩

end SchemaForm
