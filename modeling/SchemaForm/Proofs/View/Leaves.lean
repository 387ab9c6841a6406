import SchemaForm.Proofs.View.Controls
import Mathlib.Data.List.Forall2
import Mathlib.Data.Sum.Basic

/-!
# The leaves of a rendering

The leaves of a layout are its controls and its captions, and the leaves of a view are its widgets and its
captions. Whatever stands around them, those of a view follow each other as those of its layout do, and
each widget is bound to the property of its control.

* `Layout.leaves`, `View.leaves` — the leaves from top to bottom; `Layout.controls_eq` and
  `View.widgets_eq` say which of them are controls and widgets;
* `Context.Binds` — what the widget of a control shows and edits;
* `Context.leaves_view?` — the leaves of a rendering;
* `rendered_in_order` — the widgets and the captions of a rendering, one by one.
-/

namespace SchemaForm

/-! ## Leaves -/

namespace Layout

mutual

/-- The controls and the captions of a layout, from top to bottom. -/
def leaves : Layout → List (Control ⊕ String)
  | .stack _ _ elements => leavesOfAll elements
  | .group _ elements => leavesOfAll elements
  | .control bound => [.inl bound]
  | .caption text => [.inr text]

/-- The controls and the captions of several nodes, from top to bottom. -/
def leavesOfAll : List Layout → List (Control ⊕ String)
  | [] => []
  | node :: rest => leaves node ++ leavesOfAll rest

end

/-- The texts between the controls, from top to bottom. -/
def captions (layout : Layout) : List String := layout.leaves.filterMap Sum.getRight?

mutual

theorem controls_eq : ∀ layout : Layout, layout.controls = layout.leaves.filterMap Sum.getLeft?
  | .stack _ _ elements => by rw [controls, leaves, controlsOfAll_eq elements]
  | .group _ elements => by rw [controls, leaves, controlsOfAll_eq elements]
  | .control _ => rfl
  | .caption _ => rfl

theorem controlsOfAll_eq : ∀ elements : List Layout,
    controlsOfAll elements = (leavesOfAll elements).filterMap Sum.getLeft?
  | [] => rfl
  | node :: rest => by
    rw [controlsOfAll, leavesOfAll, List.filterMap_append, controls_eq node, controlsOfAll_eq rest]

end

/-- Whether there is anything to see of a leaf. -/
def leafIsShown (schema : Schema) : Control ⊕ String → Bool
  | .inl bound => bound.isBound schema
  | .inr _ => true

end Layout

namespace View

mutual

/-- The widgets and the captions of a view, in order. Those of a form are in its body. -/
def leaves : View → List (Widget ⊕ String)
  | .widget w => [.inl w]
  | .caption text => [.inr text]
  | .stack _ children => leavesOfAll children
  | .fieldset _ content => leaves content
  | .form _ body _ => leaves body
  | _ => []

/-- The widgets and the captions of several views, in order. -/
def leavesOfAll : List View → List (Widget ⊕ String)
  | [] => []
  | view :: rest => leaves view ++ leavesOfAll rest

end

/-- The texts of the captions of a view, in order. -/
def captions (view : View) : List String := view.leaves.filterMap Sum.getRight?

mutual

theorem widgets_eq : ∀ view : View, view.widgets = view.leaves.filterMap Sum.getLeft?
  | .widget _ => rfl
  | .stack _ children => by rw [widgets, leaves, widgetsOfAll_eq children]
  | .fieldset _ content => by rw [widgets, leaves, widgets_eq content]
  | .form _ body _ => by rw [widgets, leaves, widgets_eq body]
  | .nothing => rfl
  | .caption _ => rfl
  | .heading _ => rfl
  | .button .. => rfl
  | .custom _ => rfl
  | .unknown _ => rfl

theorem widgetsOfAll_eq : ∀ views : List View,
    widgetsOfAll views = (leavesOfAll views).filterMap Sum.getLeft?
  | [] => rfl
  | view :: rest => by
    rw [widgetsOfAll, leavesOfAll, List.filterMap_append, widgets_eq view, widgetsOfAll_eq rest]

end

theorem leavesOfAll_append (views others : List View) :
    leavesOfAll (views ++ others) = leavesOfAll views ++ leavesOfAll others := by
  induction views with
  | nil => rfl
  | cons view rest ih => simp only [List.cons_append, leavesOfAll, ih, List.append_assoc]

theorem leavesOfAll_singleton (view : View) : leavesOfAll [view] = view.leaves := List.append_nil _

end View

/-! ## What is shown of a leaf -/

namespace Context

open View

variable {c : Context}

/-- What is shown of a leaf with the standard registry, if there is anything to see of it. -/
def leaf? (c : Context) : Control ⊕ String → Option (Widget ⊕ String)
  | .inl control => (control.field? c.schema).map fun field => .inl (c.drawn field)
  | .inr text => some (.inr text)

mutual

/-- By recursion on the layout: a node adds nothing to the leaves of its elements. -/
theorem leaves_view? (h : c.registry = .standard) : ∀ layout : Layout,
    ∃ view?, c.view? layout = .ok view? ∧ leavesOfAll view?.toList = layout.leaves.filterMap c.leaf?
  | .stack direction label elements => by
    obtain ⟨children, hchildren, hleaves⟩ := leaves_views h elements
    refine ⟨some (.stack direction children), by rw [view?, hchildren]; rfl, ?_⟩
    rw [Layout.leaves, ← hleaves]
    exact leavesOfAll_singleton (.stack direction children)
  | .group label elements => by
    obtain ⟨children, hchildren, hleaves⟩ := leaves_views h elements
    rw [view?, hchildren, Layout.leaves, ← hleaves]
    -- with or without a legend, the leaves are those of the stack
    cases label.filter (· != "") with
    | none => exact ⟨_, rfl, leavesOfAll_singleton (.stack .vertical children)⟩
    | some legend =>
      exact ⟨_, rfl, leavesOfAll_singleton (.fieldset legend (.stack .vertical children))⟩
  | .control bound => by
    rw [view?, widget?_of_standard h]
    refine ⟨_, rfl, ?_⟩
    rw [Layout.leaves, List.filterMap_cons, List.filterMap_nil, leaf?]
    cases bound.field? c.schema <;> rfl
  | .caption text => ⟨_, rfl, rfl⟩

theorem leaves_views (h : c.registry = .standard) : ∀ elements : List Layout,
    ∃ views, c.views elements = .ok views ∧
      leavesOfAll views = (Layout.leavesOfAll elements).filterMap c.leaf?
  | [] => ⟨[], rfl, rfl⟩
  | node :: rest => by
    obtain ⟨first, hfirst, hleaves⟩ := leaves_view? h node
    obtain ⟨others, hothers, hrest⟩ := leaves_views h rest
    refine ⟨first.toList ++ others, by rw [views, hfirst, hothers]; rfl, ?_⟩
    rw [leavesOfAll_append, hleaves, hrest, Layout.leavesOfAll, List.filterMap_append]

end

/-- The leaves of a view are what is shown of the leaves of its layout. -/
theorem leaves_view (h : c.registry = .standard) (layout : Layout) :
    ∃ view, c.view layout = .ok view ∧ view.leaves = layout.leaves.filterMap c.leaf? := by
  obtain ⟨view?, hview, hleaves⟩ := leaves_view? h layout
  refine ⟨view?.getD .nothing, by rw [view, hview]; rfl, hleaves ▸ ?_⟩
  cases view? with
  | none => rfl
  | some view => exact (leavesOfAll_singleton view).symm

theorem leaf?_bind_getLeft? (c : Context) (leaf : Control ⊕ String) :
    (c.leaf? leaf).bind Sum.getLeft? =
      leaf.getLeft?.bind fun control => (control.field? c.schema).map c.drawn := by
  cases leaf with
  | inl control =>
    rw [leaf?, Sum.getLeft?_inl, Option.bind_some]
    cases control.field? c.schema <;> rfl
  | inr text => rfl

theorem leaf?_bind_getRight? (c : Context) (leaf : Control ⊕ String) :
    (c.leaf? leaf).bind Sum.getRight? = leaf.getRight? := by
  cases leaf with
  | inl control =>
    rw [leaf?, Sum.getRight?_inl]
    cases control.field? c.schema <;> rfl
  | inr text => rfl

/-- The widget is the one of the control: its field is that of the control, with the label and whether the
property is required, its class is the one for the kind of the field, and it shows what the form has under
the name of the property. -/
structure Binds (c : Context) (control : Control) (w : Widget) : Prop where
  name : w.binding.name = control.propertyName
  field : control.field? c.schema = some w.binding.field
  kind : w.binding.kind = w.binding.field.kind
  cls : c.registry.resolve w.binding.kind = .ok w.cls
  value : w.binding.value = Schema.valueIn c.values control.propertyName
  error : w.binding.error = c.errors.get? control.propertyName
  touched : w.binding.touched = c.touched.contains control.propertyName

theorem binds_drawn (h : c.registry = .standard) {control : Control} {field : Field}
    (hfield : control.field? c.schema = some field) : c.Binds control (c.drawn field) where
  name := Control.field?_name hfield
  field := hfield
  kind := rfl
  cls := by
    rw [h]
    exact Registry.resolve_standard field.kind
  value := by
    rw [← Control.field?_name hfield]
    rfl
  error := by
    rw [← Control.field?_name hfield]
    rfl
  touched := by
    rw [← Control.field?_name hfield]
    rfl

/-- A leaf is shown as what it is: a control as the widget that is bound to its property, and a caption as
its text. -/
def ShowsLeaf (c : Context) : Control ⊕ String → Widget ⊕ String → Prop := Sum.LiftRel c.Binds Eq

theorem isSome_leaf? (c : Context) (leaf : Control ⊕ String) :
    (c.leaf? leaf).isSome = Layout.leafIsShown c.schema leaf := by
  cases leaf with
  | inl control => rw [leaf?, Option.isSome_map, Control.isSome_field?, Layout.leafIsShown]
  | inr text => rfl

theorem showsLeaf_of_leaf? (h : c.registry = .standard) {leaf : Control ⊕ String}
    {shown : Widget ⊕ String} (hshown : c.leaf? leaf = some shown) : c.ShowsLeaf leaf shown := by
  cases leaf with
  | inl control =>
    obtain ⟨field, hfield, rfl⟩ := Option.map_eq_some_iff.mp hshown
    exact .inl (binds_drawn h hfield)
  | inr text =>
    obtain rfl := Option.some.inj hshown
    exact .inr rfl

end Context

/-- What is found of the items of a list belongs to the items of which something is found, one by one. -/
theorem forall₂_filter_filterMap {α β : Type} {R : α → β → Prop} {p : α → Bool} {f : α → Option β}
    (hp : ∀ item, (f item).isSome = p item) (hR : ∀ item found, f item = some found → R item found)
    (items : List α) : List.Forall₂ R (items.filter p) (items.filterMap f) := by
  induction items with
  | nil => exact .nil
  | cons item rest ih =>
    cases hitem : f item with
    | none =>
      have hnot : ¬ p item = true := by simp [← hp, hitem]
      rwa [List.filter_cons_of_neg hnot, List.filterMap_cons_none hitem]
    | some found =>
      have hyes : p item = true := by simp [← hp, hitem]
      rw [List.filter_cons_of_pos hyes, List.filterMap_cons_some hitem]
      exact .cons (hR item found hitem) ih

/-- **The leaves of a view are those of its layout, from top to bottom.** With the standard registry every
layout has a view. Its widgets are those of the controls whose scope names a declared property, one for each
of them and in the same order, bound to that property; its captions are those of the layout; and where
widgets and captions alternate they do so as in the layout. -/
theorem rendered_in_order (schema : Schema) (values : OrderedMap Value) (errors : OrderedMap String)
    (touched : List String) (layout : Layout) :
    let c : Context := { schema, values, errors, touched, registry := .standard }
    ∃ view, c.view layout = .ok view ∧
      List.Forall₂ c.Binds (layout.controls.filter (·.isBound schema)) view.widgets ∧
      view.captions = layout.captions ∧
      List.Forall₂ c.ShowsLeaf (layout.leaves.filter (Layout.leafIsShown schema)) view.leaves := by
  intro c
  obtain ⟨view, hview, hleaves⟩ := c.leaves_view rfl layout
  refine ⟨view, hview, ?_, ?_, ?_⟩
  · have hwidgets : view.widgets =
        layout.controls.filterMap fun control => (control.field? schema).map c.drawn := by
      rw [View.widgets_eq, hleaves, Layout.controls_eq, List.filterMap_filterMap, List.filterMap_filterMap]
      exact congrArg (List.filterMap · layout.leaves) (funext c.leaf?_bind_getLeft?)
    rw [hwidgets]
    refine forall₂_filter_filterMap (fun control => ?_) (fun control w hw => ?_) _
    · rw [Option.isSome_map, Control.isSome_field?]
    · obtain ⟨field, hfield, rfl⟩ := Option.map_eq_some_iff.mp hw
      exact Context.binds_drawn rfl hfield
  · rw [View.captions, hleaves, Layout.captions, List.filterMap_filterMap]
    exact congrArg (List.filterMap · layout.leaves) (funext c.leaf?_bind_getRight?)
  · rw [hleaves]
    exact forall₂_filter_filterMap c.isSome_leaf? (fun _ _ => Context.showsLeaf_of_leaf? rfl) _

end SchemaForm
