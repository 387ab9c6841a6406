import SchemaForm.Proofs.View.Mapping
import Mathlib.Data.List.Basic

/-!
# What HTML tells of a form

The HTML of a rendering tells the values of the properties that the layout has controls for, and the
messages there that are shown. It tells nothing else: neither which messages wait until a property is
touched, nor which properties were touched without a message, nor anything of a property for which there
is no control.

* `Context.visibleError` — the message that is shown for a property;
* `Context.AgreesOn` — two states of a form that differ only in what HTML does not tell;
* `Context.disclosed` — a state with nothing but what HTML tells, in which two such states agree;
* `Context.html_disclosed`, `Context.html_eq_of_agreesOn` — it has the same HTML, and so do they.
-/

namespace SchemaForm

/-- The entries of a collection depend on the names that are collected only. -/
theorem OrderedMap.collect_congr {β : Type} {names : List String} (hnodup : names.Nodup)
    {f g : String → Option β} (h : ∀ name ∈ names, f name = g name) :
    collect names hnodup f = collect names hnodup g := by
  refine OrderedMap.ext (List.filterMap_congr fun name hname => ?_)
  rw [h name hname]

/-! ## Widgets -/

/-- The binding without a message that is not shown. It is touched if there is a message left. -/
def Binding.disclosed (b : Binding) : Binding :=
  { b with error := b.visibleError, touched := b.visibleError.isSome }

/-- The widget without a message that is not shown. -/
def Widget.disclosed (w : Widget) : Widget := { w with binding := w.binding.disclosed }

/-- The message that is shown stays. -/
theorem Binding.visibleError_disclosed (b : Binding) : b.disclosed.visibleError = b.visibleError := by
  rw [visibleError, disclosed]
  cases b.visibleError <;> rfl

theorem Binding.errorMarkup_disclosed (b : Binding) : b.disclosed.errorMarkup = b.errorMarkup := by
  rw [errorMarkup, errorMarkup, visibleError_disclosed]

/-- A built-in widget looks at the message that is shown, and not at the message or the flag behind it. -/
theorem Widget.markup_disclosed {w : Widget} (h : w.cls.isBuiltIn = true) :
    w.disclosed.markup = w.markup := by
  have hframed : w.disclosed.framed = w.framed := by
    funext content
    rw [framed, framed, disclosed, Binding.errorMarkup_disclosed]
  obtain ⟨cls, b⟩ := w
  cases cls with
  | host widget => exact absurd h Bool.false_ne_true
  | _ =>
    simp only [markup, hframed]
    rfl

/-! ## States of a form -/

namespace Layout

/-- The declared properties that a layout has a control for. -/
def shownNames (layout : Layout) (schema : Schema) : List String :=
  schema.names.filter fun name => layout.controls.any (·.propertyName == name)

theorem nodup_shownNames (layout : Layout) (schema : Schema) : (layout.shownNames schema).Nodup :=
  schema.nodup_names.filter _

theorem mem_shownNames_iff {layout : Layout} {schema : Schema} {name : String} :
    name ∈ layout.shownNames schema ↔
      name ∈ schema.names ∧ ∃ control ∈ layout.controls, control.propertyName = name := by
  simp [shownNames]

end Layout

namespace Context

variable {c d : Context} {layout : Layout}

/-- The message that is shown for a property: only once it was touched. -/
def visibleError (c : Context) (name : String) : Option String :=
  if c.touched.contains name then c.errors.get? name else none

/-- The two states are of one form with the same widgets, and have the same values and the same visible
messages for the properties that the layout shows. -/
structure AgreesOn (layout : Layout) (c d : Context) : Prop where
  schema : c.schema = d.schema
  registry : c.registry = d.registry
  value : ∀ name ∈ layout.shownNames c.schema, Schema.valueIn c.values name = Schema.valueIn d.values name
  error : ∀ name ∈ layout.shownNames c.schema, c.visibleError name = d.visibleError name

/-- The values and the visible messages for the properties that the layout shows, and nothing else. -/
def disclosed (c : Context) (layout : Layout) : Context :=
  let names := layout.shownNames c.schema
  { c with
    values := .collect names (layout.nodup_shownNames c.schema) fun name => some (Schema.valueIn c.values name)
    errors := .collect names (layout.nodup_shownNames c.schema) c.visibleError
    touched := names.filter fun name => (c.visibleError name).isSome }

/-- States that agree are the same once there is nothing else to them. -/
theorem AgreesOn.disclosed_eq (h : AgreesOn layout c d) : c.disclosed layout = d.disclosed layout := by
  obtain ⟨schema, values, errors, touched, registry⟩ := c
  obtain ⟨_, otherValues, otherErrors, otherTouched, _⟩ := d
  obtain ⟨rfl, rfl, hvalue, herror⟩ := h
  have hvalues := OrderedMap.collect_congr (layout.nodup_shownNames schema) fun name hname =>
    congrArg some (hvalue name hname)
  have herrors := OrderedMap.collect_congr (layout.nodup_shownNames schema) herror
  have htouched := List.filter_congr fun name hname => congrArg Option.isSome (herror name hname)
  simp only [disclosed, hvalues, herrors, htouched]

theorem visibleError_binding (c : Context) (field : Field) :
    (c.binding field).visibleError = c.visibleError field.name := rfl

/-- The widget of a field that is shown gets nothing that is not disclosed. -/
theorem binding_disclosed {field : Field} (h : field.name ∈ layout.shownNames c.schema) :
    (c.disclosed layout).binding field = (c.binding field).disclosed := by
  have hvalue : Schema.valueIn (c.disclosed layout).values field.name =
      Schema.valueIn c.values field.name := by
    rw [Schema.valueIn, disclosed, OrderedMap.get?_collect, if_pos h, Option.getD_some]
  have herror : (c.disclosed layout).errors.get? field.name = c.visibleError field.name := by
    rw [disclosed, OrderedMap.get?_collect, if_pos h]
  have htouched : (c.disclosed layout).touched.contains field.name =
      (c.visibleError field.name).isSome := by
    rw [Bool.eq_iff_iff, List.contains_iff_mem, disclosed, List.mem_filter]
    exact and_iff_right h
  rw [binding, herror, htouched, Binding.disclosed, visibleError_binding, binding]
  exact congrArg (fun value => Binding.mk field field.kind value _ _) hvalue

/-- A control of the layout has the same widget, but for what is not shown. -/
theorem widget?_disclosed {control : Control} (h : control ∈ layout.controls) :
    (c.disclosed layout).widget? control = (c.widget? control).map (Option.map Widget.disclosed) := by
  rw [widget?, widget?, disclosed]
  cases hfield : control.field? c.schema with
  | none => rfl
  | some field =>
    have hname : field.name ∈ layout.shownNames c.schema := by
      rw [Control.field?_name hfield, Layout.mem_shownNames_iff, ← Control.field?_isSome_iff, hfield]
      exact ⟨rfl, control, h, rfl⟩
    have hbinding := binding_disclosed hname
    rw [disclosed] at hbinding
    dsimp only
    rw [hbinding, Registry.create, Registry.create]
    show ((c.registry.resolve field.kind).map _).map _ = (((c.registry.resolve field.kind).map _).map _).map _
    cases c.registry.resolve field.kind <;> rfl

/-- A state has the HTML of what HTML tells of it. -/
theorem html_disclosed (h : c.registry.BuiltIn) (layout : Layout) :
    ((c.disclosed layout).view layout).map View.toHtml = (c.view layout).map View.toHtml := by
  refine html_eq_of_markup ?_
  rw [view_mapWidgets fun control hmem => widget?_disclosed hmem]
  refine markup_view_mapWidgets fun control _ w hw => Widget.markup_disclosed ?_
  obtain ⟨entry, hentry, hcls⟩ := exists_entry_of_widget? hw
  exact hcls ▸ h entry hentry

/-- **HTML tells the values of the properties that a layout shows and the messages there that are visible,
and nothing else.** With built-in widgets, two states that have these in common have the same HTML, or fail
alike; and it is the HTML of a state in which there is nothing else. -/
theorem html_eq_of_agreesOn (hbuiltIn : c.registry.BuiltIn) (h : AgreesOn layout c d) :
    (c.view layout).map View.toHtml = (d.view layout).map View.toHtml ∧
      (c.view layout).map View.toHtml = ((c.disclosed layout).view layout).map View.toHtml := by
  refine ⟨?_, (html_disclosed hbuiltIn layout).symm⟩
  calc (c.view layout).map View.toHtml
      = ((c.disclosed layout).view layout).map View.toHtml := (html_disclosed hbuiltIn layout).symm
    _ = ((d.disclosed layout).view layout).map View.toHtml := by rw [h.disclosed_eq]
    _ = (d.view layout).map View.toHtml := html_disclosed (h.registry ▸ hbuiltIn) layout

/-- A message that is not shown yet, a property that was touched without a message, and whatever there is of
one without a control make no difference to the HTML. -/
theorem html_eq_of_hidden :
    let schema : Schema :=
      { title := none, description := none, required := ["name"]
        properties := .ofList [("name", {}), ("remark", {}), ("salary", { type := .integer })] }
    let layout : Layout := .stack .vertical none
      [.control ⟨"#/properties/name", .unset, none⟩, .control ⟨"#/properties/remark", .unset, none⟩]
    let c : Context :=
      { schema
        values := .ofList [("remark", .text "none"), ("salary", .int 4000)]
        errors := .ofList [("name", "This field is required"), ("remark", "Not a text")]
        touched := ["remark", "salary"] }
    let d : Context :=
      { schema
        values := .ofList [("name", .null), ("remark", .text "none"), ("salary", .text "secret")]
        errors := .ofList [("remark", "Not a text"), ("salary", "Not a number")]
        touched := ["name", "remark"] }
    c.registry.BuiltIn ∧ AgreesOn layout c d ∧
      (c.view layout).map View.toHtml = (d.view layout).map View.toHtml := by
  intro schema layout c d
  have hagree : AgreesOn layout c d := by
    have hnames : layout.shownNames c.schema = ["name", "remark"] := by decide
    refine ⟨rfl, rfl, ?_, ?_⟩ <;> rw [hnames, List.forall_mem_cons, List.forall_mem_singleton]
    · exact ⟨rfl, rfl⟩
    · exact ⟨rfl, rfl⟩
  exact ⟨Registry.builtIn_standard, hagree, (html_eq_of_agreesOn Registry.builtIn_standard hagree).1⟩

end Context

end SchemaForm
