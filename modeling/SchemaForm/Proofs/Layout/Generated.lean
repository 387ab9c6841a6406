import SchemaForm.Proofs.Scope
import SchemaForm.Proofs.Session.Invariant
import SchemaForm.Proofs.Store
import SchemaForm.Proofs.View.Controls

/-!
# Generated layouts

A form without a layout gets a control for each property (`default_layout`). A control finds its property by the
reference that `scope_for` has written for it, so that a property is shown if its name comes back from there.

* `Layout.controls_default` — the controls of a generated layout;
* `Form.names_of_generated` — what a form with such a layout shows;
* `generated_layout_complete_iff` — the schemas of which every property is shown.
-/

namespace SchemaForm

/-! ## The controls -/

namespace Layout

/-- A control that says nothing but which property it is for. -/
def plainControl (name : String) : Control := Control.mk (Scope.ofName name) .unset none

theorem controlsOfAll_map_control (controls : List Control) :
    controlsOfAll (controls.map .control) = controls := by
  induction controls with
  | nil => rfl
  | cons control rest ih =>
    rw [List.map_cons, controlsOfAll, Layout.controls, ih]
    rfl

theorem controls_default (names : List String) :
    (Layout.default names).controls = names.map plainControl := by
  have hnodes : (names.map fun name => Layout.control (plainControl name)) =
      (names.map plainControl).map .control := (List.map_map ..).symm
  rw [Layout.default, Layout.controls, ← controlsOfAll_map_control (names.map plainControl), ← hnodes]
  rfl

end Layout

/-! ## What is shown -/

/-- The name that is found where a name was written, if it is declared. -/
def Schema.found? (schema : Schema) (name : String) : Option String :=
  some (Scope.name (Scope.ofName name)) |>.filter (schema.names.contains ·)

theorem Layout.name_field?_plainControl (schema : Schema) (name : String) :
    ((plainControl name).field? schema).map Field.name = schema.found? name := by
  let found := Scope.name (Scope.ofName name)
  have hfield : ((plainControl name).field? schema).map Field.name =
      (schema.property? found).map fun _ => found := by
    rw [Control.field?, Option.map_map]
    rfl
  rw [hfield, Schema.found?, Option.filter_some]
  by_cases hmem : found ∈ schema.names
  · obtain ⟨property, hproperty⟩ := Option.isSome_iff_exists.mp (OrderedMap.mem_keys_iff.mp hmem)
    rw [Schema.property?, hproperty, if_pos (List.contains_iff_mem.mpr hmem)]
    rfl
  · have hnone : schema.property? found = none :=
      Option.not_isSome_iff_eq_none.mp (mt OrderedMap.mem_keys_iff.mpr hmem)
    rw [hnone, if_neg (mt List.contains_iff_mem.mp hmem)]
    rfl

/-- A form with a generated layout shows what is found where the names of its properties were written. -/
theorem Form.names_of_generated {f : Form} (hregistry : f.registry = .standard)
    (hlayout : f.layout = .default f.schema.names) :
    ∃ view, f.view = .ok view ∧
      view.widgets.map (·.binding.name) = f.schema.names.filterMap f.schema.found? ∧
      ∀ w ∈ view.widgets, f.schema.property? w.binding.name = some w.binding.field.property := by
  obtain ⟨view, hview, hwidgets⟩ := f.exists_view hregistry
  refine ⟨view, hview, ?_, fun w hmem => ?_⟩
  · rw [hwidgets, hlayout, Layout.controls_default, List.filterMap_map, List.map_filterMap]
    congr 1
    funext name
    rw [← Layout.name_field?_plainControl, Function.comp_apply, Option.map_map]
    rfl
  · rw [hwidgets] at hmem
    obtain ⟨control, -, hdrawn⟩ := List.mem_filterMap.mp hmem
    obtain ⟨field, hfield, rfl⟩ := Option.map_eq_some_iff.mp hdrawn
    exact Control.property?_of_field? hfield

/-- A list in which nothing is left out and nothing is replaced. -/
theorem filterMap_eq_self_iff {α : Type} {f : α → Option α} {items : List α} :
    items.filterMap f = items ↔ ∀ item ∈ items, f item = some item := by
  induction items with
  | nil => simp
  | cons item rest ih =>
    rw [List.forall_mem_cons, ← ih]
    cases hitem : f item with
    | none =>
      -- one item less cannot be made good by those that follow
      rw [List.filterMap_cons_none hitem]
      have hlength := List.length_filterMap_le f rest
      refine iff_of_false (fun h => ?_) (by simp)
      rw [h, List.length_cons] at hlength
      omega
    | some found => simp [List.filterMap_cons_some hitem]

/-! ## Complete forms -/

/-- **A generated layout shows every property that can be read back.** A form without a layout can always
be shown with the standard registry, and each of its widgets is bound to the property of its name. It
shows the properties one after the other, each of them once and none left out, exactly if none of their
names is empty or has a line break in it. -/
theorem generated_layout_complete_iff (settings : Settings) (schema : Schema) (options : FormOptions)
    (commands : List Session.Command) :
    let form := (Session.run (.ofSchema settings schema none { options with registry := .standard })
      commands).2.form
    ∃ view, form.view = .ok view ∧
      (∀ w ∈ view.widgets, schema.property? w.binding.name = some w.binding.field.property) ∧
      (view.widgets.map (·.binding.name) = schema.names ↔
        ∀ name ∈ schema.names, name ≠ "" ∧ '\n' ∉ name.toList) := by
  intro form
  have hschema : form.schema = schema :=
    Session.run_keeps (I := fun store => store.schema = schema)
      (fun store operation h => (store.schema_apply operation).trans h) commands rfl
  have hform := Session.form_run (.ofSchema settings schema none { options with registry := .standard })
    commands
  have hregistry : form.registry = .standard := congrArg Form.registry hform
  have hlayout : form.layout = .default form.schema.names :=
    hschema ▸ (congrArg Form.layout hform)
  obtain ⟨view, hview, hnames, hbound⟩ := Form.names_of_generated hregistry hlayout
  rw [hschema] at hnames hbound
  refine ⟨view, hview, hbound, ?_⟩
  rw [hnames, filterMap_eq_self_iff]
  refine forall₂_congr fun name hmem => ?_
  rw [← Scope.name_ofName_eq_iff, Schema.found?, Option.filter_some, Option.ite_none_right_eq_some]
  constructor
  · exact fun h => Option.some.inj h.2
  · intro h
    rw [h]
    exact ⟨List.contains_iff_mem.mpr hmem, rfl⟩

/-- A schema with a name of two lines. -/
def twoLines : Schema :=
  { title := none, description := none, properties := .ofList [("two\nlines", {})], required := [] }

/-- The control of such a name finds the first line, which is no property, and so nothing is shown. -/
theorem two_lines_not_shown :
    twoLines.names = ["two\nlines"] ∧
      ((Form.ofSchema {} twoLines none {}).view.map fun view => view.widgets.map (·.binding.name)) =
        .ok [] :=
  ⟨by decide, rfl⟩

end SchemaForm
