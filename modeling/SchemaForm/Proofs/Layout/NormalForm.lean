import SchemaForm.Proofs.View.Export

/-!
# Layouts in normal form

A layout may be given in many ways: a flag as a word, a number as a text, hints that are null, members that
nobody knows. What `layout_to_dict` writes of a layout that `parse_layout` has read is one way out of these:
it is read again, and then written as it was. Nothing is lost on the way but the hints that are null.

* `Layout.toValue_exported` — what is left of a layout is written as the layout is;
* `Layout.NullFree`, `Layout.exported_of_nullFree` — a layout without such hints, of which all is left;
* `Context.view_exported_layout`, `Context.html_exported_layout` — how what is left is shown;
* `Layout.written_is_normal` — the normal form;
* `Layout.null_hint_is_lost` — a host that looks for a hint that is null.
-/

namespace SchemaForm

open Entries

/-! ## Writing again -/

theorem ControlOptions.toValue_exported (options : ControlOptions) :
    options.exported.toValue = options.toValue := by
  have hmembers : written (options.exported.known ++ options.exported.extra) =
      written (options.known ++ options.extra) := by
    show written (options.known ++ written options.extra) = _
    rw [written_append, written_append, written_written]
  rw [toValue_eq, toValue_eq, hmembers]

theorem Control.toValue_exported (control : Control) : control.exported.toValue = control.toValue := by
  have hmembers : control.exported.members = control.members := by
    cases hoptions : control.options with
    | none => simp [members, exported, hoptions]
    | some options =>
      simp [members, exported, hoptions, Value.ofOption, ControlOptions.toValue_exported]
  rw [toValue_eq, toValue_eq, hmembers]

namespace Layout

mutual

/-- What is left of a layout is written as the layout is. By recursion on the layout. -/
theorem toValue_exported : ∀ layout : Layout, layout.exported.toValue = layout.toValue
  | .stack direction label elements => by simp only [exported, toValue, toValues_exportedAll elements]
  | .group label elements => by simp only [exported, toValue, toValues_exportedAll elements]
  | .control bound => by rw [exported, toValue, toValue, bound.toValue_exported]
  | .caption text => by rw [exported]

theorem toValues_exportedAll : ∀ elements : List Layout, toValues (exportedAll elements) = toValues elements
  | [] => by rw [exportedAll]
  | node :: rest => by
    rw [exportedAll, toValues, toValues, toValue_exported node, toValues_exportedAll rest]

end

/-- No control has a hint that is null, beside those that all forms know. -/
def NullFree (layout : Layout) : Prop :=
  ∀ control ∈ layout.controls, ∀ options ∈ control.options, ∀ hint ∈ options.extra, hint.2 ≠ .null

/-- Nothing is lost of such a layout. -/
theorem exported_of_nullFree {layout : Layout} (h : layout.NullFree) : layout.exported = layout := by
  rw [exported_eq_mapControls]
  refine mapControls_eq_self fun control hcontrol => ?_
  obtain ⟨scope, label, options⟩ := control
  cases options with
  | none => rfl
  | some options =>
    have hextra : written options.extra = options.extra := by
      refine List.filter_eq_self.mpr fun hint hmem => ?_
      rw [Value.isNull_eq_false_iff.mpr (h _ hcontrol options rfl hint hmem), Bool.not_false]
    simp [Control.exported, ControlOptions.exported, hextra]

end Layout

/-! ## Rendering -/

theorem Control.field?_exported_self (control : Control) (schema : Schema) :
    control.exported.field? schema = (control.field? schema).map Field.exported := by
  rw [field?, field?, Option.map_map]
  rfl

namespace Context

/-- What is left of a control is shown by what is left of its widget, for the same schema. -/
theorem widget?_exported_control (c : Context) (control : Control) :
    c.widget? control.exported = (c.widget? control).map (Option.map Widget.exported) :=
  widget?_exported_of_field? (control.field?_exported_self c.schema) c.binding_exported rfl

/-- What is left of a layout has the same view, in which the widgets have no hints that are null. -/
theorem view_exported_layout (c : Context) (layout : Layout) :
    c.view layout.exported = (c.view layout).map (View.mapWidgets Widget.exported) := by
  rw [Layout.exported_eq_mapControls]
  exact view_mapControls fun control _ => c.widget?_exported_control control

/-- It has the same HTML, unless a host looks for hints that are null. -/
theorem html_exported_layout {c : Context} (h : c.registry.IgnoresNull) (layout : Layout) :
    (c.view layout.exported).map View.toHtml = (c.view layout).map View.toHtml := by
  refine html_eq_of_markup ?_
  rw [view_exported_layout]
  exact markup_view_mapWidgets_exported h layout

end Context

/-! ## Normal forms -/

namespace Layout

variable {v : Value} {layout : Layout}

/-- **What is written of a layout is a normal form.** It is read again, and what is read is written just as
the layout was. If the layout has no hints that are null, then what is read is the layout. In any case it
has the same tree for every schema, state and registry, but for such hints, and the same HTML with all
widgets that take a hint that is null for one that is not there. -/
theorem written_is_normal (h : read v = .ok layout) :
    ∃ other, read layout.toValue = .ok other ∧ other.toValue = layout.toValue ∧
      (layout.NullFree → other = layout) ∧
      ∀ c : Context,
        c.view other = (c.view layout).map (View.mapWidgets Widget.exported) ∧
        (c.registry.IgnoresNull →
          (c.view other).map View.toHtml = (c.view layout).map View.toHtml) := by
  refine ⟨layout.exported, read_toValue (regular_of_read h), layout.toValue_exported,
    exported_of_nullFree, fun c => ⟨c.view_exported_layout layout, fun hignores => ?_⟩⟩
  exact Context.html_exported_layout hignores layout

/-- A group with flags and numbers as others write them, and with hints that are null. -/
def looselyWritten : Value :=
  .object
    [("type", .text "Group"),
      ("label", .text ""),
      ("elements", .list
        [.object
          [("type", .text "Control"),
            ("scope", .text "#/properties/origin"),
            ("label", .int 1),
            ("options", .object
              [("color", .null), ("multi", .text "Yes"), ("rows", .text " 4 "),
                ("range", .object [("from", .null)])]),
            ("help", .text "nobody knows this member")]])]

/-- What is read of it. -/
def looselyRead : Layout :=
  .group (some "") [.control
    { scope := "#/properties/origin"
      label := .flag true
      options := some
        { multi := some true
          rows := some 4
          extra := [("color", .null), ("range", .object [("from", .null)])] } }]

/-- What is written of it: hints that are null are gone, but not what is null within a hint. -/
def normallyWritten : Value :=
  .object
    [("label", .text ""),
      ("elements", .list
        [.object
          [("type", .text "Control"),
            ("scope", .text "#/properties/origin"),
            ("label", .bool true),
            ("options", .object
              [("multi", .bool true), ("rows", .int 4), ("range", .object [("from", .null)])])]]),
      ("type", .text "Group")]

/-- A widget of a host that shows the name of its property. -/
def nameTag : HostWidget := ⟨"NameTag", "tag", some fun b => "<b>" ++ b.name ++ "</b>"⟩

/-- The registry of a host that has name tags where there are several lines. -/
def nameTags : Registry := Registry.standard.register Kind.textarea.name (.host nameTag)

theorem ignoresNull_nameTags : nameTags.IgnoresNull := by
  intro entry hmem
  rcases Entries.mem_of_mem_set hmem with hnew | hold
  · rw [hnew]
    intro html hhtml b
    cases hhtml
    rfl
  · exact Registry.ignoresNull_standard entry hold

theorem written_is_normal_group :
    read looselyWritten = .ok looselyRead ∧ looselyRead.toValue = normallyWritten ∧
      nameTags.IgnoresNull ∧
      ∃ other, read normallyWritten = .ok other ∧ other.toValue = normallyWritten ∧
        ∀ c : Context, c.registry = nameTags →
          (c.view other).map View.toHtml = (c.view looselyRead).map View.toHtml := by
  have hread : read looselyWritten = .ok looselyRead := by with_unfolding_all rfl
  obtain ⟨other, hother, hsame, -, hshown⟩ := written_is_normal hread
  refine ⟨hread, rfl, ignoresNull_nameTags, other, hother, hsame, fun c hc => ?_⟩
  exact (hshown c).2 (hc ▸ ignoresNull_nameTags)

/-- A control with a hint that is null. -/
def hintedValue : Value :=
  .object
    [("type", .text "Control"), ("scope", .text "#/properties/origin"),
      ("options", .object [("color", .null)])]

/-- What is read of it. -/
def hinted : Layout :=
  .control
    { scope := "#/properties/origin"
      label := .unset
      options := some { extra := [("color", .null)] } }

/-- What is left of it when it was written. -/
def unhinted : Layout :=
  .control { scope := "#/properties/origin", label := .unset, options := some {} }

/-- A widget of a host that shows whether there are hints that only a host knows. -/
def hintTag : HostWidget :=
  ⟨"HintTag", "tag", some fun b =>
    if b.field.options.any (·.extra.isEmpty) then "<b>plain</b>" else "<b>hinted</b>"⟩

/-- What a form with such a widget looks up. -/
def hintTagged : Context :=
  { schema :=
      { title := none
        description := none
        properties := .ofList [("origin", { type := .string })]
        required := [] }
    registry := Registry.standard.register Kind.text.name (.host hintTag) }

/-- A host that looks for a hint that is null does not find it again. So the trees are not the same, and its
widget has another HTML. -/
theorem null_hint_is_lost :
    read hintedValue = .ok hinted ∧ read hinted.toValue = .ok unhinted ∧
      (hintTagged.view hinted).map View.toHtml = .ok (.ok "<b>hinted</b>") ∧
      (hintTagged.view unhinted).map View.toHtml = .ok (.ok "<b>plain</b>") ∧
      ¬ ∃ other, read hinted.toValue = .ok other ∧ other.toValue = hinted.toValue ∧
        ∀ c : Context, c.view other = c.view hinted ∧
          (c.view other).map View.toHtml = (c.view hinted).map View.toHtml := by
  have hread : read hintedValue = .ok hinted := by with_unfolding_all rfl
  have hagain : read hinted.toValue = .ok unhinted := by with_unfolding_all rfl
  have hbefore : (hintTagged.view hinted).map View.toHtml = .ok (.ok "<b>hinted</b>") := rfl
  have hafter : (hintTagged.view unhinted).map View.toHtml = .ok (.ok "<b>plain</b>") := rfl
  refine ⟨hread, hagain, hbefore, hafter, ?_⟩
  -- what is read again is the one without the hint, and the widget of the host tells them apart
  rintro ⟨other, hother, -, hsame⟩
  cases hagain.symm.trans hother
  have hhtml := hbefore.symm.trans ((hsame hintTagged).2.symm.trans hafter)
  simp at hhtml

end Layout

end SchemaForm
