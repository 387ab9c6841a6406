import SchemaForm.Proofs.Coercion
import SchemaForm.Proofs.Definition.Short

/-!
# Renderings that fail

A kind that is not registered is shown by the class of the fallback, and a host may change both. This module
says when `resolve` finds nothing to show a control with, and that nothing else can go wrong.

* `Registry.observe_edited` — what is found in a registry after edits is what the last edit has said that
  is about it;
* `Context.view_eq_error_iff` — the renderings that fail, and how;
* `Context.exists_html` — with built-in widgets everything that is rendered has HTML;
* `Context.rendering_fails_iff` — both, for every registry that a host has made.
-/

namespace SchemaForm

/-! ## Registries that a host has made -/

namespace Registry

variable {α : Type}

/-- What an edit says about a kind: the class that it is registered with, or that it is not registered any
more. -/
def Edit.class? (kind : String) : Edit → Option (Option WidgetClass)
  | .register other cls => if kind = other then some (some cls) else none
  | .unregister other => if kind = other then some none else none
  | _ => none

/-- What an edit says about the fallback. -/
def Edit.fallback? : Edit → Option String
  | .setFallback kind => some kind
  | _ => none

/-- What the last of the edits says that says anything. -/
def lastSaid? (said : Edit → Option α) (edits : List Edit) : Option α := edits.reverse.findSome? said

/-- A copy has all that the registry has, in the same order. -/
theorem copy_eq (r : Registry) : r.copy = r := by
  rw [copy, OrderedMap.ofList_entries]

/-- What an edit says about a kind counts, and else what was there. -/
theorem get?_edit (r : Registry) (e : Edit) (kind : String) :
    (r.edit e).classes.get? kind = (e.class? kind).getD (r.classes.get? kind) := by
  cases e with
  | register other cls =>
    refine (OrderedMap.get?_insert r.classes other kind cls).trans ?_
    rw [Edit.class?]
    split <;> rfl
  | unregister other =>
    refine (OrderedMap.get?_erase r.classes other kind).trans ?_
    rw [Edit.class?]
    split <;> rfl
  | copy =>
    rw [edit, copy_eq]
    rfl
  | setFallback other => rfl

theorem fallback_edit (r : Registry) (e : Edit) : (r.edit e).fallback = e.fallback?.getD r.fallback := by
  cases e <;> rfl

/-- What every edit decides or else leaves alone is, after edits, what the last of them has decided. -/
theorem observe_edited (observe : Registry → α) (said : Edit → Option α)
    (hstep : ∀ r e, observe (r.edit e) = (said e).getD (observe r)) (r : Registry) (edits : List Edit) :
    observe (r.edited edits) = (lastSaid? said edits).getD (observe r) := by
  rw [edited]
  induction edits generalizing r with
  | nil => rfl
  | cons e rest ih =>
    have hlast : lastSaid? said (e :: rest) = (lastSaid? said rest).or (said e) := by
      rw [lastSaid?, List.reverse_cons, List.findSome?_append, List.findSome?_singleton]
      rfl
    rw [List.foldl_cons, ih, hstep, hlast, Option.getD_or]

theorem mem_kinds_edited (r : Registry) (edits : List Edit) (kind : String) :
    kind ∈ (r.edited edits).kinds ↔
      ((lastSaid? (Edit.class? kind) edits).getD (r.classes.get? kind)).isSome = true := by
  rw [kinds, OrderedMap.mem_keys_iff,
    observe_edited (·.classes.get? kind) (Edit.class? kind) fun r e => r.get?_edit e kind]

end Registry

/-! ## Renderings that fail -/

theorem map_eq_error_iff {α β ε : Type} {x : Except ε α} {f : α → β} {e : ε} :
    x.map f = .error e ↔ x = .error e := by
  cases x <;> simp [Except.map]

/-- If there is but one way to fail, then a walk fails in this way exactly if one of its steps does. -/
theorem mapM_eq_error_iff {α β ε : Type} {f : α → Except ε β} {only e : ε}
    (honly : ∀ a e, f a = .error e → e = only) {items : List α} :
    items.mapM f = .error e ↔ e = only ∧ ∃ a ∈ items, f a = .error only := by
  induction items with
  | nil => simp [pure, Except.pure]
  | cons a rest ih =>
    rw [List.mapM_cons]
    cases hfirst : f a with
    | error other =>
      obtain rfl := honly a other hfirst
      simp [bind, Except.bind, hfirst, eq_comm]
    | ok b =>
      have hrest : (∃ other ∈ a :: rest, f other = .error only) ↔
          ∃ other ∈ rest, f other = .error only := by
        simp [hfirst]
      rw [hrest, ← ih]
      cases rest.mapM f <;> simp [bind, Except.bind, pure, Except.pure]

namespace Context

variable {c : Context} {missing : MissingFallback} {layout : Layout} {view : View}

/-- A control fails exactly if neither its kind nor the fallback is registered. -/
theorem widget?_eq_error_iff {control : Control} :
    c.widget? control = .error missing ↔
      missing = ⟨c.registry.fallback⟩ ∧ c.registry.fallback ∉ c.registry.kinds ∧
        ∃ field, control.field? c.schema = some field ∧ field.kind ∉ c.registry.kinds := by
  rw [widget?]
  cases control.field? c.schema with
  | none => simp
  | some field =>
    have hkind : (c.binding field).kind = field.kind := rfl
    dsimp only
    rw [map_eq_error_iff, Registry.create, map_eq_error_iff, hkind, Registry.resolve_eq_error_iff]
    simp only [Option.some.injEq, exists_eq_left']
    constructor
    · rintro ⟨hkind, hfallback, hmissing⟩
      exact ⟨hmissing, hfallback, hkind⟩
    · rintro ⟨hmissing, hfallback, hkind⟩
      exact ⟨hkind, hfallback, hmissing⟩

/-- A rendering fails exactly if some declared property is to be shown by a kind that is not registered,
while the fallback is not registered either; and it is the fallback that is missed then. -/
theorem view_eq_error_iff :
    c.view layout = .error missing ↔
      missing = ⟨c.registry.fallback⟩ ∧ c.registry.fallback ∉ c.registry.kinds ∧
        ∃ control ∈ layout.controls, ∃ field,
          control.field? c.schema = some field ∧ field.kind ∉ c.registry.kinds := by
  have hwalk : c.view layout = .error missing ↔ layout.controls.mapM c.widget? = .error missing := by
    rw [← map_eq_error_iff (f := View.widgets), c.widgets_view, widgetsOf, map_eq_error_iff]
  rw [hwalk, mapM_eq_error_iff fun control e h => (widget?_eq_error_iff.mp h).1]
  simp only [widget?_eq_error_iff, true_and]
  constructor
  · rintro ⟨hmissing, control, hcontrol, hfallback, hfield⟩
    exact ⟨hmissing, hfallback, control, hcontrol, hfield⟩
  · rintro ⟨hmissing, hfallback, control, hcontrol, hfield⟩
    exact ⟨hmissing, control, hcontrol, hfallback, hfield⟩

/-- Whatever the fields of the layout show can be displayed. -/
def ShowsShort (c : Context) (layout : Layout) : Prop :=
  ∀ control ∈ layout.controls, ∀ field, control.field? c.schema = some field → (c.binding field).Short

/-- What a rendering shows comes from the values, the schema and the layout. -/
theorem showsShort_of_short (hschema : c.schema.Within Value.Short) (hlayout : layout.Short)
    (hvalues : ∀ entry ∈ c.values.entries, entry.2.Short) : c.ShowsShort layout :=
  fun control hcontrol _ hfield => short_drawn hfield hschema (hlayout control hcontrol) hvalues

theorem exists_html (hbuilt : c.registry.BuiltIn) (hshort : c.ShowsShort layout)
    (hview : c.view layout = .ok view) : ∃ html, view.toHtml = .ok html := by
  refine View.exists_toHtml (builtIn_view hbuilt hview) fun w hmem => ?_
  obtain ⟨control, hcontrol, field, hfield, -, hbinding⟩ := mem_widgets hview hmem
  rw [hbinding]
  exact hshort control hcontrol field hfield

/-- **Only a missing fallback can make a rendering fail.** Whatever a host has done to a registry: a kind
is registered if the last edit that is about it has registered it, and the fallback is the one that was
named last. A rendering with this registry fails exactly if the kind of a declared property of the layout
is not registered and the fallback is not registered either, and the failure names the fallback. If all
classes are built-in ones and nothing is too long to be displayed, then whatever is rendered has HTML. With
the standard registry no rendering fails, whatever the options of the layout ask for. -/
theorem rendering_fails_iff (start : Registry) (edits : List Registry.Edit) (schema : Schema)
    (values : OrderedMap Value) (errors : OrderedMap String) (touched : List String) (layout : Layout) :
    let r := start.edited edits
    let c : Context := { schema, values, errors, touched, registry := r }
    let standard : Context := { c with registry := .standard }
    (∀ kind, kind ∈ r.kinds ↔
      ((Registry.lastSaid? (Registry.Edit.class? kind) edits).getD (start.classes.get? kind)).isSome = true) ∧
    r.fallback = (Registry.lastSaid? Registry.Edit.fallback? edits).getD start.fallback ∧
    (∀ missing, c.view layout = .error missing ↔
      missing = ⟨r.fallback⟩ ∧ r.fallback ∉ r.kinds ∧
        ∃ control ∈ layout.controls, ∃ field, control.field? schema = some field ∧ field.kind ∉ r.kinds) ∧
    (r.BuiltIn → c.ShowsShort layout → ∀ view, c.view layout = .ok view → ∃ html, view.toHtml = .ok html) ∧
    ∃ view, standard.view layout = .ok view ∧
      (c.ShowsShort layout → ∃ html, view.toHtml = .ok html) := by
  intro r c standard
  obtain ⟨view, hview, -⟩ := standard.exists_view rfl layout
  exact ⟨start.mem_kinds_edited edits,
    Registry.observe_edited (·.fallback) Registry.Edit.fallback? (fun r e => r.fallback_edit e) start edits,
    fun _ => view_eq_error_iff,
    fun hbuilt hshort _ hview => exists_html hbuilt hshort hview,
    view, hview, fun hshort => exists_html (c := standard) Registry.builtIn_standard hshort hview⟩

/-- A host that takes away the widget for numbers, and names a fallback that it has not registered. -/
def retiring : List Registry.Edit := [.unregister "number", .copy, .setFallback "line"]

/-- What a form for measurements looks up when a host has changed the standard registry. -/
def ofEdits (edits : List Registry.Edit) : Context :=
  { schema := measurements, registry := Registry.standard.edited edits }

theorem rendering_fails_iff_retired :
    (ofEdits retiring).view (.default measurements.names) = .error ⟨"line"⟩ ∧
      (Registry.standard.edited (retiring ++ [.register "line" .text])).BuiltIn ∧
      (ofEdits (retiring ++ [.register "line" .text])).ShowsShort (.default measurements.names) ∧
      ∃ view html, (ofEdits (retiring ++ [.register "line" .text])).view (.default measurements.names) =
        .ok view ∧ view.toHtml = .ok html := by
  have hbuilt : (Registry.standard.edited (retiring ++ [.register "line" .text])).BuiltIn := by
    rw [Registry.BuiltIn]
    decide
  have hshort : (ofEdits (retiring ++ [.register "line" .text])).ShowsShort
      (.default measurements.names) := by
    have hschema : measurements.Within Value.Short := by
      have hentries : measurements.properties.entries =
          [("count", { type := .integer }), ("weight", { type := .number })] := rfl
      have hplain : ∀ type, ({ type } : Property).Within Value.Short := fun type =>
        ⟨fun _ hmem => absurd hmem (Option.not_mem_none _), fun _ hmem => absurd hmem List.not_mem_nil⟩
      rw [Schema.Within, hentries, List.forall_mem_cons, List.forall_mem_singleton]
      exact ⟨hplain .integer, hplain .number⟩
    exact showsShort_of_short hschema (Layout.short_default _) (fun _ hmem => absurd hmem List.not_mem_nil)
  obtain ⟨-, -, hretired, -⟩ :=
    rendering_fails_iff .standard retiring measurements ∅ ∅ [] (.default measurements.names)
  obtain ⟨-, -, hmended, hhtml, -⟩ := rendering_fails_iff .standard (retiring ++ [.register "line" .text])
    measurements ∅ ∅ [] (.default measurements.names)
  have hcontrols : (Layout.default measurements.names).controls =
      [⟨Scope.ofName "count", .unset, none⟩, ⟨Scope.ofName "weight", .unset, none⟩] := rfl
  have hmissing : (ofEdits retiring).view (.default measurements.names) = .error ⟨"line"⟩ := by
    refine (hretired ⟨"line"⟩).mpr ⟨rfl, by decide, ⟨Scope.ofName "count", .unset, none⟩, ?_⟩
    exact ⟨hcontrols ▸ List.mem_cons_self .., _, rfl, by decide⟩
  refine ⟨hmissing, hbuilt, hshort, ?_⟩
  cases hview : (ofEdits (retiring ++ [.register "line" .text])).view (.default measurements.names) with
  | error missing => exact absurd ((hmended missing).mp hview).2.1 (by decide)
  | ok view =>
    obtain ⟨html, hfound⟩ := hhtml hbuilt hshort view hview
    exact ⟨view, html, rfl, hfound⟩

end Context

end SchemaForm
