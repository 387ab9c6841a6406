import SchemaForm.Proofs.View.Mapping

/-!
# Renderings without parts of a host

A rendering puts nothing into a view but what the registry makes. Every widget in it is of the class that
the registry has for the kind of its field; and if all classes of the registry are built-in ones, then
nothing in the view is a part of a host.

* `Context.mem_widgets` — the widgets of a rendering, one by one;
* `Context.builtIn_view`, `Form.builtIn_view` — views without parts of a host.
-/

namespace SchemaForm

/-! ## Single widgets -/

theorem Registry.BuiltIn.resolve {r : Registry} (h : r.BuiltIn) {kind : String} {cls : WidgetClass}
    (hfound : r.resolve kind = .ok cls) : cls.isBuiltIn = true := by
  obtain ⟨entry, hmem, rfl⟩ := r.exists_entry_of_resolve hfound
  exact h entry hmem

namespace Context

variable {c : Context} {w : Widget}

/-- A widget of a view is the one of a control of the layout. -/
theorem mem_widgets {layout : Layout} {view : View} (h : c.view layout = .ok view)
    (hmem : w ∈ view.widgets) :
    ∃ control ∈ layout.controls, ∃ field, control.field? c.schema = some field ∧
      c.registry.resolve field.kind = .ok w.cls ∧ w.binding = c.binding field := by
  obtain ⟨control, hcontrol, hwidget⟩ := exists_control_of_mem_widgets h hmem
  exact ⟨control, hcontrol, widget?_eq_some_iff.mp hwidget⟩

end Context

/-! ## Views -/

namespace View

theorem builtInAll_append {views others : List View} (h : BuiltInAll views) (hothers : BuiltInAll others) :
    BuiltInAll (views ++ others) := by
  induction views with
  | nil => exact hothers
  | cons view rest ih =>
    rw [BuiltInAll] at h
    rw [List.cons_append, BuiltInAll]
    exact ⟨h.1, ih h.2⟩

theorem builtInAll_toList {view? : Option View} (h : ∀ view, view? = some view → view.BuiltIn) :
    BuiltInAll view?.toList := by
  cases view? with
  | none => simp [BuiltInAll]
  | some view => simp [BuiltInAll, h view rfl]

end View

namespace Context

open View

variable {c : Context}

mutual

/-- With built-in classes alone every node shows built-in widgets. By recursion on the layout. -/
theorem builtIn_view? (hc : c.registry.BuiltIn) : ∀ (layout : Layout) {view? : Option View},
    c.view? layout = .ok view? → ∀ view, view? = some view → view.BuiltIn
  | .stack direction _ elements, _, h, view, hview => by
    rw [Context.view?] at h
    obtain ⟨children, hchildren, h⟩ := exists_of_bind_ok h
    cases h
    cases hview
    rw [BuiltIn]
    exact builtIn_views hc elements hchildren
  | .group label elements, _, h, view, hview => by
    rw [Context.view?] at h
    obtain ⟨children, hchildren, h⟩ := exists_of_bind_ok h
    have hcontent : (View.stack .vertical children).BuiltIn := by
      rw [BuiltIn]
      exact builtIn_views hc elements hchildren
    -- without a label the group is just the stack in it
    dsimp only at h
    split at h
    · cases h
      cases hview
      rw [BuiltIn]
      exact hcontent
    · cases h
      cases hview
      exact hcontent
  | .control bound, _, h, view, hview => by
    rw [Context.view?] at h
    obtain ⟨found, hfound, h⟩ := exists_of_bind_ok h
    cases h
    obtain ⟨w, rfl, rfl⟩ := Option.map_eq_some_iff.mp hview
    obtain ⟨field, -, hresolve, -⟩ := widget?_eq_some_iff.mp hfound
    rw [BuiltIn]
    exact hc.resolve hresolve
  | .caption text, _, h, view, hview => by
    cases h
    cases hview
    simp [BuiltIn]

theorem builtIn_views (hc : c.registry.BuiltIn) : ∀ (elements : List Layout) {views : List View},
    c.views elements = .ok views → BuiltInAll views
  | [], _, h => by
    cases h
    simp [BuiltInAll]
  | node :: rest, _, h => by
    rw [Context.views] at h
    obtain ⟨first, hfirst, h⟩ := exists_of_bind_ok h
    obtain ⟨others, hothers, h⟩ := exists_of_bind_ok h
    cases h
    exact builtInAll_append (builtInAll_toList (builtIn_view? hc node hfirst))
      (builtIn_views hc rest hothers)

end

/-- The same of a whole view. -/
theorem builtIn_view (hc : c.registry.BuiltIn) {layout : Layout} {view : View}
    (h : c.view layout = .ok view) : view.BuiltIn := by
  rw [Context.view] at h
  cases hview : c.view? layout with
  | error missing =>
    rw [hview] at h
    cases h
  | ok view? =>
    rw [hview] at h
    cases h
    cases view? with
    | none => simp [BuiltIn]
    | some view => exact builtIn_view? hc layout hview view rfl

end Context

/-! ## Forms -/

namespace Form

open View

variable {f : Form} {view : View}

theorem builtIn_heading (f : Form) : f.heading.BuiltIn ∧ f.heading.widgets = [] := by
  rw [heading]
  cases f.title.filter (· != "") <;> simp [BuiltIn, widgets]

theorem builtIn_buttons (f : Form) (actions : List Action) :
    BuiltInAll (actions.map f.button) ∧ widgetsOfAll (actions.map f.button) = [] := by
  induction actions with
  | nil => simp [BuiltInAll, widgetsOfAll]
  | cons action rest ih =>
    cases action <;> simp [button, BuiltInAll, BuiltIn, widgetsOfAll, widgets, ih]

theorem builtIn_view (hregistry : f.registry.BuiltIn) (h : f.view = .ok view) : view.BuiltIn := by
  obtain ⟨body, hbody, h⟩ := exists_of_bind_ok h
  cases h
  obtain ⟨hheading, hnone⟩ := f.builtIn_heading
  obtain ⟨hbuttons, hnoneInRow⟩ := f.builtIn_buttons f.actions
  rw [BuiltIn]
  exact ⟨hheading, Context.builtIn_view hregistry hbody, hbuttons, hnone, hnoneInRow⟩

end Form

end SchemaForm
