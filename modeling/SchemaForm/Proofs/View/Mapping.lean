import SchemaForm.Proofs.Html.Paragraphs
import SchemaForm.Proofs.View.Controls

/-!
# Other widgets in the same view

Two renderings often differ in their widgets only. If each control has the old widget after some change,
then the whole view is the old view with that change in all of its widgets; and if the change is one that
the markup of a widget does not show, then neither does the markup of the view.

* `View.mapWidgets` — a view with other widgets in it, and what that does to its widgets and its markup;
* `Layout.mapControls` — a layout with other controls in it;
* `Context.view_mapControls`, `Context.view_mapWidgets` — such a layout, and the same layout, rendered with
  other widgets;
* `Context.html_eq_of_markup` — the HTML of two renderings, from their markup.
-/

namespace SchemaForm

/-! ## Views -/

namespace View

variable (f : Widget → Widget)

mutual

/-- The view with these widgets in the place of its own. Those of a form are in its body. -/
def mapWidgets : View → View
  | .widget w => .widget (f w)
  | .stack direction children => .stack direction (mapWidgetsAll children)
  | .fieldset legend content => .fieldset legend (mapWidgets content)
  | .form title body actions => .form title (mapWidgets body) actions
  | view => view

/-- Several views with these widgets in the place of their own. -/
def mapWidgetsAll : List View → List View
  | [] => []
  | view :: rest => mapWidgets view :: mapWidgetsAll rest

end

theorem mapWidgetsAll_append (views others : List View) :
    mapWidgetsAll f (views ++ others) = mapWidgetsAll f views ++ mapWidgetsAll f others := by
  induction views with
  | nil => rfl
  | cons view rest ih => simp only [List.cons_append, mapWidgetsAll, ih]

theorem mapWidgetsAll_toList (view? : Option View) :
    mapWidgetsAll f view?.toList = (view?.map (mapWidgets f)).toList := by
  cases view? <;> rfl

mutual

/-- The widgets of a mapped view are the mapped widgets, in the same order. -/
theorem widgets_mapWidgets : ∀ view : View, (view.mapWidgets f).widgets = view.widgets.map f
  | .widget w => rfl
  | .stack direction children => by
    simpa only [mapWidgets, widgets] using widgetsOfAll_mapWidgetsAll children
  | .fieldset legend content => by simpa only [mapWidgets, widgets] using widgets_mapWidgets content
  | .form title body actions => by simpa only [mapWidgets, widgets] using widgets_mapWidgets body
  | .nothing => rfl
  | .caption _ => rfl
  | .heading _ => rfl
  | .button .. => rfl
  | .custom _ => rfl
  | .unknown _ => rfl

theorem widgetsOfAll_mapWidgetsAll :
    ∀ views : List View, widgetsOfAll (mapWidgetsAll f views) = (widgetsOfAll views).map f
  | [] => rfl
  | view :: rest => by
    simp only [mapWidgetsAll, widgetsOfAll, List.map_append, widgets_mapWidgets view,
      widgetsOfAll_mapWidgetsAll rest]

end

variable {f}

mutual

/-- A change that the markup of no widget shows is not seen in the markup of the view. -/
theorem markup_mapWidgets : ∀ {view : View}, (∀ w ∈ view.widgets, (f w).markup = w.markup) →
    (view.mapWidgets f).markup = view.markup
  | .widget w, h => by
    rw [mapWidgets, markup, markup]
    exact h w (List.mem_singleton_self w)
  | .stack direction children, h => by
    rw [mapWidgets, markup, markup, markupOfAll_mapWidgetsAll direction h]
  | .fieldset legend content, h => by
    have hcontent : ∀ w ∈ content.widgets, (f w).markup = w.markup := h
    rw [mapWidgets, markup, markup, markup_mapWidgets hcontent]
  | .form title body actions, h => by
    have hbody : ∀ w ∈ body.widgets, (f w).markup = w.markup := h
    rw [mapWidgets, markup, markup, markup_mapWidgets hbody]
  | .nothing, _ => rfl
  | .caption _, _ => rfl
  | .heading _, _ => rfl
  | .button .., _ => rfl
  | .custom _, _ => rfl
  | .unknown _, _ => rfl

theorem markupOfAll_mapWidgetsAll (direction : Direction) :
    ∀ {views : List View}, (∀ w ∈ widgetsOfAll views, (f w).markup = w.markup) →
      markupOfAll direction (mapWidgetsAll f views) = markupOfAll direction views
  | [], _ => rfl
  | view :: rest, h => by
    rw [widgetsOfAll, List.forall_mem_append] at h
    rw [mapWidgetsAll, markupOfAll, markupOfAll, markup_mapWidgets h.1,
      markupOfAll_mapWidgetsAll direction h.2]

end

end View

/-! ## Layouts -/

namespace Layout

mutual

/-- The layout with these controls in the place of its own. -/
def mapControls (g : Control → Control) : Layout → Layout
  | .stack direction label elements => .stack direction label (mapControlsAll g elements)
  | .group label elements => .group label (mapControlsAll g elements)
  | .control bound => .control (g bound)
  | .caption text => .caption text

/-- Several nodes with these controls in the place of their own. -/
def mapControlsAll (g : Control → Control) : List Layout → List Layout
  | [] => []
  | node :: rest => mapControls g node :: mapControlsAll g rest

end

mutual

/-- Where no control changes, neither does the layout. -/
theorem mapControls_eq_self {g : Control → Control} : ∀ {layout : Layout},
    (∀ control ∈ layout.controls, g control = control) → layout.mapControls g = layout
  | .stack direction label elements, h => by rw [mapControls, mapControlsAll_eq_self h]
  | .group label elements, h => by rw [mapControls, mapControlsAll_eq_self h]
  | .control bound, h => by rw [mapControls, h bound (List.mem_singleton_self bound)]
  | .caption text, _ => rfl

theorem mapControlsAll_eq_self {g : Control → Control} : ∀ {elements : List Layout},
    (∀ control ∈ controlsOfAll elements, g control = control) → mapControlsAll g elements = elements
  | [], _ => rfl
  | node :: rest, h => by
    rw [controlsOfAll, List.forall_mem_append] at h
    rw [mapControlsAll, mapControls_eq_self h.1, mapControlsAll_eq_self h.2]

end

end Layout

/-! ## Renderings -/

/-- The class for a kind is a registered one. -/
theorem Registry.exists_entry_of_resolve (r : Registry) {kind : String} {cls : WidgetClass}
    (h : r.resolve kind = .ok cls) : ∃ entry ∈ r.classes.entries, entry.2 = cls := by
  rw [resolve] at h
  split at h
  · next found hfound =>
    cases h
    exact ⟨_, OrderedMap.get?_eq_some_iff.mp hfound, rfl⟩
  · split at h
    · next found hfound =>
      cases h
      exact ⟨_, OrderedMap.get?_eq_some_iff.mp hfound, rfl⟩
    · cases h

namespace Context

variable {c d : Context} {f : Widget → Widget} {g : Control → Control}

mutual

/-- By recursion on the layout, the leaves of which are its controls. -/
theorem view?_mapControls : ∀ {layout : Layout},
    (∀ control ∈ layout.controls, d.widget? (g control) = (c.widget? control).map (Option.map f)) →
      d.view? (layout.mapControls g) = (c.view? layout).map (Option.map (View.mapWidgets f))
  | .stack direction label elements, h => by
    rw [Layout.mapControls, view?, view?, views_mapControlsAll h]
    cases c.views elements <;> rfl
  | .group label elements, h => by
    rw [Layout.mapControls, view?, view?, views_mapControlsAll h]
    cases c.views elements with
    | error missing => rfl
    | ok children => cases label.filter (· != "") <;> rfl
  | .control bound, h => by
    rw [Layout.mapControls, view?, view?, h bound (List.mem_singleton_self bound)]
    cases c.widget? bound with
    | error missing => rfl
    | ok widget? => cases widget? <;> rfl
  | .caption text, _ => rfl

theorem views_mapControlsAll : ∀ {elements : List Layout},
    (∀ control ∈ Layout.controlsOfAll elements,
      d.widget? (g control) = (c.widget? control).map (Option.map f)) →
      d.views (Layout.mapControlsAll g elements) = (c.views elements).map (View.mapWidgetsAll f)
  | [], _ => rfl
  | node :: rest, h => by
    rw [Layout.controlsOfAll, List.forall_mem_append] at h
    rw [Layout.mapControlsAll, views, views, view?_mapControls h.1, views_mapControlsAll h.2]
    cases c.view? node with
    | error missing => rfl
    | ok first =>
      cases c.views rest with
      | error missing => rfl
      | ok others =>
        refine congrArg Except.ok ?_
        rw [View.mapWidgetsAll_append, View.mapWidgetsAll_toList]

end

/-- If the changed controls have the changed widgets, then the changed layout has the changed view. -/
theorem view_mapControls {layout : Layout}
    (h : ∀ control ∈ layout.controls, d.widget? (g control) = (c.widget? control).map (Option.map f)) :
    d.view (layout.mapControls g) = (c.view layout).map (View.mapWidgets f) := by
  rw [view, view, view?_mapControls h]
  cases c.view? layout with
  | error missing => rfl
  | ok view? => cases view? <;> rfl

/-- The same of a layout that stays as it is. -/
theorem view_mapWidgets {layout : Layout}
    (h : ∀ control ∈ layout.controls, d.widget? control = (c.widget? control).map (Option.map f)) :
    d.view layout = (c.view layout).map (View.mapWidgets f) := by
  have hsame : layout.mapControls id = layout := Layout.mapControls_eq_self fun _ _ => rfl
  rw [← view_mapControls (g := id) h, hsame]

/-- Every widget of a view is the widget of a control of the layout. -/
theorem exists_control_of_mem_widgets {layout : Layout} {view : View} (h : c.view layout = .ok view)
    {w : Widget} (hw : w ∈ view.widgets) : ∃ control ∈ layout.controls, c.widget? control = .ok (some w) := by
  have hwidgets := c.widgets_view layout
  rw [h, widgetsOf] at hwidgets
  cases hfound : layout.controls.mapM c.widget? with
  | error missing =>
    rw [hfound] at hwidgets
    cases hwidgets
  | ok found =>
    rw [hfound] at hwidgets
    have hmem : some w ∈ found := by
      have hview : view.widgets = found.filterMap id := Except.ok.inj hwidgets
      rw [hview] at hw
      simpa using hw
    exact exists_of_mapM_ok hfound (some w) hmem

/-- The class of a widget is a registered one. -/
theorem exists_entry_of_widget? {control : Control} {w : Widget} (h : c.widget? control = .ok (some w)) :
    ∃ entry ∈ c.registry.classes.entries, entry.2 = w.cls := by
  obtain ⟨field, -, hclass, -⟩ := widget?_eq_some_iff.mp h
  exact c.registry.exists_entry_of_resolve hclass

/-- A change that the markup of the widgets does not show is not seen in the markup of the view. -/
theorem markup_view_mapWidgets {layout : Layout}
    (h : ∀ control ∈ layout.controls, ∀ w, c.widget? control = .ok (some w) → (f w).markup = w.markup) :
    ((c.view layout).map (View.mapWidgets f)).map View.markup = (c.view layout).map View.markup := by
  cases hview : c.view layout with
  | error missing => rfl
  | ok view =>
    refine congrArg Except.ok (View.markup_mapWidgets fun w hw => ?_)
    obtain ⟨control, hmem, hwidget⟩ := exists_control_of_mem_widgets hview hw
    exact h control hmem w hwidget

/-- Renderings with the same markup have the same HTML, or fail alike. -/
theorem html_eq_of_markup {found other : Except MissingFallback View}
    (h : found.map View.markup = other.map View.markup) : found.map View.toHtml = other.map View.toHtml := by
  have hhtml : ∀ found : Except MissingFallback View, found.map View.toHtml =
      (found.map View.markup).map fun markup =>
        markup.map fun parts => String.ofList (Html.Markup.writeAll parts) := by
    intro found
    cases found <;> rfl
  rw [hhtml, h, ← hhtml]

end Context

end SchemaForm
