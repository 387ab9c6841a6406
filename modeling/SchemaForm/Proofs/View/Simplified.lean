import SchemaForm.Html
import SchemaForm.Proofs.View.Controls

/-!
# Simplified layouts

Some of what a layout says makes no difference to what is shown. A group without a label is a vertical
stack, a stack has no use for its label, and a control for an undeclared property shows nothing. A layout
from which all of that is taken away at once, however deep it stands, is shown as before.

* `Layout.simplified` — what is left of a layout;
* `Layout.Simple` — there is nothing to take away (`Layout.simple_simplified`);
* `Context.view_simplified` — both layouts have the same view, or fail alike.
-/

namespace SchemaForm

/-! ## Layouts -/

namespace Layout

/-- Whether there is anything to see of a node. -/
def isShown (schema : Schema) : Layout → Bool
  | .control bound => bound.isBound schema
  | _ => true

mutual

/-- The layout without labels that are not shown, and without the elements of which there is nothing to
see. A control or caption that stands alone is not an element, and stays. -/
def simplified (schema : Schema) : Layout → Layout
  | .stack direction _ elements => .stack direction none (simplifiedAll schema elements)
  | .group label elements =>
    match label.filter (· != "") with
    | some legend => .group (some legend) (simplifiedAll schema elements)
    | none => .stack .vertical none (simplifiedAll schema elements)
  | .control bound => .control bound
  | .caption text => .caption text

/-- Elements that are simplified, less those of which there is nothing to see. -/
def simplifiedAll (schema : Schema) : List Layout → List Layout
  | [] => []
  | node :: rest =>
    if node.isShown schema then simplified schema node :: simplifiedAll schema rest
    else simplifiedAll schema rest

end

mutual

/-- No stack has a label, every group has one, and there is something to see of every element. -/
def Simple (schema : Schema) : Layout → Prop
  | .stack _ label elements => label = none ∧ SimpleAll schema elements
  | .group label elements => (∃ legend, label = some legend ∧ legend ≠ "") ∧ SimpleAll schema elements
  | .control _ => True
  | .caption _ => True

/-- The same of elements. -/
def SimpleAll (schema : Schema) : List Layout → Prop
  | [] => True
  | node :: rest => node.isShown schema = true ∧ Simple schema node ∧ SimpleAll schema rest

end

/-- A label that is shown is not empty. -/
theorem ne_empty_of_filter {label : Option String} {legend : String}
    (h : label.filter (· != "") = some legend) : legend ≠ "" := by
  obtain ⟨-, hne⟩ := Option.filter_eq_some_iff.mp h
  simpa using hne

/-- Whether there is anything to see of a node does not change when it is simplified. -/
theorem isShown_simplified (schema : Schema) (layout : Layout) :
    (layout.simplified schema).isShown schema = layout.isShown schema := by
  cases layout with
  | group label elements =>
    rw [simplified]
    cases label.filter (· != "") <;> rfl
  | stack direction label elements => rw [simplified]; rfl
  | control bound => rw [simplified]
  | caption text => rw [simplified]

mutual

/-- Nothing is left that could be taken away. By recursion on the layout. -/
theorem simple_simplified (schema : Schema) : ∀ layout : Layout, (layout.simplified schema).Simple schema
  | .stack direction label elements => by
    rw [simplified, Simple]
    exact ⟨rfl, simpleAll_simplifiedAll schema elements⟩
  | .group label elements => by
    rw [simplified]
    cases hlabel : label.filter (· != "") with
    | none =>
      dsimp only
      rw [Simple]
      exact ⟨rfl, simpleAll_simplifiedAll schema elements⟩
    | some legend =>
      dsimp only
      rw [Simple]
      exact ⟨⟨legend, rfl, ne_empty_of_filter hlabel⟩, simpleAll_simplifiedAll schema elements⟩
  | .control bound => by
    rw [simplified, Simple]
    trivial
  | .caption text => by
    rw [simplified, Simple]
    trivial

theorem simpleAll_simplifiedAll (schema : Schema) : ∀ elements : List Layout,
    SimpleAll schema (simplifiedAll schema elements)
  | [] => by
    rw [simplifiedAll, SimpleAll]
    trivial
  | node :: rest => by
    rw [simplifiedAll]
    split
    · next hshown =>
      rw [SimpleAll, isShown_simplified]
      exact ⟨hshown, simple_simplified schema node, simpleAll_simplifiedAll schema rest⟩
    · exact simpleAll_simplifiedAll schema rest

end

end Layout

/-! ## Views -/

namespace Context

open Layout

/-- There is nothing to see of a control for an undeclared property, and that is no failure. -/
theorem view?_of_not_isShown {c : Context} {layout : Layout} (h : ¬ layout.isShown c.schema = true) :
    c.view? layout = .ok none := by
  cases layout with
  | control bound =>
    have hnone : bound.field? c.schema = none := Control.field?_eq_none_iff.mpr (Bool.eq_false_iff.mpr h)
    rw [view?, widget?, hnone]
    rfl
  | _ => exact absurd rfl h

mutual

/-- By recursion on the layout, along with the recursion of the simplification. -/
theorem view?_simplified (c : Context) : ∀ layout : Layout,
    c.view? (layout.simplified c.schema) = c.view? layout
  | .stack direction label elements => by
    rw [simplified, view?, view?, views_simplifiedAll c elements]
  | .group label elements => by
    rw [simplified, view?]
    cases hlabel : label.filter (· != "") with
    | none =>
      dsimp only
      rw [view?, views_simplifiedAll c elements]
    | some legend =>
      have hlegend : (some legend).filter (· != "") = some legend :=
        Option.filter_eq_some_iff.mpr ⟨rfl, by simpa using ne_empty_of_filter hlabel⟩
      dsimp only
      rw [view?, views_simplifiedAll c elements, hlegend]
  | .control bound => by rw [simplified]
  | .caption text => by rw [simplified]

theorem views_simplifiedAll (c : Context) : ∀ elements : List Layout,
    c.views (simplifiedAll c.schema elements) = c.views elements
  | [] => by rw [simplifiedAll]
  | node :: rest => by
    rw [simplifiedAll]
    split
    · rw [views, views, view?_simplified c node, views_simplifiedAll c rest]
    · next hhidden =>
      rw [views_simplifiedAll c rest, views, view?_of_not_isShown hhidden]
      cases c.views rest <;> rfl

end

/-- **A layout is shown as what it is simplified to.** Whatever the schema, the state of the form and the
widgets are, nothing that can be taken away from a layout makes a difference to its view, nor to the way in
which there is none; and so none to its HTML. In what is left there is nothing more to take away. -/
theorem view_simplified (c : Context) (layout : Layout) :
    (layout.simplified c.schema).Simple c.schema ∧
      c.view (layout.simplified c.schema) = c.view layout ∧
      (c.view (layout.simplified c.schema)).map View.toHtml = (c.view layout).map View.toHtml := by
  have hview : c.view (layout.simplified c.schema) = c.view layout := by
    rw [view, view, view?_simplified]
  exact ⟨simple_simplified c.schema layout, hview, congrArg (Except.map View.toHtml) hview⟩

/-- A group without a label in a stack with one, and in it a control for nothing. -/
example :
    let schema : Schema :=
      { title := none, description := none, properties := .ofList [("name", {})], required := [] }
    let name : Layout := .control ⟨"#/properties/name", .unset, none⟩
    let nothing : Layout := .control ⟨"#/properties/nothing", .unset, none⟩
    (Layout.stack .horizontal (some "Names") [.group (some "") [nothing, name], nothing]).simplified schema =
      .stack .horizontal none [.stack .vertical none [name]] := by
  rfl

end Context

end SchemaForm
