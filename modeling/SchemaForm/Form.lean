import SchemaForm.Definition
import SchemaForm.Html
import SchemaForm.Settings
import SchemaForm.Snapshot
import SchemaForm.View.Rendering

/-!
# Forms

A form that is shown to a user: the state of its values together with the layout, the widgets and the
buttons.

* `FormOptions` — what a host says about a form besides schema and layout;
* `Form.ofSchema`, `Definition.form` — a new form (`JsonForm`, `JsonForm.from_definition`);
* `Form.view`, `Form.toHtml` — what the form shows now, as a tree and as text (`render`, `to_html`);
* `Form.touchAll`, `renderForm` — a form that is shown at once, with all of its messages if that is asked for
  (`render_form`).
-/

namespace SchemaForm

/-- The first of two texts that is there and not empty, or else the second. -/
def orElseText (first second : Option String) : Option String :=
  match first.filter (· != "") with
  | some text => some text
  | none => second

/-- What a host says about a form besides schema and layout. -/
structure FormOptions where
  data : OrderedMap Value := ∅
  title : Option String := none
  submitLabel : Option String := none
  draftLabel : Option String := none
  showsDraftButton : Bool := false
  /-- Whether a submission is turned away while another is under way; the settings decide if nothing is
  said. -/
  rejectsConcurrent : Option Bool := none
  /-- Whether somebody takes the values that are submitted. -/
  takesSubmissions : Bool := false
  /-- Whether somebody takes drafts. -/
  takesDrafts : Bool := false
  registry : Registry := .standard

/-- A `JsonForm`: a store with its layout, its widgets and its buttons. -/
structure Form where
  layout : Layout
  title : Option String
  submitLabel : String
  submittingLabel : String
  draftLabel : String
  showsDraftButton : Bool
  rejectsConcurrent : Bool
  takesSubmissions : Bool
  takesDrafts : Bool
  registry : Registry
  store : Store

namespace Form

/-- A new `JsonForm`. Without a layout it has a control for each property. -/
def ofSchema (settings : Settings) (schema : Schema) (layout? : Option Layout)
    (options : FormOptions) : Form :=
  { layout := layout?.getD (.default schema.names)
    title := orElseText options.title schema.title
    submitLabel := (orElseText options.submitLabel settings.submitLabel).getD ""
    submittingLabel := settings.submittingLabel
    draftLabel := (orElseText options.draftLabel settings.draftLabel).getD ""
    showsDraftButton := options.showsDraftButton
    rejectsConcurrent := options.rejectsConcurrent.getD settings.rejectsConcurrent
    takesSubmissions := options.takesSubmissions
    takesDrafts := options.takesDrafts
    registry := options.registry
    store := .ofData schema options.data }

/-- The schema of the form. -/
def schema (f : Form) : Schema := f.store.schema

/-- The `RenderContext` of the form. -/
def context (f : Form) : Context :=
  { schema := f.schema
    values := f.store.values
    errors := f.store.messages
    touched := f.store.touched
    registry := f.registry }

/-- What a click on a button does. -/
inductive Action where
  | submit
  | saveDraft
  deriving DecidableEq, Repr

/-- The actions for which there are buttons, in order. -/
def actions (f : Form) : List Action :=
  (if f.showsDraftButton && f.takesDrafts then [.saveDraft] else []) ++ [.submit]

/-- The button of an action. While a submission is under way no button can be used. -/
def button (f : Form) : Action → View
  | .saveDraft => .button f.draftLabel "button" f.store.submitting
  | .submit =>
    .button (if f.store.submitting then f.submittingLabel else f.submitLabel) "submit"
      f.store.submitting

/-- The heading, if there is a title. -/
def heading (f : Form) : View :=
  match f.title.filter (· != "") with
  | some title => .heading title
  | none => .nothing

/-- `render`: what the form shows for the values, errors and touched names that its store has. -/
def view (f : Form) : Except MissingFallback View := do
  let body ← f.context.view f.layout
  return .form f.heading body (f.actions.map f.button)

/-- Why a form has no HTML. -/
inductive Unshown where
  /-- The registry has no class for a control. -/
  | noView (missing : MissingFallback)
  /-- A part of the view has no HTML. -/
  | noHtml (failure : Html.Failure)
  deriving DecidableEq, Repr

/-- The message of the failure. -/
def Unshown.message : Unshown → String
  | .noView missing => missing.kind
  | .noHtml failure => failure.message

/-- `to_html`: the HTML of that view. -/
def toHtml (f : Form) : Except Unshown String := do
  let view ← f.view.mapError .noView
  view.toHtml.mapError .noHtml

/-- The HTML of a form is that of its view. -/
theorem toHtml_eq_ok_iff {f : Form} {html : String} :
    f.toHtml = .ok html ↔ ∃ view, f.view = .ok view ∧ view.toHtml = .ok html := by
  rw [toHtml]
  cases f.view with
  | error missing => exact ⟨nofun, fun ⟨_, hview, _⟩ => nomatch hview⟩
  | ok view =>
    change view.toHtml.mapError Unshown.noHtml = .ok html ↔ _
    cases hhtml : view.toHtml with
    | error failure =>
      refine ⟨nofun, ?_⟩
      rintro ⟨_, ⟨⟩, htext⟩
      cases hhtml.symm.trans htext
    | ok text =>
      constructor
      · rintro ⟨⟩
        exact ⟨view, rfl, hhtml⟩
      · rintro ⟨_, ⟨⟩, htext⟩
        cases hhtml.symm.trans htext
        rfl

/-- What `render` logs. -/
def viewEvents (f : Form) : List Event := f.context.events f.layout

/-- The form with its store in another state. -/
def withStore (f : Form) (store : Store) : Form := { f with store }

/-- The form, after `validate_form` if every message is to be shown. -/
def touchAll (f : Form) (every : Bool) : Form :=
  if every then f.withStore f.store.validateForm.store else f

end Form

/-- `render_form`: the HTML of a new form, with every message if that is asked for (`touch_all`). -/
def renderForm (settings : Settings) (schema : Schema) (layout? : Option Layout)
    (data : OrderedMap Value) (touchAll : Bool) : Except Form.Unshown String :=
  ((Form.ofSchema settings schema layout? { data }).touchAll touchAll).toHtml

namespace Definition

/-- What a definition says about its form; a host may say something else. -/
def options (d : Definition) : FormOptions :=
  { data := d.data?.getD ∅
    title := d.displayTitle }

/-- `from_definition`: the form of a definition. -/
def form (settings : Settings) (d : Definition) (options : FormOptions) : Form :=
  .ofSchema settings d.schema (some d.layout) options

end Definition

end SchemaForm
