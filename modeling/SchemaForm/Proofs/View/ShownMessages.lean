import SchemaForm.Proofs.Session.Messages
import SchemaForm.Proofs.View.BuiltIn

/-!
# Messages that are shown

`visible_error` is answered twice: by a snapshot of the form for a host, and by what is bound to a widget for its
HTML. This module says that the two agree, down to the paragraphs that `to_html` and `render_form` write.

* `Store.visibleError_snapshot`, `Form.visibleError_binding` — the two answers;
* `Form.shownMessages`, `Form.ShowsMessages` — the controls that show a message, and the paragraphs in the
  HTML;
* `messages_shown_of_run` — in every session there are as many of the one as of the other.
-/

namespace SchemaForm

/-! ## Two answers -/

/-- A snapshot shows the message of a name once the name was touched. -/
theorem Store.visibleError_snapshot (s : Store) (name : String) :
    s.snapshot.visibleError name = s.visibleMessage? name := by
  have htouched : s.snapshot.touched.get? name = if name ∈ s.touched then some true else none :=
    OrderedMap.get?_ofList_map true s.touched name
  have herror : s.snapshot.errors.get? name = s.message? name := OrderedMap.get?_map _ _ name
  rw [Snapshot.visibleError, htouched, herror, visibleMessage?, isTouched]
  by_cases hmem : name ∈ s.touched
  · simp [hmem]
  · simp [hmem]

/-- After a check of the whole form, the message of every violation is shown. -/
theorem Store.visibleMessage?_validateForm (s : Store) (name : String) :
    s.validateForm.store.visibleMessage? name =
      ((s.schema.violations s.values).get? name).map Violation.message := by
  have htouched : s.validateForm.store.isTouched name = s.schema.names.contains name := rfl
  rw [visibleMessage?, htouched]
  by_cases hmem : name ∈ s.schema.names
  · rw [if_pos (List.contains_iff_mem.mpr hmem)]
    rfl
  · rw [if_neg (mt List.contains_iff_mem.mp hmem), Schema.get?_violations,
      Schema.violation?_of_not_mem hmem]
    rfl

/-- A widget shows the message that a snapshot shows. -/
theorem Form.visibleError_binding (f : Form) (field : Field) :
    (f.context.binding field).visibleError = f.store.snapshot.visibleError field.name := by
  have herror : f.context.errors.get? field.name = f.store.message? field.name :=
    OrderedMap.get?_map _ _ field.name
  rw [Store.visibleError_snapshot, Binding.visibleError, Context.binding, Store.visibleMessage?, herror]
  rfl

/-! ## Forms -/

namespace Form

open Html View

variable {f : Form} {view : View}

/-- The number of controls of the layout that name a property of which a message is shown. -/
def shownMessages (f : Form) : Nat :=
  f.layout.controls.countP fun control =>
    f.schema.names.contains control.propertyName &&
      (f.store.snapshot.visibleError control.propertyName).isSome

/-- The widgets show what the controls have to show. -/
theorem messageCount_widgets (hregistry : f.registry = .standard) (h : f.view = .ok view) :
    messageCount view.widgets = f.shownMessages := by
  obtain ⟨found, hfound, hwidgets⟩ := f.exists_view hregistry
  cases h.symm.trans hfound
  rw [messageCount, hwidgets, List.countP_filterMap, shownMessages]
  congr 1
  funext control
  cases hfield : control.field? f.schema with
  | none =>
    have hname : control.propertyName ∉ f.schema.names :=
      fun hmem => by simpa [hfield] using Control.field?_isSome_iff.mpr hmem
    simp [hname]
  | some field =>
    have hname : control.propertyName ∈ f.schema.names := by
      rw [← Control.field?_isSome_iff, hfield]
      rfl
    rw [← Control.field?_name hfield] at hname ⊢
    simp [Context.drawn, visibleError_binding, hname]

/-- The form can be shown. If nothing in it is too long to be displayed, it has HTML, and in its HTML there
are so many paragraphs with a message. -/
def ShowsMessages (f : Form) (messages : Nat) : Prop :=
  ∃ view, f.view = .ok view ∧
    ((∀ w ∈ view.widgets, w.binding.Short) → ∃ html, f.toHtml = .ok html) ∧
    ∀ html, f.toHtml = .ok html →
      occurrences "<p class=\x22field-error\x22>".toList html.toList = messages

/-- With the standard registry the paragraphs are those of the controls that show a message. -/
theorem showsMessages (hregistry : f.registry = .standard) : f.ShowsMessages f.shownMessages := by
  obtain ⟨view, hview, -⟩ := f.exists_view hregistry
  have hbuilt := builtIn_view (hregistry ▸ Registry.builtIn_standard) hview
  refine ⟨view, hview, fun hshort => ?_, fun html hhtml => ?_⟩
  · obtain ⟨html, hhtml⟩ := exists_toHtml hbuilt hshort
    exact ⟨html, toHtml_eq_ok_iff.mpr ⟨view, hview, hhtml⟩⟩
  · obtain ⟨other, hother, hhtml⟩ := toHtml_eq_ok_iff.mp hhtml
    cases hother.symm.trans hview
    rw [← messageTag_eq, occurrences_toHtml hbuilt hhtml, messageCount_widgets hregistry hview]

/-- After a check of the whole form, a message is shown for each violation. -/
theorem shownMessages_checked (settings : Settings) (schema : Schema) (layout? : Option Layout)
    (data : OrderedMap Value) :
    let form := (Form.ofSchema settings schema layout? { data }).touchAll true
    form.shownMessages = form.layout.controls.countP fun control =>
      (schema.violations (schema.initialValues data)).contains control.propertyName := by
  refine congrArg (List.countP · _) (funext fun control => ?_)
  show (schema.names.contains control.propertyName &&
    ((Store.ofData schema data).validateForm.store.snapshot.visibleError _).isSome) = _
  rw [Store.visibleError_snapshot, Store.visibleMessage?_validateForm, Option.isSome_map]
  show (schema.names.contains control.propertyName && OrderedMap.contains _ control.propertyName) = _
  cases hviolation : (schema.violations (schema.initialValues data)).contains control.propertyName with
  | false => exact (congrArg _ hviolation).trans (Bool.and_false _)
  | true =>
    obtain ⟨violation, hfound⟩ := Option.isSome_iff_exists.mp hviolation
    rw [Schema.get?_violations] at hfound
    exact Bool.and_eq_true_iff.mpr
      ⟨List.contains_iff_mem.mpr (Schema.mem_names_of_violation? hfound), hviolation⟩

/-- As long as nothing was touched, no message is shown. -/
theorem shownMessages_untouched (h : f.store.touched = []) : f.shownMessages = 0 := by
  refine List.countP_eq_zero.mpr fun control _ => ?_
  rw [Store.visibleError_snapshot, Store.visibleMessage?, Store.isTouched, h]
  simp

end Form

/-- **There is a paragraph for each message that is shown.** With the standard registry, in every session
and for every layout, the tag of a message stands in the HTML of the form as often as a control of the
layout names a property of which the snapshot shows a message. In a form that is shown at once these are the
controls of the properties whose initial values break a rule, if every message is asked for, and else there
are none. -/
theorem messages_shown_of_run (settings : Settings) (schema : Schema) (layout? : Option Layout)
    (options : FormOptions) :
    (∀ commands : List Session.Command,
      let form := (Session.run (.ofSchema settings schema layout?
        { options with registry := .standard }) commands).2.form
      form.ShowsMessages form.shownMessages) ∧
    ∀ data : OrderedMap Value,
      let form := (Form.ofSchema settings schema layout? { data }).touchAll
      let broken := (form true).layout.controls.countP fun control =>
        (schema.violations (schema.initialValues data)).contains control.propertyName
      (form true).ShowsMessages broken ∧ (form false).ShowsMessages 0 ∧
        ∀ touchAll html, renderForm settings schema layout? data touchAll = .ok html →
          Html.occurrences "<p class=\x22field-error\x22>".toList html.toList =
            if touchAll then broken else 0 := by
  refine ⟨fun commands => ?_, fun data => ?_⟩
  · have hform := Session.form_run
      (.ofSchema settings schema layout? { options with registry := .standard }) commands
    exact Form.showsMessages (congrArg Form.registry hform)
  · intro form broken
    have hbroken : (form true).shownMessages = broken :=
      Form.shownMessages_checked settings schema layout? data
    have hchecked : (form true).ShowsMessages broken := hbroken ▸ Form.showsMessages rfl
    have hnone : (form false).shownMessages = 0 := Form.shownMessages_untouched rfl
    have huntouched : (form false).ShowsMessages 0 := hnone ▸ Form.showsMessages rfl
    refine ⟨hchecked, huntouched, fun touchAll html hhtml => ?_⟩
    cases touchAll with
    | true =>
      obtain ⟨-, -, -, hcount⟩ := hchecked
      exact hcount html hhtml
    | false =>
      obtain ⟨-, -, -, hcount⟩ := huntouched
      exact hcount html hhtml

theorem messages_shown_of_run_enquiry :
    ∃ html, renderForm {} Session.enquiry none ∅ true = .ok html ∧
      Html.occurrences "<p class=\x22field-error\x22>".toList html.toList = 1 := by
  obtain ⟨-, -, hcount⟩ := (messages_shown_of_run {} Session.enquiry none {}).2 ∅
  have hsome : (renderForm {} Session.enquiry none ∅ true).toOption.isSome = true := by decide +kernel
  have hone : ((Form.ofSchema {} Session.enquiry none {}).touchAll true).layout.controls.countP
      (fun control => (Session.enquiry.violations (Session.enquiry.initialValues ∅)).contains
        control.propertyName) = 1 := by
    decide +kernel
  cases hhtml : renderForm {} Session.enquiry none ∅ true with
  | error failure =>
    rw [hhtml] at hsome
    cases hsome
  | ok html => exact ⟨html, rfl, (hcount true html hhtml).trans hone⟩

end SchemaForm
