import SchemaForm.Proofs.Choice.Posted
import SchemaForm.Proofs.Store
import SchemaForm.Proofs.View.BuiltIn

/-!
# Whole numbers that are shown and written back

The input for a number shows the number as a text (`_display_value`), and what comes back from it is a text
again. This module follows a whole number on its way: from the store into the HTML, from there into the store
by `set_value`, and out of it by `coerce_values`. It may have up to `maxDigits` digits, and a minus sign in
front of them: both `typedInteger`, as release 2.14 of `pydantic` does, and `integerOfNumeral` count digits
alone.

* `View.infix_markup` — the HTML of a view has the markup of each of its widgets in it;
* `Binding.numberInput` — the input for a whole number;
* `Property.accepts_intText`, `Schema.coerce_intText` — what validation and coercion make of its text;
* `Form.whole_number_returns` — the whole way.
-/

namespace SchemaForm

open Html SchemaForm.Text

/-! ## Widgets in the HTML of a view -/

namespace Html

variable {own : List Char} {parts others content : List Markup}

open Markup

theorem infix_writeAll_append_left (h : own <:+: writeAll parts) : own <:+: writeAll (parts ++ others) := by
  rw [writeAll_append]
  exact h.trans (List.prefix_append ..).isInfix

theorem infix_writeAll_append_right (h : own <:+: writeAll others) : own <:+: writeAll (parts ++ others) := by
  rw [writeAll_append]
  exact h.trans (List.suffix_append ..).isInfix

/-- What is in an element is in its text. -/
theorem infix_writeAll_element (tag : String) (attributes : List Attribute)
    (h : own <:+: writeAll content) : own <:+: writeAll [.element tag attributes content] := by
  rw [writeAll, writeAll_nil, List.append_nil, write]
  exact h.trans ⟨_, _, List.append_assoc ..⟩

theorem infix_writeAll_cell (direction : Direction) (h : own <:+: writeAll content) :
    own <:+: writeAll (View.cell direction content) := by
  cases direction with
  | vertical => exact h
  | horizontal => exact infix_writeAll_element _ _ h

end Html

namespace View

open Markup

mutual

/-- By recursion on the view: every part puts its own tags around what is in it. -/
theorem infix_markup : ∀ {v : View} {parts : List Markup}, v.markup = .ok parts →
    ∀ {w : Widget} {own : List Markup}, w ∈ v.widgets → w.markup = .ok own →
      writeAll own <:+: writeAll parts
  | .form title body actions, parts, h, w, own, hmem, hown => by
    rw [View.markup] at h
    obtain ⟨heading, -, h⟩ := exists_of_bind_ok h
    obtain ⟨content, hcontent, h⟩ := exists_of_bind_ok h
    have hin := infix_markup hcontent hmem hown
    cases actions with
    | nil =>
      cases h
      exact infix_writeAll_element _ _ (infix_writeAll_append_right hin)
    | cons action rest =>
      obtain ⟨first, -, h⟩ := exists_of_bind_ok h
      obtain ⟨others, -, h⟩ := exists_of_bind_ok h
      cases h
      exact infix_writeAll_element _ _ (infix_writeAll_append_left (infix_writeAll_append_right hin))
  | .stack direction children, parts, h, w, own, hmem, hown => by
    rw [View.markup] at h
    obtain ⟨content, hcontent, h⟩ := exists_of_bind_ok h
    cases h
    exact infix_writeAll_element _ _ (infix_markupOfAll direction hcontent hmem hown)
  | .fieldset legend content, parts, h, w, own, hmem, hown => by
    rw [View.markup] at h
    obtain ⟨inner, hinner, h⟩ := exists_of_bind_ok h
    cases h
    refine infix_writeAll_element _ _ ?_
    show writeAll own <:+: writeAll ([.element "legend" [] [.text legend]] ++ inner)
    exact infix_writeAll_append_right (infix_markup hinner hmem hown)
  | .widget shown, parts, h, w, own, hmem, hown => by
    obtain rfl := List.mem_singleton.mp hmem
    rw [View.markup] at h
    obtain rfl := Except.ok.inj (h.symm.trans hown)
    exact List.infix_rfl
  | .nothing, _, _, _, _, hmem, _ => absurd hmem List.not_mem_nil
  | .caption _, _, _, _, _, hmem, _ => absurd hmem List.not_mem_nil
  | .heading _, _, _, _, _, hmem, _ => absurd hmem List.not_mem_nil
  | .button .., _, _, _, _, hmem, _ => absurd hmem List.not_mem_nil
  | .custom _, _, _, _, _, hmem, _ => absurd hmem List.not_mem_nil
  | .unknown _, _, _, _, _, hmem, _ => absurd hmem List.not_mem_nil

theorem infix_markupOfAll (direction : Direction) : ∀ {views : List View} {parts : List Markup},
    markupOfAll direction views = .ok parts → ∀ {w : Widget} {own : List Markup},
      w ∈ widgetsOfAll views → w.markup = .ok own → writeAll own <:+: writeAll parts
  | [], _, _, _, _, hmem, _ => absurd hmem List.not_mem_nil
  | view :: rest, parts, h, w, own, hmem, hown => by
    rw [markupOfAll] at h
    obtain ⟨first, hfirst, h⟩ := exists_of_bind_ok h
    obtain ⟨others, hothers, h⟩ := exists_of_bind_ok h
    cases h
    rw [widgetsOfAll] at hmem
    rcases List.mem_append.mp hmem with hmem | hmem
    · exact infix_writeAll_append_left (infix_writeAll_cell _ (infix_markup hfirst hmem hown))
    · exact infix_writeAll_append_right (infix_markupOfAll direction hothers hmem hown)

end

/-- The HTML of a view has the markup of each of its widgets in it. -/
theorem infix_toHtml {v : View} {html : String} (h : v.toHtml = .ok html) {w : Widget}
    {own : List Markup} (hmem : w ∈ v.widgets) (hown : w.markup = .ok own) :
    writeAll own <:+: html.toList := by
  rw [toHtml] at h
  cases hparts : v.markup with
  | error failure =>
    rw [hparts] at h
    cases h
  | ok parts =>
    rw [hparts] at h
    cases h
    rw [String.toList_ofList]
    exact infix_markup hparts hmem hown

end View

/-! ## The input for a whole number -/

/-- No character of a number has to be escaped. -/
theorem Html.escapeChar_of_isNumeralChar {c : Char} (h : isNumeralChar c = true) : escapeChar c = [c] := by
  have hne {d : Char} (hd : isNumeralChar d = false) : c ≠ d := by
    rintro rfl
    rw [h] at hd
    cases hd
  rw [escapeChar, if_neg (hne (by decide)), if_neg (hne (by decide)), if_neg (hne (by decide)),
    if_neg (hne (by decide)), if_neg (hne (by decide))]

theorem Html.escape_intText (n : Int) : escape (intText n) = (intText n).toList := by
  have hplain : ∀ c ∈ (intText n).toList, escapeChar c = [c] :=
    fun c hc => escapeChar_of_isNumeralChar (isNumeralChar_of_parse? (parse?_intText n) c hc)
  rw [escape, List.flatMap_congr hplain, List.flatMap_singleton']

/-- The input of a widget for numbers that shows a whole number. -/
def Binding.numberInput (b : Binding) (n : Int) : Markup :=
  .void "input" (attr "type" "number" :: attr "step" "1" :: attr "value" (intText n) :: b.commonAttributes)

/-- A widget for numbers shows the whole number with all its digits. -/
theorem Widget.markup_of_int {w : Widget} {n : Int} (hclass : w.cls = .number)
    (htype : w.binding.field.property.type = .integer) (hvalue : w.binding.value = .int n)
    (hshort : (Value.int n).Short) :
    w.markup = .ok (w.framed (w.binding.labelMarkup ++ [w.binding.numberInput n])) := by
  have hstep : w.binding.step = "1" := if_pos htype
  have hinput : w.binding.inputMarkup [attr "type" "number", attr "step" w.binding.step] =
      .ok (w.binding.numberInput n) := by
    rw [Binding.inputMarkup, hvalue, displayValue_int hshort, hstep]
    rfl
  rw [Widget.markup, hclass]
  dsimp only
  rw [hinput]
  rfl

/-! ## The text of a whole number -/

section

variable {p : Property} {schema : Schema} {name : String} {n : Int}

theorem Property.accepts_intText (htype : p.type = .integer) (hopen : p.isClosedChoice = false)
    (hshort : (Value.int n).Short) (required : Bool) :
    p.violation? required (.text (intText n)) = none := by
  rw [Value.Short] at hshort
  have hread : p.type.convert? (.text (intText n)) = some (.int n) := by
    rw [htype, PropertyType.convert?, PropertyType.convertInteger?, typedInteger?_intText hshort]
    rfl
  have hnumeric : p.type.isNumeric = true := by rw [htype]; rfl
  rw [Property.violation?_eq, PropertyType.ne_empty_of_convert? hnumeric hread, hread, hopen]
  rfl

theorem Schema.coerce_intText {values : OrderedMap Value} (hdeclared : schema.property? name = some p)
    (htype : p.type = .integer) (hshort : (Value.int n).Short)
    (hstored : values.get? name = some (.text (intText n))) :
    (schema.coerce values).get? name = some (.int n) := by
  rw [Value.Short] at hshort
  have hread : p.number? (.text (intText n)) = some (.int n) := by
    have hnumeric : p.isNumeric = true := by rw [Property.isNumeric, htype]; rfl
    rw [Property.number?, if_pos hnumeric, htype]
    exact readNumber?_true_intText hshort
  exact (get?_coerce_eq_number_iff hdeclared hstored).mpr hread

end

/-! ## There and back -/

/-- A number is shown by the widget for numbers, unless its control asks for something else. -/
theorem Field.kind_of_numeric {field : Field} (hnumeric : field.property.isNumeric = true)
    (hopen : field.property.isClosedChoice = false)
    (hplain : ∀ options ∈ field.options, options.format? = none ∧ options.wantsLines = false) :
    field.kind = Kind.number.name := by
  have hproperty : propertyKind field.property = .number := by
    rw [propertyKind, hopen]
    cases htype : field.property.type with
    | number => rfl
    | integer => rfl
    | string => rw [Property.isNumeric, htype] at hnumeric; cases hnumeric
    | boolean => rw [Property.isNumeric, htype] at hnumeric; cases hnumeric
  rw [kind]
  cases hoptions : field.options with
  | none => exact congrArg Kind.name hproperty
  | some options =>
    obtain ⟨hformat, hlines⟩ := hplain options hoptions
    rw [Option.bind_some, hformat]
    dsimp only
    rw [Option.any_some, hlines]
    exact congrArg Kind.name hproperty

/-- The field of a control for a declared property. -/
theorem Control.exists_field {schema : Schema} {p : Property} (control : Control)
    (hdeclared : schema.property? control.propertyName = some p) :
    ∃ field, control.field? schema = some field ∧ field.name = control.propertyName ∧ field.property = p ∧
      field.options = control.options :=
  ⟨_, by rw [field?, hdeclared, Option.map_some], rfl, rfl, rfl⟩

namespace Form

variable {f : Form} {name : String} {p : Property} {n : Int}

/-- A widget for the name shows the value that the form holds, for the property that the schema declares. -/
theorem binding_of_mem_widgets {view : View} {w : Widget} (hdeclared : f.schema.property? name = some p)
    (hview : f.view = .ok view) (hmem : w ∈ view.widgets) (hname : w.binding.name = name) :
    w.binding.field.property = p ∧ w.binding.value = f.store.value name := by
  obtain ⟨body, hbody, h⟩ := exists_of_bind_ok hview
  cases h
  obtain ⟨control, -, field, hfield, -, hbinding⟩ := Context.mem_widgets hbody hmem
  rw [hbinding] at hname ⊢
  obtain rfl : field.name = name := hname
  exact ⟨Option.some.inj ((Control.property?_of_field? hfield).symm.trans hdeclared), rfl⟩

/-- The input of such a widget has the whole number in it, and the HTML of the form has the input. -/
theorem markup_of_mem_widgets {view : View} {w : Widget} (hdeclared : f.schema.property? name = some p)
    (htype : p.type = .integer) (hheld : f.store.value name = .int n) (hshort : (Value.int n).Short)
    (hview : f.view = .ok view) (hmem : w ∈ view.widgets) (hname : w.binding.name = name)
    (hclass : w.cls = .number) :
    w.markup = .ok (w.framed (w.binding.labelMarkup ++ [w.binding.numberInput n])) ∧
      ∀ html, view.toHtml = .ok html → (w.binding.numberInput n).write <:+: html.toList := by
  obtain ⟨hproperty, hvalue⟩ := binding_of_mem_widgets hdeclared hview hmem hname
  have hmarkup := Widget.markup_of_int hclass (hproperty ▸ htype) (hvalue.trans hheld) hshort
  refine ⟨hmarkup, fun html hhtml => List.IsInfix.trans ?_ (View.infix_toHtml hhtml hmem hmarkup)⟩
  have hwhole : Markup.writeAll [w.binding.numberInput n] = (w.binding.numberInput n).write := by
    rw [Markup.writeAll, Markup.writeAll_nil, List.append_nil]
  have hinput : (w.binding.numberInput n).write <:+: Markup.writeAll [w.binding.numberInput n] :=
    hwhole ▸ List.infix_rfl
  exact infix_writeAll_element _ _ (infix_writeAll_append_left (infix_writeAll_append_right hinput))

/-- With the standard registry a control for a number has a widget for numbers, unless it asks for another. -/
theorem exists_number_widget (hregistry : f.registry = .standard) {control : Control}
    (hcontrol : control ∈ f.layout.controls)
    (hdeclared : f.schema.property? control.propertyName = some p) (hnumeric : p.isNumeric = true)
    (hopen : p.isClosedChoice = false)
    (hplain : ∀ options ∈ control.options, options.format? = none ∧ options.wantsLines = false) :
    ∃ view w, f.view = .ok view ∧ w ∈ view.widgets ∧ w.binding.name = control.propertyName ∧
      w.cls = .number := by
  obtain ⟨view, hview, hwidgets⟩ := f.exists_view hregistry
  obtain ⟨field, hfield, hname, hproperty, hoptions⟩ := control.exists_field hdeclared
  refine ⟨view, f.context.drawn field, hview, ?_, hname, ?_⟩
  · rw [hwidgets]
    exact List.mem_filterMap.mpr ⟨control, hcontrol, by rw [hfield]; rfl⟩
  · subst hproperty
    exact congrArg Registry.standardClass (Field.kind_of_numeric hnumeric hopen (hoptions ▸ hplain))

/-- **A whole number that is shown comes back as it was.** Whatever else is in a form, a whole number that
it holds for a property without choices stands with all its digits in the input of every widget for numbers
that shows the property, and in the HTML of the form; with the standard registry a control has such a widget
if it does not ask for another. If that text is written to the form again, no rule is broken and no message
is left, and what the form hands on then is the whole number itself. A negative number may have as many
digits as any other, since the sign is none of them. -/
theorem whole_number_returns (hdeclared : f.schema.property? name = some p) (htype : p.type = .integer)
    (hopen : p.isClosedChoice = false) (hheld : f.store.value name = .int n)
    (hshort : (Value.int n).Short) :
    (∀ view w, f.view = .ok view → w ∈ view.widgets → w.binding.name = name → w.cls = .number →
      w.markup = .ok (w.framed (w.binding.labelMarkup ++ [w.binding.numberInput n])) ∧
        ∀ html, view.toHtml = .ok html → (w.binding.numberInput n).write <:+: html.toList) ∧
    (attr "value" (intText n)).write = " value=\x22".toList ++ (intText n).toList ++ "\x22".toList ∧
    (f.registry = .standard → ∀ control ∈ f.layout.controls, control.propertyName = name →
      (∀ options ∈ control.options, options.format? = none ∧ options.wantsLines = false) →
        ∃ view w, f.view = .ok view ∧ w ∈ view.widgets ∧ w.binding.name = name ∧ w.cls = .number) ∧
    let t := (f.store.setValue name (.text (intText n))).store
    t.value name = .text (intText n) ∧
      f.schema.violation? name (.text (intText n)) = none ∧ t.message? name = none ∧
      (f.schema.coerce t.values).get? name = some (.int n) := by
  -- the number is held under a declared name, so it can be written to
  have hname : name ∈ f.store.schema.names :=
    OrderedMap.mem_keys_iff.mpr (Option.isSome_of_eq_some hdeclared)
  have hnumeric : p.isNumeric = true := by rw [Property.isNumeric, htype]; rfl
  have hstored : (f.store.written name (.text (intText n))).values.get? name =
      some (.text (intText n)) :=
    (OrderedMap.get?_insert f.store.values name name _).trans (if_pos rfl)
  have haccepted : f.schema.violation? name (.text (intText n)) = none := by
    rw [Schema.violation?, hdeclared]
    exact Property.accepts_intText htype hopen hshort _
  refine ⟨fun view w hview hmem hbound hclass =>
      markup_of_mem_widgets hdeclared htype hheld hshort hview hmem hbound hclass, ?_,
    fun hregistry control hcontrol hbound hplain => ?_, ?_⟩
  · rw [Attribute.write]
    dsimp only [attr]
    rw [escape_intText]
    simp
  · subst hbound
    exact exists_number_widget hregistry hcontrol hdeclared hnumeric hopen hplain
  · dsimp only
    rw [Store.store_setValue hname]
    refine ⟨?_, haccepted, ?_, Schema.coerce_intText hdeclared htype hshort hstored⟩
    · rw [Store.value, Schema.valueIn, hstored]
      rfl
    · rw [Store.message?, Store.get?_errors_written, if_pos rfl]
      exact congrArg _ haccepted

/-- A form that holds a whole number of one binary digit more than the mantissa. -/
def ofLargeCount : Form :=
  .ofSchema {} measurements none { data := .ofList [("count", .int (-9007199254740993))] }

theorem whole_number_returns_large :
    ofLargeCount.schema.property? "count" = some { type := .integer } ∧
      ofLargeCount.store.value "count" = .int (-9007199254740993) ∧
      (Value.int (-9007199254740993)).Short ∧
      intText (-9007199254740993) = "-9007199254740993" ∧
      (∃ view w, ofLargeCount.view = .ok view ∧ w ∈ view.widgets ∧ w.binding.name = "count" ∧
        w.markup = .ok (w.framed (w.binding.labelMarkup ++ [w.binding.numberInput (-9007199254740993)]))) ∧
      measurements.violation? "count" (.text "-9007199254740993") = none ∧
      (measurements.coerce
        (ofLargeCount.store.setValue "count" (.text "-9007199254740993")).store.values).get? "count" =
          some (.int (-9007199254740993)) := by
  have hshort : (Value.int (-9007199254740993)).Short := by
    rw [Value.Short]
    decide
  have htext : intText (-9007199254740993) = "-9007199254740993" := by decide
  have hcontrols : ofLargeCount.layout.controls =
      [⟨Scope.ofName "count", .unset, none⟩, ⟨Scope.ofName "weight", .unset, none⟩] := rfl
  have hdeclared : ofLargeCount.schema.property? "count" = some { type := .integer } := rfl
  obtain ⟨hshown, -, hexists, -, haccepted, -, hreturned⟩ :=
    whole_number_returns hdeclared rfl rfl rfl hshort
  obtain ⟨view, w, hview, hmem, hname, hclass⟩ :=
    hexists rfl ⟨Scope.ofName "count", .unset, none⟩ (hcontrols ▸ List.mem_cons_self ..) (by decide) nofun
  rw [htext] at haccepted hreturned
  exact ⟨hdeclared, rfl, hshort, htext, ⟨view, w, hview, hmem, hname, (hshown view w hview hmem hname hclass).1⟩,
    haccepted, hreturned⟩

end Form

end SchemaForm
