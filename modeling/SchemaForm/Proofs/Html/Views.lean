import SchemaForm.Html
import SchemaForm.Proofs.Html.Tidy

/-!
# The HTML of views

Names, labels, values and messages may be any texts. This module says that none of them can change what
the HTML of a view is made of: the tags are those of the view, and every text and every value of an
attribute is found in it as it was given.

* `View.Plain` — views without parts of a host, of which all whole numbers can be displayed;
* `View.texts`, `View.attributeValues` — what is to be found in the HTML, in order;
* `Shape` — a view without the contents of its texts; `Shape.outline` — its tags;
* `toHtml_of_plain` — the HTML of a plain view.
-/

namespace SchemaForm

open Html

/-! ## Plain views -/

namespace Value

mutual

/-- No whole number in the value has more than `maxDigits` digits. -/
def Short : Value → Prop
  | .int n => (Nat.toDigits 10 n.natAbs).length ≤ maxDigits
  | .list items => ShortItems items
  | .object members => ShortMembers members
  | _ => True

/-- The same of the parts of a list. -/
def ShortItems : List Value → Prop
  | [] => True
  | v :: rest => Short v ∧ ShortItems rest

/-- The same of the members of an object. -/
def ShortMembers : List (String × Value) → Prop
  | [] => True
  | (_, v) :: rest => Short v ∧ ShortMembers rest

end

mutual

theorem exists_displayInside : ∀ {v : Value}, v.Short → ∃ text, v.displayInside = .ok text
  | .null, _ => ⟨_, by rw [displayInside]⟩
  | .bool _, _ => ⟨_, by rw [displayInside]⟩
  | .int n, h => by
    rw [Short] at h
    exact ⟨intText n, by rw [displayInside, displayInt, if_pos h]⟩
  | .float _, _ => ⟨_, by rw [displayInside]⟩
  | .text _, _ => ⟨_, by rw [displayInside]⟩
  | .list items, h => by
    rw [Short] at h
    obtain ⟨texts, htexts⟩ := exists_displayItems h
    exact ⟨_, by rw [displayInside, htexts]; rfl⟩
  | .object members, h => by
    rw [Short] at h
    obtain ⟨texts, htexts⟩ := exists_displayMembers h
    exact ⟨_, by rw [displayInside, htexts]; rfl⟩

theorem exists_displayItems :
    ∀ {items : List Value}, ShortItems items → ∃ texts, displayItems items = .ok texts
  | [], _ => ⟨[], by rw [displayItems]⟩
  | v :: rest, h => by
    rw [ShortItems] at h
    obtain ⟨text, htext⟩ := exists_displayInside h.1
    obtain ⟨texts, htexts⟩ := exists_displayItems h.2
    exact ⟨_, by rw [displayItems, htext, htexts]; rfl⟩

theorem exists_displayMembers :
    ∀ {members : List (String × Value)}, ShortMembers members →
      ∃ texts, displayMembers members = .ok texts
  | [], _ => ⟨[], by rw [displayMembers]⟩
  | (name, v) :: rest, h => by
    rw [ShortMembers] at h
    obtain ⟨text, htext⟩ := exists_displayInside h.1
    obtain ⟨texts, htexts⟩ := exists_displayMembers h.2
    exact ⟨_, by rw [displayMembers, htext, htexts]; rfl⟩

end

/-- A value that is short has a text. -/
theorem exists_display {v : Value} (h : v.Short) : ∃ text, v.display = .ok text := by
  cases v with
  | text s => exact ⟨s, rfl⟩
  | _ => exact exists_displayInside h

end Value

/-- The text of a value in a widget, or nothing if it has none. -/
def Html.shownValue (v : Value) : String := (displayValue v).toOption.getD ""

theorem Html.displayValue_of_short {v : Value} (h : v.Short) :
    displayValue v = .ok (shownValue v) := by
  suffices hshown : ∃ text, displayValue v = .ok text by
    obtain ⟨text, htext⟩ := hshown
    rw [shownValue, htext]
    rfl
  obtain ⟨text, htext⟩ := Value.exists_display h
  cases v with
  | null => exact ⟨"", rfl⟩
  | _ => exact ⟨text, congrArg (Except.mapError Failure.undisplayable) htext⟩

/-- All whole numbers that a widget may show can be displayed. -/
structure Binding.Short (b : Binding) : Prop where
  value : b.value.Short
  rows : (Value.int b.rows).Short
  choices : ∀ choice ∈ b.field.property.choiceList, choice.value.Short

/-- The widget is a built-in one, and its whole numbers can be displayed. -/
def Widget.Plain (w : Widget) : Prop := w.cls.isBuiltIn = true ∧ w.binding.Short

namespace View

mutual

/-- The view has no parts of a host, and its whole numbers can be displayed. -/
def Plain : View → Prop
  | .form title body actions => Plain title ∧ Plain body ∧ PlainAll actions
  | .stack _ children => PlainAll children
  | .fieldset _ content => Plain content
  | .widget w => w.Plain
  | .custom _ => False
  | .unknown _ => False
  | _ => True

/-- The same of several views. -/
def PlainAll : List View → Prop
  | [] => True
  | view :: rest => Plain view ∧ PlainAll rest

end

end View

/-! ## What is to be found -/

namespace Choice

/-- The text that is shown for the choice, or nothing if it has none. -/
def shownText (choice : Choice) : String := choice.shown.toOption.getD ""

end Choice

namespace Binding

/-- The choices of the property. -/
def choiceList (b : Binding) : List Choice := b.field.property.choiceList

/-- The texts of the label. -/
def labelTexts (b : Binding) : List String :=
  if b.field.hasLabel then b.field.label :: (if b.field.required then ["*"] else []) else []

/-- The values of attributes in the label. -/
def labelValues (b : Binding) : List String :=
  if b.field.hasLabel then b.name :: (if b.field.required then ["required"] else []) else []

/-- The values of attributes in the message. -/
def errorValues (b : Binding) : List String := if b.visibleError.isSome then ["field-error"] else []

end Binding

namespace Widget

/-- The texts between the tags of the input. -/
def inputTexts (w : Widget) : List String :=
  match w.cls with
  | .textarea => [shownValue w.binding.value]
  | .select => "Select..." :: w.binding.choiceList.map Choice.shownText
  | _ => []

/-- The values of attributes in the input. -/
def inputValues (w : Widget) : List String :=
  let b := w.binding
  match w.cls with
  | .text => [b.inputType, shownValue b.value, b.name, b.name]
  | .number => ["number", b.step, shownValue b.value, b.name, b.name]
  | .textarea => [shownValue (.int b.rows), b.name, b.name]
  | .select => b.name :: b.name :: "" :: b.choiceList.map fun choice => shownValue choice.value
  | .checkbox => ["checkbox", b.name, b.name]
  | .host _ => []

/-- All texts of the widget. -/
def texts (w : Widget) : List String :=
  match w.cls with
  | .checkbox => w.inputTexts ++ w.binding.labelTexts ++ w.binding.visibleError.toList
  | _ => w.binding.labelTexts ++ w.inputTexts ++ w.binding.visibleError.toList

/-- The values of all attributes of the widget. -/
def attributeValues (w : Widget) : List String :=
  ("field field-" ++ w.cls.component) ::
    match w.cls with
    | .checkbox => w.inputValues ++ w.binding.labelValues ++ w.binding.errorValues
    | _ => w.binding.labelValues ++ w.inputValues ++ w.binding.errorValues

end Widget

namespace View

mutual

/-- The texts of a view, in the order in which they are shown. -/
def texts : View → List String
  | .form title body actions => texts title ++ texts body ++ textsOfAll actions
  | .stack _ children => textsOfAll children
  | .fieldset legend content => legend :: texts content
  | .caption text => [text]
  | .heading text => [text]
  | .button label _ _ => [label]
  | .widget w => w.texts
  | _ => []

/-- The texts of several views. -/
def textsOfAll : List View → List String
  | [] => []
  | view :: rest => texts view ++ textsOfAll rest

end

/-- The values of the attributes of the frame that a child of a stack has. -/
def cellValues : Direction → List String
  | .vertical => []
  | .horizontal => ["flex-1"]

mutual

/-- The values of the attributes of a view, in the order in which they are written. -/
def attributeValues : View → List String
  | .form title body actions =>
    attributeValues title ++ attributeValues body ++
      match actions with
      | [] => []
      | action :: rest =>
        "form-actions" :: (attributeValues action ++ attributeValuesOfAll .vertical rest)
  | .stack direction children => stackClass direction :: attributeValuesOfAll direction children
  | .fieldset _ content => attributeValues content
  | .caption _ => ["label"]
  | .button _ kind _ => [kind]
  | .widget w => w.attributeValues
  | _ => []

/-- The values of the attributes of the children of a stack. -/
def attributeValuesOfAll (direction : Direction) : List View → List String
  | [] => []
  | view :: rest => cellValues direction ++ attributeValues view ++ attributeValuesOfAll direction rest

end

end View

/-! ## Shapes -/

/-- A widget without the contents of its texts. -/
structure WidgetShape where
  cls : WidgetClass
  hasLabel : Bool
  required : Bool
  hasMessage : Bool
  /-- Whether a box is checked. -/
  checked : Bool
  /-- Which of the choices of a list are the current ones. -/
  selected : List Bool

namespace WidgetShape

/-- A flag that is there or not. -/
def flagName (name : String) (present : Bool) : List String := if present then [name] else []

/-- The names of the attributes that every input has. -/
def commonNames (w : WidgetShape) : List String := "id" :: "name" :: flagName "required" w.required

/-- The tags of the label. -/
def labelOutline (w : WidgetShape) : List Mark :=
  if w.hasLabel then
    .opening "label" ["for"] ::
      ((if w.required then [.opening "span" ["class"], .closing "span"] else []) ++ [.closing "label"])
  else []

/-- The tags of the message. -/
def messageOutline (w : WidgetShape) : List Mark :=
  if w.hasMessage then [.opening "p" ["class"], .closing "p"] else []

/-- The tags of one of the values to choose from. -/
def optionOutline (selected : Bool) : List Mark :=
  [.opening "option" ("value" :: flagName "selected" selected), .closing "option"]

/-- The tags of the input. -/
def inputOutline (w : WidgetShape) : List Mark :=
  match w.cls with
  | .text => [.opening "input" ("type" :: "value" :: w.commonNames)]
  | .number => [.opening "input" ("type" :: "step" :: "value" :: w.commonNames)]
  | .textarea => [.opening "textarea" ("rows" :: w.commonNames), .closing "textarea"]
  | .select =>
    .opening "select" w.commonNames ::
      (optionOutline false ++ w.selected.flatMap optionOutline ++ [.closing "select"])
  | .checkbox => [.opening "input" ("type" :: (flagName "checked" w.checked ++ w.commonNames))]
  | .host _ => []

/-- The tags of the widget. -/
def outline (w : WidgetShape) : List Mark :=
  let content :=
    match w.cls with
    | .checkbox => w.inputOutline ++ w.labelOutline
    | _ => w.labelOutline ++ w.inputOutline
  .opening "div" ["class"] :: (content ++ w.messageOutline ++ [.closing "div"])

end WidgetShape

/-- A view without the contents of its texts. -/
inductive Shape where
  | nothing
  | form (title body : Shape) (actions : List Shape)
  | stack (direction : Direction) (children : List Shape)
  | fieldset (content : Shape)
  | caption
  | heading
  | button (disabled : Bool)
  | widget (w : WidgetShape)

namespace Shape

/-- A child of a horizontal stack has a frame. -/
def cellOutline : Direction → List Mark → List Mark
  | .vertical, content => content
  | .horizontal, content => .opening "div" ["class"] :: (content ++ [.closing "div"])

mutual

/-- The tags of a view of that shape. -/
def outline : Shape → List Mark
  | .nothing => []
  | .form title body actions =>
    .opening "form" ["novalidate"] :: (outline title ++ outline body ++
      (match actions with
        | [] => []
        | action :: rest => .opening "div" ["class"] ::
          (outline action ++ outlineOfAll .vertical rest ++ [.closing "div"])) ++
      [.closing "form"])
  | .stack direction children =>
    .opening "div" ["class"] :: (outlineOfAll direction children ++ [.closing "div"])
  | .fieldset content =>
    .opening "fieldset" [] :: .opening "legend" [] :: .closing "legend" ::
      (outline content ++ [.closing "fieldset"])
  | .caption => [.opening "p" ["class"], .closing "p"]
  | .heading => [.opening "h2" [], .closing "h2"]
  | .button disabled =>
    [.opening "button" ("type" :: WidgetShape.flagName "disabled" disabled), .closing "button"]
  | .widget w => w.outline

/-- The tags of the children of a stack. -/
def outlineOfAll (direction : Direction) : List Shape → List Mark
  | [] => []
  | shape :: rest => cellOutline direction (outline shape) ++ outlineOfAll direction rest

end

end Shape

/-- The widget without the contents of its texts. -/
def Widget.shape (w : Widget) : WidgetShape where
  cls := w.cls
  hasLabel := w.binding.field.hasLabel
  required := w.binding.field.required
  hasMessage := w.binding.visibleError.isSome
  checked := match w.cls with
    | .checkbox => w.binding.checked
    | _ => false
  selected := match w.cls with
    | .select => w.binding.choiceList.map fun choice => w.binding.selects choice.value
    | _ => []

namespace View

mutual

/-- The view without the contents of its texts. -/
def shape : View → Shape
  | .form title body actions => .form (shape title) (shape body) (shapes actions)
  | .stack direction children => .stack direction (shapes children)
  | .fieldset _ content => .fieldset (shape content)
  | .caption _ => .caption
  | .heading _ => .heading
  | .button _ _ disabled => .button disabled
  | .widget w => .widget w.shape
  | _ => .nothing

/-- Several views without the contents of their texts. -/
def shapes : List View → List Shape
  | [] => []
  | view :: rest => shape view :: shapes rest

end

end View

/-! ## Markup of known contents -/

namespace Html

/-- The markup is tidy, and these are its texts, the values of its attributes, and its tags. -/
structure Shows (lead : Bool) (parts : List Markup) (texts values : List String) (marks : List Mark) :
    Prop where
  tidy : Tidy lead parts
  texts_eq : Markup.textsOfAll parts = texts
  values_eq : Markup.valuesOfAll parts = values
  outline_eq : outline (Markup.tokensOfAll parts) = marks

namespace Shows

variable {lead : Bool} {parts others : List Markup} {texts values moreTexts moreValues : List String}
  {marks moreMarks : List Mark} {tag : String} {attributes : List Attribute}

theorem nil : Shows lead [] [] [] [] := ⟨.nil, rfl, rfl, rfl⟩

theorem append (h : Shows lead parts texts values marks)
    (hothers : Shows false others moreTexts moreValues moreMarks) :
    Shows lead (parts ++ others) (texts ++ moreTexts) (values ++ moreValues) (marks ++ moreMarks) where
  tidy := h.tidy.append hothers.tidy
  texts_eq := by rw [Markup.textsOfAll_append, h.texts_eq, hothers.texts_eq]
  values_eq := by rw [Markup.valuesOfAll_append, h.values_eq, hothers.values_eq]
  outline_eq := by
    rw [Markup.tokensOfAll_append, outline_append, h.outline_eq, hothers.outline_eq]

theorem text (s : String) (h : Shows false parts texts values marks) :
    Shows true (.text s :: parts) (s :: texts) values marks where
  tidy := .text h.tidy
  texts_eq := by simp [Markup.textsOfAll, Markup.texts, h.texts_eq]
  values_eq := by simp [Markup.valuesOfAll, Markup.values, h.values_eq]
  outline_eq := by simp [Markup.tokensOfAll, Markup.tokens, h.outline_eq]

theorem element (htag : isName tag = true) (hfull : isVoid tag = false)
    (hattributes : ∀ a ∈ attributes, isName a.name = true)
    (h : Shows true parts texts values marks) :
    Shows lead [.element tag attributes parts] texts (attributes.filterMap Attribute.value ++ values)
      (.opening tag (attributes.map Attribute.name) :: (marks ++ [.closing tag])) where
  tidy := .element htag hfull hattributes h.tidy .nil
  texts_eq := by simp [Markup.textsOfAll, Markup.texts, h.texts_eq]
  values_eq := by simp [Markup.valuesOfAll, Markup.values, h.values_eq]
  outline_eq := by
    simp [Markup.tokensOfAll, Markup.tokens, outline, h.outline_eq, Attribute.raw, Function.comp_def]

theorem void (htag : isName tag = true) (hvoid : isVoid tag = true)
    (hattributes : ∀ a ∈ attributes, isName a.name = true) :
    Shows lead [.void tag attributes] [] (attributes.filterMap Attribute.value)
      [.opening tag (attributes.map Attribute.name)] where
  tidy := .void htag hvoid hattributes .nil
  texts_eq := by simp [Markup.textsOfAll, Markup.texts]
  values_eq := by simp [Markup.valuesOfAll, Markup.values]
  outline_eq := by
    simp [Markup.tokensOfAll, Markup.tokens, outline, Attribute.raw, Function.comp_def]

theorem leading (h : Shows false parts texts values marks) : Shows true parts texts values marks :=
  ⟨h.tidy.leading, h.texts_eq, h.values_eq, h.outline_eq⟩

end Shows

end Html

/-! ## Widgets -/

theorem mapM_eq_ok {α β ε : Type} {f : α → Except ε β} {g : α → β} {items : List α}
    (h : ∀ a ∈ items, f a = .ok (g a)) : items.mapM f = .ok (items.map g) := by
  induction items with
  | nil => rfl
  | cons a rest ih =>
    rw [List.mapM_cons, h a (List.mem_cons_self ..), ih fun b hmem => h b (List.mem_cons_of_mem _ hmem)]
    rfl

namespace Binding

variable (b : Binding)

theorem isName_commonAttributes : ∀ a ∈ b.commonAttributes, isName a.name = true := by
  unfold commonAttributes flag
  cases b.field.required <;> simp +decide [attr]

theorem shows_labelMarkup :
    Shows false b.labelMarkup b.labelTexts b.labelValues
      (if b.field.hasLabel then
        .opening "label" ["for"] ::
          ((if b.field.required then [.opening "span" ["class"], .closing "span"] else []) ++
            [.closing "label"])
      else []) := by
  unfold labelMarkup labelTexts labelValues
  cases b.field.hasLabel with
  | false => exact .nil
  | true =>
    cases b.field.required with
    | false => exact .element (by decide) (by decide) (by simp +decide [attr]) (.text _ .nil)
    | true =>
      -- the star is the only element in a label
      have hstar : Shows false [.element "span" [attr "class" "required"] [.text "*"]] ["*"]
          ["required"] [.opening "span" ["class"], .closing "span"] :=
        .element (by decide) (by decide) (by simp +decide) (.text _ .nil)
      exact .element (by decide) (by decide) (by simp +decide [attr]) (.text _ hstar)

theorem shows_errorMarkup :
    Shows false b.errorMarkup b.visibleError.toList b.errorValues
      (if b.visibleError.isSome then [.opening "p" ["class"], .closing "p"] else []) := by
  unfold errorMarkup errorValues
  cases b.visibleError with
  | none => exact .nil
  | some message => exact .element (by decide) (by decide) (by simp +decide) (.text _ .nil)

variable {b} {w : Widget}

/-- The names of the attributes that every input has. -/
theorem map_name_commonAttributes (w : Widget) :
    w.binding.commonAttributes.map Attribute.name = w.shape.commonNames := by
  unfold commonAttributes flag WidgetShape.commonNames WidgetShape.flagName
  cases hrequired : w.binding.field.required <;> simp [Widget.shape, hrequired, attr]

theorem filterMap_value_commonAttributes :
    b.commonAttributes.filterMap Attribute.value = [b.name, b.name] := by
  unfold commonAttributes flag
  cases b.field.required <;> simp [attr]

theorem choices_of_short (h : ∀ choice ∈ b.choiceList, choice.value.Short) :
    b.choices = .ok (b.choiceList.map fun choice => (choice.value, choice.shownText)) := by
  refine mapM_eq_ok fun choice hmem => ?_
  have hshown : choice.shown = .ok choice.shownText := by
    unfold Choice.shownText Choice.shown
    cases choice.label with
    | some label => rfl
    | none =>
      obtain ⟨text, htext⟩ := Value.exists_display (h choice hmem)
      simp only [htext]
      rfl
  rw [hshown]
  rfl

/-- One of the values to choose from, whose text is known. -/
def shownOption (b : Binding) (choice : Choice) : Markup :=
  .element "option" (attr "value" (shownValue choice.value) :: flag "selected" (b.selects choice.value))
    [.text choice.shownText]

theorem selectMarkup_of_short (h : ∀ choice ∈ b.choiceList, choice.value.Short) :
    b.selectMarkup = .ok (.element "select" b.commonAttributes
      (.element "option" [attr "value" ""] [.text "Select..."] :: b.choiceList.map b.shownOption)) := by
  have hoptions : (b.choiceList.map fun choice => (choice.value, choice.shownText)).mapM b.optionMarkup =
      .ok (b.choiceList.map b.shownOption) := by
    rw [List.mapM_map]
    refine mapM_eq_ok fun choice hmem => ?_
    rw [Function.comp_apply, optionMarkup, displayValue_of_short (h choice hmem)]
    rfl
  have hchoices : b.choices.mapError Failure.undisplayable =
      .ok (b.choiceList.map fun choice => (choice.value, choice.shownText)) := by
    rw [choices_of_short h]
    rfl
  simp only [selectMarkup, hchoices, bind, Except.bind, hoptions]
  rfl

end Binding

namespace Widget

variable {w : Widget}

/-- The frame of a widget around its input, its label and its message. -/
theorem shows_framed {content : List Markup} {texts values : List String} {marks : List Mark}
    (h : Shows false content texts values marks) :
    Shows false (w.framed content) (texts ++ w.binding.visibleError.toList)
      (("field field-" ++ w.cls.component) :: (values ++ w.binding.errorValues))
      (.opening "div" ["class"] :: (marks ++ w.shape.messageOutline ++ [.closing "div"])) :=
  .element (by decide) (by decide) (by simp +decide [attr])
    (h.append w.binding.shows_errorMarkup).leading

/-- An input without content. -/
theorem shows_input (w : Widget) (front : List Attribute) (hfront : ∀ a ∈ front, isName a.name = true) :
    Shows false [.void "input" (front ++ w.binding.commonAttributes)] []
      (front.filterMap Attribute.value ++ [w.binding.name, w.binding.name])
      [.opening "input" (front.map Attribute.name ++ w.shape.commonNames)] := by
  have hattributes : ∀ a ∈ front ++ w.binding.commonAttributes, isName a.name = true := by
    intro a hmem
    rcases List.mem_append.mp hmem with hmem | hmem
    · exact hfront a hmem
    · exact w.binding.isName_commonAttributes a hmem
  have htag : isName "input" = true := by decide
  have h : Shows false _ _ _ _ := .void htag rfl hattributes
  rwa [List.filterMap_append, List.map_append, Binding.filterMap_value_commonAttributes,
    Binding.map_name_commonAttributes] at h

theorem shows_option (b : Binding) (choice : Choice) :
    Shows false [b.shownOption choice] [choice.shownText] [shownValue choice.value]
      (WidgetShape.optionOutline (b.selects choice.value)) := by
  unfold Binding.shownOption flag WidgetShape.optionOutline WidgetShape.flagName
  cases b.selects choice.value <;>
    exact .element (by decide) (by decide) (by simp +decide [attr]) (.text _ .nil)

theorem shows_options (b : Binding) (choices : List Choice) :
    Shows false (choices.map b.shownOption) (choices.map Choice.shownText)
      (choices.map fun choice => shownValue choice.value)
      ((choices.map fun choice => b.selects choice.value).flatMap WidgetShape.optionOutline) := by
  induction choices with
  | nil => exact .nil
  | cons choice rest ih => exact (shows_option b choice).append ih

theorem shows_select (b : Binding) :
    Shows false
      [.element "select" b.commonAttributes
        (.element "option" [attr "value" ""] [.text "Select..."] :: b.choiceList.map b.shownOption)]
      (inputTexts ⟨.select, b⟩) (inputValues ⟨.select, b⟩) (shape ⟨.select, b⟩).inputOutline := by
  have hfirst : Shows true [.element "option" [attr "value" ""] [.text "Select..."]] ["Select..."] [""]
      (WidgetShape.optionOutline false) :=
    .element (by decide) (by decide) (by simp +decide) (.text _ .nil)
  have htag : isName "select" = true := by decide
  have h : Shows false _ _ _ _ := .element htag rfl b.isName_commonAttributes
    (hfirst.append (shows_options b b.choiceList))
  rwa [Binding.filterMap_value_commonAttributes, Binding.map_name_commonAttributes ⟨.select, b⟩] at h

theorem shows_textarea (b : Binding) :
    Shows false
      [.element "textarea" (attr "rows" (shownValue (.int b.rows)) :: b.commonAttributes)
        [.text (shownValue b.value)]]
      (inputTexts ⟨.textarea, b⟩) (inputValues ⟨.textarea, b⟩)
      (shape ⟨.textarea, b⟩).inputOutline := by
  have hattributes : ∀ a ∈ attr "rows" (shownValue (.int b.rows)) :: b.commonAttributes,
      isName a.name = true := by
    intro a hmem
    rcases List.mem_cons.mp hmem with rfl | hmem
    · have hrows : isName "rows" = true := by decide
      exact hrows
    · exact b.isName_commonAttributes a hmem
  have htag : isName "textarea" = true := by decide
  have h : Shows false _ _ _ _ := .element htag rfl hattributes (.text (shownValue b.value) .nil)
  rw [List.filterMap_cons, List.map_cons, Binding.filterMap_value_commonAttributes,
    Binding.map_name_commonAttributes ⟨.textarea, b⟩] at h
  exact h

theorem shows_checkbox (b : Binding) :
    Shows false [b.checkboxMarkup] [] (inputValues ⟨.checkbox, b⟩)
      (shape ⟨.checkbox, b⟩).inputOutline := by
  have h := shows_input ⟨.checkbox, b⟩ (attr "type" "checkbox" :: flag "checked" b.checked)
    (by unfold flag; cases b.checked <;> simp +decide)
  have hvalues : (attr "type" "checkbox" :: flag "checked" b.checked).filterMap Attribute.value =
      ["checkbox"] := by
    unfold flag
    cases b.checked <;> rfl
  have hnames : (attr "type" "checkbox" :: flag "checked" b.checked).map Attribute.name =
      "type" :: WidgetShape.flagName "checked" b.checked := by
    unfold flag WidgetShape.flagName
    cases b.checked <;> rfl
  rwa [hvalues, hnames] at h

/-- The markup of a built-in widget, with all that is to be found in it. -/
theorem shows_markup (h : w.Plain) :
    ∃ parts, w.markup = .ok parts ∧ Shows false parts w.texts w.attributeValues w.shape.outline := by
  obtain ⟨cls, b⟩ := w
  obtain ⟨hbuiltIn, hshort⟩ := h
  have hvalue := displayValue_of_short hshort.value
  have hlabel := b.shows_labelMarkup
  cases cls with
  | text =>
    have hinput := shows_input ⟨.text, b⟩
      [attr "type" b.inputType, attr "value" (shownValue b.value)] (by simp +decide [attr])
    refine ⟨_, ?_, shows_framed (w := ⟨.text, b⟩) (hlabel.append hinput)⟩
    simp only [markup, Binding.inputMarkup, hvalue]
    rfl
  | number =>
    have hinput := shows_input ⟨.number, b⟩
      [attr "type" "number", attr "step" b.step, attr "value" (shownValue b.value)]
      (by simp +decide [attr])
    refine ⟨_, ?_, shows_framed (w := ⟨.number, b⟩) (hlabel.append hinput)⟩
    simp only [markup, Binding.inputMarkup, hvalue]
    rfl
  | textarea =>
    refine ⟨_, ?_, shows_framed (w := ⟨.textarea, b⟩) (hlabel.append (shows_textarea b))⟩
    have hrows : display (.int b.rows) = .ok (shownValue (.int b.rows)) :=
      displayValue_of_short hshort.rows
    simp only [markup, Binding.textareaMarkup, hvalue, hrows]
    rfl
  | select =>
    refine ⟨_, ?_, shows_framed (w := ⟨.select, b⟩) (hlabel.append (shows_select b))⟩
    simp only [markup, b.selectMarkup_of_short hshort.choices, bind, Except.bind, pure, Except.pure]
  | checkbox =>
    exact ⟨_, rfl, shows_framed (w := ⟨.checkbox, b⟩) ((shows_checkbox b).append hlabel)⟩
  | host widget => cases hbuiltIn

end Widget

/-! ## Whole views -/

namespace View

/-- The frame of a child of a stack. -/
theorem shows_cell {content : List Markup} {texts values : List String} {marks : List Mark}
    (direction : Direction) (h : Shows false content texts values marks) :
    Shows false (cell direction content) texts (cellValues direction ++ values)
      (Shape.cellOutline direction marks) := by
  cases direction with
  | vertical => exact h
  | horizontal => exact .element (by decide) (by decide) (by simp +decide) h.leading

/-- The row of the buttons. -/
theorem shows_actionRow {content : List Markup} {texts values : List String} {marks : List Mark}
    (h : Shows false content texts values marks) :
    Shows false (actionRow content) texts ("form-actions" :: values)
      (.opening "div" ["class"] :: (marks ++ [.closing "div"])) :=
  .element (by decide) (by decide) (by simp +decide) h.leading

theorem shows_formElement {content : List Markup} {texts values : List String} {marks : List Mark}
    (h : Shows false content texts values marks) :
    Shows false [.element "form" [⟨"novalidate", none⟩] content] texts values
      (.opening "form" ["novalidate"] :: (marks ++ [.closing "form"])) :=
  .element (by decide) (by decide) (by simp +decide) h.leading

mutual

/-- The markup of a plain view, with all that is to be found in it. By induction on the view: each element
is put around the markup of its parts. -/
theorem shows_markup : ∀ {v : View}, v.Plain →
    ∃ parts, v.markup = .ok parts ∧ Shows false parts v.texts v.attributeValues v.shape.outline
  | .nothing, _ => ⟨[], by rw [markup]; rfl, .nil⟩
  | .form title body actions, h => by
    rw [Plain] at h
    obtain ⟨heading, hheading, htitle⟩ := shows_markup h.1
    obtain ⟨content, hcontent, hbody⟩ := shows_markup h.2.1
    cases actions with
    | nil =>
      refine ⟨_, by simp only [markup, hheading, hcontent]; rfl, ?_⟩
      simpa [texts, textsOfAll, attributeValues, shape, shapes, Shape.outline] using
        shows_formElement (htitle.append hbody)
    | cons action rest =>
      obtain ⟨_, _, hactions⟩ := h
      rw [PlainAll] at hactions
      obtain ⟨first, hfirst, haction⟩ := shows_markup hactions.1
      obtain ⟨others, hothers, hrest⟩ := shows_markupOfAll .vertical hactions.2
      refine ⟨_, by simp only [markup, hheading, hcontent, hfirst, hothers]; rfl, ?_⟩
      have hrow := shows_actionRow (haction.append hrest)
      simpa [texts, textsOfAll, attributeValues, shape, shapes, Shape.outline] using
        shows_formElement ((htitle.append hbody).append hrow)
  | .stack direction children, h => by
    rw [Plain] at h
    obtain ⟨content, hcontent, hchildren⟩ := shows_markupOfAll direction h
    refine ⟨_, by simp only [markup, hcontent]; rfl, ?_⟩
    rw [texts, attributeValues, shape, Shape.outline]
    exact .element (by decide) (by decide) (by simp +decide [attr]) hchildren.leading
  | .fieldset legend content, h => by
    rw [Plain] at h
    obtain ⟨inner, hinner, hcontent⟩ := shows_markup h
    refine ⟨_, by simp only [markup, hinner]; rfl, ?_⟩
    have hlegend : Shows true [.element "legend" [] [.text legend]] [legend] []
        [.opening "legend" [], .closing "legend"] :=
      .element (by decide) (by decide) (by simp) (.text _ .nil)
    rw [texts, attributeValues, shape, Shape.outline]
    exact .element (by decide) (by decide) (by simp) (hlegend.append hcontent)
  | .caption text, _ => by
    refine ⟨_, by rw [markup]; rfl, ?_⟩
    exact .element (by decide) (by decide) (by simp +decide) (.text _ .nil)
  | .heading text, _ => by
    refine ⟨_, by rw [markup]; rfl, ?_⟩
    exact .element (by decide) (by decide) (by simp) (.text _ .nil)
  | .button label kind disabled, _ => by
    refine ⟨_, by rw [markup]; rfl, ?_⟩
    cases disabled <;>
      exact .element (by decide) (by decide) (by simp +decide [attr, flag]) (.text _ .nil)
  | .widget w, h => by
    rw [Plain] at h
    obtain ⟨parts, hparts, hshows⟩ := Widget.shows_markup h
    exact ⟨parts, by rw [markup, hparts], hshows⟩
  | .custom _, h => by
    rw [Plain] at h
    exact h.elim
  | .unknown _, h => by
    rw [Plain] at h
    exact h.elim

/-- The same of the children of a stack. -/
theorem shows_markupOfAll (direction : Direction) : ∀ {children : List View}, PlainAll children →
    ∃ parts, markupOfAll direction children = .ok parts ∧
      Shows false parts (textsOfAll children) (attributeValuesOfAll direction children)
        (Shape.outlineOfAll direction (shapes children))
  | [], _ => ⟨[], by rw [markupOfAll]; rfl, .nil⟩
  | view :: rest, h => by
    rw [PlainAll] at h
    obtain ⟨first, hfirst, hview⟩ := shows_markup h.1
    obtain ⟨others, hothers, hrest⟩ := shows_markupOfAll direction h.2
    refine ⟨_, by simp only [markupOfAll, hfirst, hothers]; rfl, ?_⟩
    rw [textsOfAll, attributeValuesOfAll, shapes, Shape.outlineOfAll]
    exact (shows_cell direction hview).append hrest

end

end View

/-- **The texts of a view cannot change what its HTML is made of.** A plain view has HTML, and a reader of it
finds tags that are nested in the right way, and text and values of attributes that have no `<`, no `>` and
no quote in them. The texts of the view are what the runs of text stand for, but for those that are empty;
the values of its attributes are what the values in the tags stand for; and the tags with the names of their
attributes depend on the shape of the view alone. -/
theorem toHtml_of_plain {v : View} (h : v.Plain) :
    ∃ html tokens, v.toHtml = .ok html ∧ scan html = some tokens ∧ nested [] tokens = true ∧
      (∀ written ∈ runs tokens ++ rawValues tokens, Clean written) ∧
      (runs tokens).map unescape = (v.texts.filter (· ≠ "")).map String.toList ∧
      (rawValues tokens).map unescape = v.attributeValues.map String.toList ∧
      outline tokens = v.shape.outline := by
  obtain ⟨parts, hparts, htidy, htexts, hvalues, houtline⟩ := View.shows_markup h
  have hruns := htidy.runs_tokensOfAll
  have hraw := htidy.rawValues_tokensOfAll
  rw [htexts] at hruns
  rw [hvalues] at hraw
  refine ⟨_, Markup.tokensOfAll parts, by rw [View.toHtml, hparts]; rfl, scan_writeAll htidy.leading,
    htidy.nested_tokensOfAll, ?_, ?_, ?_, houtline⟩
  · rw [hruns, hraw, ← List.map_append]
    intro written hmem
    obtain ⟨s, -, rfl⟩ := List.mem_map.mp hmem
    exact clean_escape s
  · simp [hruns, Function.comp_def]
  · simp [hraw, Function.comp_def]

/-- A view whose texts look like HTML. -/
def hostileView : View :=
  let field : Field :=
    { name := "q\x22 onfocus=\x22x"
      label := "</label>"
      property := { type := .integer, enum := some [.int 7, .null] }
      required := true }
  let binding : Binding :=
    { field, kind := "select", value := .int 7, error := some "<p>", touched := true }
  .form (.heading "<script>")
    (.stack .horizontal [.fieldset "\x22>" (.caption ""), .widget ⟨.select, binding⟩])
    [.button "&lt;" "submit" true]

theorem plain_hostileView : hostileView.Plain := by
  have hshort : ∀ n : Int, (Nat.toDigits 10 n.natAbs).length ≤ maxDigits → (Value.int n).Short :=
    fun n hn => by rwa [Value.Short]
  have hseven : (Value.int 7).Short := hshort 7 (by decide)
  simp only [hostileView, View.Plain, View.PlainAll, Widget.Plain, and_true, true_and]
  refine ⟨rfl, hseven, hshort 3 (by decide), ?_⟩
  intro choice hmem
  simp only [Property.choiceList, List.map_cons, List.map_nil, List.mem_cons, List.not_mem_nil,
    or_false] at hmem
  rcases hmem with rfl | rfl
  · exact hseven
  · simp [Value.Short]

theorem toHtml_of_plain_hostile :
    hostileView.Plain ∧ ∃ html tokens, hostileView.toHtml = .ok html ∧ scan html = some tokens ∧
      nested [] tokens = true ∧ (∀ written ∈ runs tokens ++ rawValues tokens, Clean written) ∧
      (runs tokens).map unescape =
        ["<script>", "\x22>", "</label>", "*", "Select...", "7", "None", "<p>", "&lt;"].map
          String.toList ∧
      outline tokens =
        [.opening "form" ["novalidate"], .opening "h2" [], .closing "h2", .opening "div" ["class"],
          .opening "div" ["class"], .opening "fieldset" [], .opening "legend" [], .closing "legend",
          .opening "p" ["class"], .closing "p", .closing "fieldset", .closing "div",
          .opening "div" ["class"], .opening "div" ["class"], .opening "label" ["for"],
          .opening "span" ["class"], .closing "span", .closing "label",
          .opening "select" ["id", "name", "required"], .opening "option" ["value"],
          .closing "option", .opening "option" ["value", "selected"], .closing "option",
          .opening "option" ["value"], .closing "option", .closing "select",
          .opening "p" ["class"], .closing "p", .closing "div", .closing "div", .closing "div",
          .opening "div" ["class"], .opening "button" ["type", "disabled"], .closing "button",
          .closing "div", .closing "form"] := by
  obtain ⟨html, tokens, hhtml, hscan, hnested, hclean, htexts, -, houtline⟩ :=
    toHtml_of_plain plain_hostileView
  exact ⟨plain_hostileView, html, tokens, hhtml, hscan, hnested, hclean, htexts, houtline⟩

end SchemaForm
