import SchemaForm.View.Rendering
import SchemaForm.Proofs.Choice.Member
import SchemaForm.Proofs.Html.Paragraphs
import SchemaForm.Proofs.View.Controls

/-!
# The current choice in HTML

A select marks the choice that is the current value. The mark compares the choice with the value as it is held,
whereas `_check_choice` compares it with the value as its type reads it. This module says when both find a
choice.

* `currentTag` — the tag of a choice that is marked;
* `Binding.openingsOfAll_options` — the choices that are marked, as elements;
* `Widget.occurrences_currentTag` — and how often the tag stands in the HTML of the widget;
* `current_choice_marked_iff` — for an accepted value a choice is marked exactly if the value is listed as
  it is held, and always if reading keeps it.
-/

namespace SchemaForm

/-- What comes of many steps is the list of what comes of each. -/
theorem eq_map_of_mapM_ok {α β ε : Type} {f : α → Except ε β} {g : α → β} {items : List α}
    {found : List β} (h : items.mapM f = .ok found) (hg : ∀ a b, f a = .ok b → b = g a) :
    found = items.map g := by
  induction items generalizing found with
  | nil =>
    cases h
    rfl
  | cons item rest ih =>
    rw [List.mapM_cons] at h
    obtain ⟨first, hfirst, h⟩ := exists_of_bind_ok h
    obtain ⟨others, hothers, h⟩ := exists_of_bind_ok h
    cases h
    rw [List.map_cons, hg item first hfirst, ih hothers]

/-! ## Tags of choices -/

namespace Html

/-- The tag of a choice that is marked as the current one. -/
def currentTag (text : String) : List Char :=
  openingTag "option" [attr "value" text, ⟨"selected", none⟩]

example : currentTag "2" = "<option value=\x222\x22 selected>".toList := by decide

theorem escape_inj {s t : String} : escape s = escape t ↔ s = t := by
  constructor
  · intro h
    rw [← String.toList_inj, ← unescape_escape s, ← unescape_escape t, h]
  · rintro rfl
    rfl

/-- The tag of a choice ends its value with the second quote. -/
theorem openingTag_option (text : String) (flags : List Attribute) :
    openingTag "option" (attr "value" text :: flags) =
      "<option value=\x22".toList ++
        (escape text ++ '\x22' :: (flags.flatMap Attribute.write ++ ['>'])) := by
  simp [openingTag, Attribute.write, attr]

/-- The tag of a choice that is marked shows the value of the choice. -/
theorem openingTag_eq_currentTag_iff {shown text : String} {selected : Bool} :
    openingTag "option" (attr "value" shown :: flag "selected" selected) = currentTag text ↔
      selected = true ∧ shown = text := by
  have hend : '\x22' ∉ (flag "selected" selected).flatMap Attribute.write ++ ['>'] := by
    cases selected <;> decide
  rw [currentTag, openingTag_option, openingTag_option, List.append_cancel_left_eq,
    List.append_cons_inj_of_notMem (clean_escape shown).2.2 hend, escape_inj]
  cases selected <;> simp [flag, Attribute.write, and_comm]

/-- No element but a choice has such a tag. -/
theorem ne_currentTag {tag : String} (hname : isName tag = true)
    (h : tag.toList.head? ≠ "option".toList.head?) (attributes : List Attribute) (text : String) :
    openingTag tag attributes ≠ currentTag text :=
  openingTag_ne_of_head? hname (by decide) h attributes _

end Html

open Html

/-! ## Lists of choices -/

namespace Binding

variable (b : Binding) (text : String)

/-- How many choices are the current value and have this text. -/
def currentCount : Nat :=
  b.choiceList.countP fun choice => b.selects choice.value && shownValue choice.value == text

theorem eq_shownValue {v : Value} {text : String} (h : displayValue v = .ok text) :
    text = shownValue v := by
  rw [shownValue, h]
  rfl

/-- The markup of a list of choices, if it has any. -/
theorem selectMarkup_eq {b : Binding} {part : Markup} (h : b.selectMarkup = .ok part) :
    part = .element "select" b.commonAttributes
      (.element "option" [attr "value" ""] [.text "Select..."] :: b.choiceList.map b.shownOption) := by
  obtain ⟨choices, hchoices, h⟩ := exists_of_bind_ok h
  obtain ⟨options, hoptions, h⟩ := exists_of_bind_ok h
  cases h
  have hchoices' : choices = b.choiceList.map fun choice => (choice.value, choice.shownText) := by
    cases hfound : b.choices with
    | error e =>
      rw [hfound] at hchoices
      cases hchoices
    | ok found =>
      rw [hfound] at hchoices
      cases hchoices
      refine eq_map_of_mapM_ok hfound fun choice pair hpair => ?_
      obtain ⟨shown, hshown, hpair⟩ := exists_of_bind_ok hpair
      cases hpair
      rw [Choice.shownText, hshown]
      rfl
  have hoptions' : options = b.choiceList.map b.shownOption := by
    rw [hchoices', List.mapM_map] at hoptions
    refine eq_map_of_mapM_ok hoptions fun choice option hoption => ?_
    obtain ⟨shown, hshown, hoption⟩ := exists_of_bind_ok hoption
    cases hoption
    rw [eq_shownValue hshown]
    rfl
  rw [hoptions']

theorem openingsOfAll_options :
    Markup.openingsOfAll (currentTag text) (b.choiceList.map b.shownOption) = b.currentCount text := by
  unfold currentCount
  induction b.choiceList with
  | nil => rfl
  | cons choice rest ih =>
    rw [List.map_cons, Markup.openingsOfAll, ih, List.countP_cons, Nat.add_comm]
    simp [shownOption, Markup.openings, Markup.openingsOfAll, openingTag_eq_currentTag_iff]

/-- The first line of the list is never marked. -/
theorem openings_selectMarkup {b : Binding} {part : Markup} (h : b.selectMarkup = .ok part)
    (text : String) : Markup.openingsOfAll (currentTag text) [part] = b.currentCount text := by
  have hselect : ∀ attributes, openingTag "select" attributes ≠ currentTag text :=
    fun attributes => ne_currentTag (by decide) (by decide) attributes text
  have hfirst : openingTag "option" [attr "value" ""] ≠ currentTag text := by
    intro hsame
    have hflagged : openingTag "option" (attr "value" "" :: flag "selected" false) = currentTag text :=
      hsame
    exact Bool.noConfusion (openingTag_eq_currentTag_iff.mp hflagged).1
  rw [selectMarkup_eq h]
  simp [Markup.openingsOfAll, Markup.openings, hselect, hfirst, openingsOfAll_options]

theorem openingsOfAll_labelMarkup : Markup.openingsOfAll (currentTag text) b.labelMarkup = 0 := by
  have hlabel : ∀ attributes, openingTag "label" attributes ≠ currentTag text :=
    fun attributes => ne_currentTag (by decide) (by decide) attributes text
  have hspan : ∀ attributes, openingTag "span" attributes ≠ currentTag text :=
    fun attributes => ne_currentTag (by decide) (by decide) attributes text
  unfold labelMarkup
  cases b.field.hasLabel <;> cases b.field.required <;>
    simp [Markup.openingsOfAll, Markup.openings, hlabel, hspan]

theorem openingsOfAll_errorMarkup : Markup.openingsOfAll (currentTag text) b.errorMarkup = 0 := by
  have hparagraph : ∀ attributes, openingTag "p" attributes ≠ currentTag text :=
    fun attributes => ne_currentTag (by decide) (by decide) attributes text
  unfold errorMarkup
  cases b.visibleError <;> simp [Markup.openingsOfAll, Markup.openings, hparagraph]

end Binding

/-! ## Widgets -/

namespace Widget

variable {w : Widget} {html : String}

/-- The tag of a marked choice stands in the HTML of a list as often as there are such choices. -/
theorem occurrences_currentTag (hselect : w.cls = .select) (h : (View.widget w).toHtml = .ok html)
    (text : String) : occurrences (currentTag text) html.toList = w.binding.currentCount text := by
  obtain ⟨cls, b⟩ := w
  obtain rfl : cls = .select := hselect
  rw [View.toHtml, View.markup] at h
  cases hparts : (⟨.select, b⟩ : Widget).markup with
  | error failure =>
    rw [hparts] at h
    cases h
  | ok parts =>
    rw [hparts] at h
    cases h
    have htidy := (marked_markup rfl hparts).tidy
    have hframe : ∀ attributes, openingTag "div" attributes ≠ currentTag text :=
      fun attributes => ne_currentTag (by decide) (by decide) attributes text
    obtain ⟨part, hpart, hparts⟩ := exists_of_bind_ok hparts
    cases hparts
    rw [String.toList_ofList]
    calc occurrences (currentTag text) (Markup.writeAll (framed ⟨.select, b⟩ (b.labelMarkup ++ [part])))
        = Markup.openingsOfAll (currentTag text) (framed ⟨.select, b⟩ (b.labelMarkup ++ [part])) :=
          htidy.occurrences_writeAll (by decide) (by simp +decide [attr])
      _ = Markup.openingsOfAll (currentTag text) (b.labelMarkup ++ [part] ++ b.errorMarkup) := by
          simp [framed, Markup.openingsOfAll, Markup.openings, hframe]
      _ = b.currentCount text := by
          rw [Markup.openingsOfAll_append, Markup.openingsOfAll_append,
            b.openingsOfAll_labelMarkup, b.openingsOfAll_errorMarkup, Binding.openings_selectMarkup hpart,
            Nat.zero_add, Nat.add_zero]

/-- A list of choices that can be displayed has HTML. -/
theorem exists_toHtml_of_select (hselect : w.cls = .select)
    (hshort : ∀ choice ∈ w.binding.choiceList, choice.value.Short) :
    ∃ html, (View.widget w).toHtml = .ok html := by
  obtain ⟨cls, b⟩ := w
  obtain rfl : cls = .select := hselect
  obtain ⟨part, hpart⟩ : ∃ part, b.selectMarkup = .ok part :=
    ⟨_, Binding.selectMarkup_of_short hshort⟩
  have hmarkup : (⟨.select, b⟩ : Widget).markup =
      .ok (framed ⟨.select, b⟩ (b.labelMarkup ++ [part])) := by
    rw [markup]
    dsimp only
    rw [hpart]
    rfl
  exact ⟨_, by rw [View.toHtml, View.markup, hmarkup]; rfl⟩

/-- A choice is marked exactly if the value is listed as it is held. -/
theorem exists_occurrences_iff (hselect : w.cls = .select) (hfilled : w.binding.value ≠ .null)
    (h : (View.widget w).toHtml = .ok html) :
    (∃ text, 0 < occurrences (currentTag text) html.toList) ↔
      w.binding.field.property.lists w.binding.value = true := by
  have hselects : ∀ choice, w.binding.selects choice = w.binding.value.same choice := by
    intro choice
    unfold Binding.selects
    split
    · next hnull => exact absurd hnull hfilled
    · rfl
  simp only [occurrences_currentTag hselect h, Binding.currentCount, List.countP_pos_iff, hselects,
    Bool.and_eq_true, beq_iff_eq]
  rw [Property.lists_iff, Property.allowed, Binding.choiceList]
  constructor
  · rintro ⟨text, choice, hmem, hsame, -⟩
    exact ⟨choice.value, List.mem_map_of_mem hmem, hsame⟩
  · rintro ⟨value, hmem, hsame⟩
    obtain ⟨choice, hchoice, rfl⟩ := List.mem_map.mp hmem
    exact ⟨shownValue choice.value, choice, hchoice, hsame, rfl⟩

end Widget

/-! ## Accepted values -/

theorem Context.binding_of_widget? {c : Context} {control : Control} {field : Field} {w : Widget}
    (hfield : control.field? c.schema = some field) (h : c.widget? control = .ok (some w)) :
    w.binding = c.binding field := by
  obtain ⟨found, hfound, -, hbinding⟩ := Context.widget?_eq_some_iff.mp h
  cases hfield.symm.trans hfound
  exact hbinding

section

variable {c : Context} {control : Control} {field : Field} {w : Widget}

/-- **Whether the current choice is marked.** A list of choices that can be displayed has HTML. If the
value of the property is accepted and not empty, then a choice is marked in it exactly if the value is
listed as it is held, in particular if reading the value as its type keeps it. -/
theorem current_choice_marked_iff (hfield : control.field? c.schema = some field)
    (hclosed : field.property.isClosedChoice = true) (hwidget : c.widget? control = .ok (some w))
    (hselect : w.cls = .select) (hfilled : (Schema.valueIn c.values field.name).isEmpty = false)
    (haccepted : c.schema.violation? field.name (Schema.valueIn c.values field.name) = none) :
    ((∀ choice ∈ field.property.choiceList, choice.value.Short) →
        ∃ html, (View.widget w).toHtml = .ok html) ∧
      ∀ html, (View.widget w).toHtml = .ok html →
        ((∃ text, 0 < occurrences (currentTag text) html.toList) ↔
          field.property.lists (Schema.valueIn c.values field.name) = true) ∧
        (field.property.type.Keeps (Schema.valueIn c.values field.name) →
          ∃ text, 0 < occurrences (currentTag text) html.toList) := by
  have hbinding : w.binding = c.binding field := Context.binding_of_widget? hfield hwidget
  have hvalue : w.binding.value = Schema.valueIn c.values field.name := by
    rw [hbinding]
    rfl
  have hfield' : w.binding.field = field := by
    rw [hbinding]
    rfl
  have hnull : w.binding.value ≠ .null := by
    rw [hvalue]
    intro hempty
    rw [hempty] at hfilled
    exact Bool.noConfusion hfilled
  have hdeclared := Control.property?_of_field? hfield
  rw [Schema.violation?, hdeclared, Option.bind_some] at haccepted
  obtain ⟨read, hread⟩ := Property.exists_convert?_of_accepted hfilled haccepted
  have hlisted := (Property.violation?_eq_none_iff_lists hclosed hfilled hread).mp haccepted
  refine ⟨fun hshort => Widget.exists_toHtml_of_select hselect ?_, fun html hhtml => ?_⟩
  · rw [Binding.choiceList, hfield']
    exact hshort
  · -- an option is marked if its choice is what the form holds; validation looks for what it has read instead
    have hmarked := Widget.exists_occurrences_iff hselect hnull hhtml
    rw [hvalue, hfield'] at hmarked
    refine ⟨hmarked, fun hkeeps => hmarked.mpr ?_⟩
    rwa [← Property.lists_of_keeps hread hkeeps]

end

/-- A form with a whole number of which only two are allowed, and its value. -/
def pairContext (v : Value) : Context :=
  { schema :=
      { title := none
        description := none
        properties := .ofList [("count", Property.singleOrPair)]
        required := [] }
    values := .ofList [("count", v)] }

def pairControl : Control := Control.mk "#/properties/count" .unset none

def pairField : Field := { name := "count", label := "count", property := Property.singleOrPair }

def pairWidget (v : Value) : Widget := ⟨.select, (pairContext v).binding pairField⟩

theorem current_choice_marked_iff_pair :
    pairControl.field? (pairContext (.int 2)).schema = some pairField ∧
      pairField.property.isClosedChoice = true ∧
      (pairContext (.int 2)).widget? pairControl = .ok (some (pairWidget (.int 2))) ∧
      (pairWidget (.int 2)).cls = .select ∧
      (Schema.valueIn (pairContext (.int 2)).values pairField.name).isEmpty = false ∧
      (pairContext (.int 2)).schema.violation? pairField.name
        (Schema.valueIn (pairContext (.int 2)).values pairField.name) = none ∧
      ((∀ choice ∈ pairField.property.choiceList, choice.value.Short) →
        ∃ html, (View.widget (pairWidget (.int 2))).toHtml = .ok html) ∧
      ∀ html, (View.widget (pairWidget (.int 2))).toHtml = .ok html →
        ((∃ text, 0 < occurrences (currentTag text) html.toList) ↔
          pairField.property.lists (Schema.valueIn (pairContext (.int 2)).values pairField.name) =
            true) ∧
        (pairField.property.type.Keeps
            (Schema.valueIn (pairContext (.int 2)).values pairField.name) →
          ∃ text, 0 < occurrences (currentTag text) html.toList) := by
  have haccepted : (pairContext (.int 2)).schema.violation? pairField.name
      (Schema.valueIn (pairContext (.int 2)).values pairField.name) = none := by decide +kernel
  have hfield : pairControl.field? (pairContext (.int 2)).schema = some pairField := rfl
  have hwidget : (pairContext (.int 2)).widget? pairControl = .ok (some (pairWidget (.int 2))) := rfl
  exact ⟨hfield, rfl, hwidget, rfl, rfl, haccepted,
    current_choice_marked_iff hfield rfl hwidget rfl rfl haccepted⟩

/-- A value that is accepted and not marked: the text of a whole number that is listed. -/
theorem accepted_text_not_marked :
    pairControl.field? (pairContext (.text "2")).schema = some pairField ∧
      pairField.property.isClosedChoice = true ∧
      (pairContext (.text "2")).widget? pairControl = .ok (some (pairWidget (.text "2"))) ∧
      (pairWidget (.text "2")).cls = .select ∧
      (pairContext (.text "2")).schema.violation? "count" (.text "2") = none ∧
      ∃ html, (View.widget (pairWidget (.text "2"))).toHtml = .ok html ∧
        ∀ text, occurrences (currentTag text) html.toList = 0 := by
  have hshort : ∀ choice ∈ [(⟨.int 1, none⟩ : Choice), ⟨.int 2, none⟩], choice.value.Short := by
    intro choice hmem
    have hsmall : ∀ n : Nat, n < 10 → (Value.int n).Short := by
      intro n hn
      rw [Value.Short, Int.natAbs_natCast, Nat.toDigits_of_lt_base hn]
      exact Nat.succ_le_of_lt (by decide)
    rcases List.mem_pair.mp hmem with rfl | rfl
    · exact hsmall 1 (by decide)
    · exact hsmall 2 (by decide)
  have hvalue : (pairWidget (.text "2")).binding.value ≠ .null := by
    have htext : (pairWidget (.text "2")).binding.value = .text "2" := rfl
    simp [htext]
  obtain ⟨html, hhtml⟩ := Widget.exists_toHtml_of_select (w := pairWidget (.text "2")) rfl hshort
  have hmarked := Widget.exists_occurrences_iff rfl hvalue hhtml
  have hunlisted : ¬ pairField.property.lists (.text "2") = true := by decide
  refine ⟨rfl, rfl, rfl, rfl, by decide +kernel, html, hhtml, fun text => ?_⟩
  by_contra hfound
  exact hunlisted (hmarked.mp ⟨text, Nat.pos_of_ne_zero hfound⟩)

end SchemaForm
