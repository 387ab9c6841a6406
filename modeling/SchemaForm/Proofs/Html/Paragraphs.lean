import SchemaForm.Proofs.Html.Occurrences
import SchemaForm.Proofs.Html.Views

/-!
# Messages in HTML

A message that is shown stands in a paragraph of its own. This module counts these paragraphs in the HTML
of a view: there is one for each widget that shows a message, and nothing that a user or a host has
written looks like one.

* `messageTag` — the tag of such a paragraph;
* `Marked` — tidy markup with so many messages, with one rule for each way of putting markup together;
* `View.BuiltIn`, `View.marked_markup` — the markup of a view without parts of a host;
* `View.occurrences_toHtml` — how often the tag is found in its HTML.
-/

namespace SchemaForm

theorem exists_of_bind_ok {α β ε : Type} {x : Except ε α} {f : α → Except ε β} {b : β}
    (h : (x >>= f) = .ok b) : ∃ a, x = .ok a ∧ f a = .ok b := by
  cases x with
  | error failure => cases h
  | ok a => exact ⟨a, rfl, h⟩

/-- What comes of many steps comes of each of them. -/
theorem exists_of_mapM_ok {α β ε : Type} {f : α → Except ε β} {items : List α} {found : List β}
    (h : items.mapM f = .ok found) : ∀ b ∈ found, ∃ a ∈ items, f a = .ok b := by
  induction items generalizing found with
  | nil =>
    cases h
    exact fun _ hmem => absurd hmem List.not_mem_nil
  | cons item rest ih =>
    rw [List.mapM_cons] at h
    obtain ⟨first, hfirst, h⟩ := exists_of_bind_ok h
    obtain ⟨others, hothers, h⟩ := exists_of_bind_ok h
    cases h
    intro b hmem
    rcases List.mem_cons.mp hmem with rfl | hmem
    · exact ⟨item, List.mem_cons_self .., hfirst⟩
    · obtain ⟨a, ha, hb⟩ := ih hothers b hmem
      exact ⟨a, List.mem_cons_of_mem _ ha, hb⟩

/-! ## Markup with messages -/

namespace Html

/-- The tag of the paragraph in which a message stands. -/
def messageTag : List Char := openingTag "p" [attr "class" "field-error"]

theorem messageTag_eq : messageTag = "<p class=\x22field-error\x22>".toList := by decide

/-- The name is one for a tag, and it does not begin as that of a paragraph. -/
def isOtherTag (tag : String) : Bool := isName tag && tag.toList.head?.any (· != 'p')

theorem isName_of_isOtherTag {tag : String} (h : isOtherTag tag = true) : isName tag = true :=
  (Bool.and_eq_true_iff.mp h).1

theorem ne_messageTag {tag : String} (h : isOtherTag tag = true) (attributes : List Attribute) :
    openingTag tag attributes ≠ messageTag := by
  have hname := isName_of_isOtherTag h
  refine openingTag_ne_of_head? hname (by decide) ?_ attributes _
  intro hfirst
  simp [isOtherTag, hname, hfirst] at h

/-- The markup is tidy, and there are so many messages in it. -/
structure Marked (lead : Bool) (parts : List Markup) (messages : Nat) : Prop where
  tidy : Tidy lead parts
  count : Markup.openingsOfAll messageTag parts = messages

namespace Marked

variable {lead : Bool} {parts others : List Markup} {m n : Nat} {tag : String}
  {attributes : List Attribute}

theorem nil : Marked lead [] 0 := ⟨.nil, rfl⟩

theorem append (h : Marked lead parts m) (hothers : Marked false others n) :
    Marked lead (parts ++ others) (m + n) where
  tidy := h.tidy.append hothers.tidy
  count := by rw [Markup.openingsOfAll_append, h.count, hothers.count]

theorem leading (h : Marked false parts n) : Marked true parts n := ⟨h.tidy.leading, h.count⟩

theorem text (s : String) (h : Marked false parts n) : Marked true (.text s :: parts) n where
  tidy := .text h.tidy
  count := by rw [Markup.openingsOfAll, Markup.openings, Nat.zero_add, h.count]

theorem element (htag : isOtherTag tag = true) (hfull : isVoid tag = false)
    (hattributes : ∀ a ∈ attributes, isName a.name = true) (h : Marked true parts n) :
    Marked lead [.element tag attributes parts] n where
  tidy := .element (isName_of_isOtherTag htag) hfull hattributes h.tidy .nil
  count := by simp [Markup.openingsOfAll, Markup.openings, ne_messageTag htag, h.count]

theorem void (htag : isOtherTag tag = true) (hvoid : isVoid tag = true)
    (hattributes : ∀ a ∈ attributes, isName a.name = true) :
    Marked lead [.void tag attributes] 0 where
  tidy := .void (isName_of_isOtherTag htag) hvoid hattributes .nil
  count := by simp [Markup.openingsOfAll, Markup.openings, ne_messageTag htag]

/-- Elements that follow each other, none of which has a message in it. -/
theorem all (h : ∀ part ∈ parts, Marked false [part] 0) : Marked false parts 0 := by
  induction parts with
  | nil => exact .nil
  | cons part rest ih =>
    exact (h part (List.mem_cons_self ..)).append
      (ih fun other hmem => h other (List.mem_cons_of_mem _ hmem))

end Marked

end Html

open Html

/-! ## Widgets -/

namespace Binding

variable {b : Binding} {part : Markup}

/-- How many messages the widget shows. -/
def messageCount (b : Binding) : Nat := if b.visibleError.isSome then 1 else 0

theorem marked_labelMarkup (b : Binding) : Marked false b.labelMarkup 0 where
  tidy := b.shows_labelMarkup.tidy
  count := by
    have hlabel : ∀ attributes, openingTag "label" attributes ≠ messageTag := ne_messageTag (by decide)
    have hspan : ∀ attributes, openingTag "span" attributes ≠ messageTag := ne_messageTag (by decide)
    unfold labelMarkup
    cases b.field.hasLabel <;> cases b.field.required <;>
      simp [Markup.openingsOfAll, Markup.openings, hlabel, hspan]

theorem marked_errorMarkup (b : Binding) : Marked false b.errorMarkup b.messageCount where
  tidy := b.shows_errorMarkup.tidy
  count := by
    unfold errorMarkup messageCount
    cases b.visibleError with
    | none => rfl
    | some message => simp [Markup.openingsOfAll, Markup.openings, messageTag]

theorem marked_inputMarkup {attributes : List Attribute}
    (hattributes : ∀ a ∈ attributes, isName a.name = true) (h : b.inputMarkup attributes = .ok part) :
    Marked false [part] 0 := by
  obtain ⟨text, -, h⟩ := exists_of_bind_ok h
  cases h
  refine .void (by decide) (by decide) fun a hmem => ?_
  have hvalue : isName "value" = true := by decide
  rcases List.mem_append.mp hmem with hmem | hmem
  · exact hattributes a hmem
  · rcases List.mem_cons.mp hmem with rfl | hmem
    · exact hvalue
    · exact b.isName_commonAttributes a hmem

theorem marked_optionMarkup {choice : Value × String} (h : b.optionMarkup choice = .ok part) :
    Marked false [part] 0 := by
  obtain ⟨text, -, h⟩ := exists_of_bind_ok h
  cases h
  refine .element (by decide) (by decide) ?_ (.text _ .nil)
  unfold flag
  cases b.selects choice.1 <;> simp +decide [attr]

theorem marked_selectMarkup (h : b.selectMarkup = .ok part) : Marked false [part] 0 := by
  obtain ⟨choices, -, h⟩ := exists_of_bind_ok h
  obtain ⟨options, hoptions, h⟩ := exists_of_bind_ok h
  cases h
  have hall : Marked false options 0 := .all fun option hmem => by
    obtain ⟨choice, -, hoption⟩ := exists_of_mapM_ok hoptions option hmem
    exact marked_optionMarkup hoption
  have hfirst : Marked true [.element "option" [attr "value" ""] [.text "Select..."]] 0 :=
    .element (by decide) (by decide) (by simp +decide) (.text _ .nil)
  exact .element (by decide) (by decide) b.isName_commonAttributes (hfirst.append hall)

theorem marked_textareaMarkup (h : b.textareaMarkup = .ok part) : Marked false [part] 0 := by
  obtain ⟨rows, -, h⟩ := exists_of_bind_ok h
  obtain ⟨text, -, h⟩ := exists_of_bind_ok h
  cases h
  refine .element (by decide) (by decide) (fun a hmem => ?_) (.text _ .nil)
  have hrows : isName "rows" = true := by decide
  rcases List.mem_cons.mp hmem with rfl | hmem
  · exact hrows
  · exact b.isName_commonAttributes a hmem

theorem marked_checkboxMarkup (b : Binding) : Marked false [b.checkboxMarkup] 0 := by
  have htidy := (Widget.shows_checkbox b).tidy
  refine ⟨htidy, ?_⟩
  have hinput : ∀ attributes, openingTag "input" attributes ≠ messageTag := ne_messageTag (by decide)
  simp [checkboxMarkup, Markup.openingsOfAll, Markup.openings, hinput]

end Binding

namespace Widget

variable {w : Widget}

theorem marked_framed {content : List Markup} (h : Marked false content 0) :
    Marked false (w.framed content) w.binding.messageCount := by
  have hinside := h.append w.binding.marked_errorMarkup
  rw [Nat.zero_add] at hinside
  exact .element (by decide) (by decide) (by simp +decide [attr]) hinside.leading

/-- The markup of a built-in widget: there is a message in it if the widget shows one. -/
theorem marked_markup (hbuiltIn : w.cls.isBuiltIn = true) {parts : List Markup}
    (h : w.markup = .ok parts) : Marked false parts w.binding.messageCount := by
  obtain ⟨cls, b⟩ := w
  have hlabel := b.marked_labelMarkup
  cases cls with
  | text =>
    obtain ⟨input, hinput, h⟩ := exists_of_bind_ok h
    cases h
    exact marked_framed (hlabel.append (Binding.marked_inputMarkup (by simp +decide [attr]) hinput))
  | number =>
    obtain ⟨input, hinput, h⟩ := exists_of_bind_ok h
    cases h
    exact marked_framed (hlabel.append (Binding.marked_inputMarkup (by simp +decide [attr]) hinput))
  | textarea =>
    obtain ⟨input, hinput, h⟩ := exists_of_bind_ok h
    cases h
    exact marked_framed (hlabel.append (Binding.marked_textareaMarkup hinput))
  | select =>
    obtain ⟨input, hinput, h⟩ := exists_of_bind_ok h
    cases h
    exact marked_framed (hlabel.append (Binding.marked_selectMarkup hinput))
  | checkbox =>
    cases h
    exact marked_framed (b.marked_checkboxMarkup.append hlabel)
  | host widget => cases hbuiltIn

end Widget

/-! ## Views -/

namespace View

mutual

/-- The view has no parts of a host, and the widgets of a form are in its body. -/
def BuiltIn : View → Prop
  | .form title body actions =>
    BuiltIn title ∧ BuiltIn body ∧ BuiltInAll actions ∧
      widgets title = [] ∧ widgetsOfAll actions = []
  | .stack _ children => BuiltInAll children
  | .fieldset _ content => BuiltIn content
  | .widget w => w.cls.isBuiltIn = true
  | .custom _ => False
  | .unknown _ => False
  | _ => True

/-- The same of several views. -/
def BuiltInAll : List View → Prop
  | [] => True
  | view :: rest => BuiltIn view ∧ BuiltInAll rest

end

/-- How many messages the widgets show. -/
def messageCount (widgets : List Widget) : Nat := widgets.countP (·.binding.visibleError.isSome)

@[simp] theorem messageCount_nil : messageCount [] = 0 := rfl

theorem messageCount_append (widgets others : List Widget) :
    messageCount (widgets ++ others) = messageCount widgets + messageCount others :=
  List.countP_append

theorem messageCount_singleton (w : Widget) : messageCount [w] = w.binding.messageCount :=
  List.countP_singleton

theorem marked_cell {content : List Markup} {n : Nat} (direction : Direction)
    (h : Marked false content n) : Marked false (cell direction content) n := by
  cases direction with
  | vertical => exact h
  | horizontal => exact .element (by decide) (by decide) (by simp +decide) h.leading

theorem marked_actionRow {content : List Markup} {n : Nat} (h : Marked false content n) :
    Marked false (actionRow content) n :=
  .element (by decide) (by decide) (by simp +decide) h.leading

theorem marked_formElement {content : List Markup} {n : Nat} (h : Marked false content n) :
    Marked false [.element "form" [⟨"novalidate", none⟩] content] n :=
  .element (by decide) (by decide) (by simp +decide) h.leading

mutual

/-- The markup of a view has as many messages as its widgets show. By induction on the view: nothing but
a widget makes such a paragraph. -/
theorem marked_markup : ∀ {v : View}, v.BuiltIn → ∀ {parts}, v.markup = .ok parts →
    Marked false parts (messageCount v.widgets)
  | .nothing, _, _, h => by
    rw [markup] at h
    cases h
    exact .nil
  | .form title body actions, hbuilt, _, h => by
    rw [BuiltIn] at hbuilt
    obtain ⟨htitle, hbody, hactions, htitleNone, hactionsNone⟩ := hbuilt
    rw [markup] at h
    obtain ⟨heading, hheading, h⟩ := exists_of_bind_ok h
    obtain ⟨content, hcontent, h⟩ := exists_of_bind_ok h
    -- only the body has widgets: the heading and the buttons add no messages
    have hinside := (marked_markup htitle hheading).append (marked_markup hbody hcontent)
    rw [htitleNone, messageCount_nil, Nat.zero_add] at hinside
    rw [widgets]
    cases actions with
    | nil =>
      cases h
      exact marked_formElement hinside
    | cons action rest =>
      obtain ⟨first, hfirst, h⟩ := exists_of_bind_ok h
      obtain ⟨others, hothers, h⟩ := exists_of_bind_ok h
      cases h
      rw [BuiltInAll] at hactions
      have hrow := (marked_markup hactions.1 hfirst).append
        (marked_markupOfAll .vertical hactions.2 hothers)
      rw [← messageCount_append, ← widgetsOfAll, hactionsNone] at hrow
      exact marked_formElement (hinside.append (marked_actionRow hrow))
  | .stack direction children, hbuilt, _, h => by
    rw [BuiltIn] at hbuilt
    rw [markup] at h
    obtain ⟨content, hcontent, h⟩ := exists_of_bind_ok h
    cases h
    have hinside := marked_markupOfAll direction hbuilt hcontent
    rw [widgets]
    exact .element (by decide) (by decide) (by simp +decide [attr]) hinside.leading
  | .fieldset legend content, hbuilt, _, h => by
    rw [BuiltIn] at hbuilt
    rw [markup] at h
    obtain ⟨inner, hinner, h⟩ := exists_of_bind_ok h
    cases h
    have hlegend : Marked true [.element "legend" [] [.text legend]] 0 :=
      .element (by decide) (by decide) (by simp) (.text _ .nil)
    have hinside := hlegend.append (marked_markup hbuilt hinner)
    rw [Nat.zero_add] at hinside
    rw [widgets]
    exact .element (by decide) (by decide) (by simp) hinside
  | .caption text, _, _, h => by
    rw [markup] at h
    cases h
    -- a caption is a paragraph too, but its class tells it from a message
    have hcaption : openingTag "p" [attr "class" "label"] ≠ messageTag := by decide
    refine ⟨.element (by decide) (by decide) (by simp +decide) (.text .nil) .nil, ?_⟩
    simp [Markup.openingsOfAll, Markup.openings, hcaption, widgets]
  | .heading text, _, _, h => by
    rw [markup] at h
    cases h
    exact .element (by decide) (by decide) (by simp) (.text _ .nil)
  | .button label kind disabled, _, _, h => by
    rw [markup] at h
    cases h
    cases disabled <;>
      exact .element (by decide) (by decide) (by simp +decide [attr, flag]) (.text _ .nil)
  | .widget w, hbuilt, _, h => by
    rw [BuiltIn] at hbuilt
    rw [markup] at h
    rw [widgets, messageCount_singleton]
    exact Widget.marked_markup hbuilt h
  | .custom _, hbuilt, _, _ => by
    rw [BuiltIn] at hbuilt
    exact hbuilt.elim
  | .unknown _, hbuilt, _, _ => by
    rw [BuiltIn] at hbuilt
    exact hbuilt.elim

/-- The same of the children of a stack. -/
theorem marked_markupOfAll (direction : Direction) : ∀ {children : List View}, BuiltInAll children →
    ∀ {parts}, markupOfAll direction children = .ok parts →
      Marked false parts (messageCount (widgetsOfAll children))
  | [], _, _, h => by
    rw [markupOfAll] at h
    cases h
    exact .nil
  | view :: rest, hbuilt, _, h => by
    rw [BuiltInAll] at hbuilt
    rw [markupOfAll] at h
    obtain ⟨first, hfirst, h⟩ := exists_of_bind_ok h
    obtain ⟨others, hothers, h⟩ := exists_of_bind_ok h
    cases h
    rw [widgetsOfAll, messageCount_append]
    exact (marked_cell direction (marked_markup hbuilt.1 hfirst)).append
      (marked_markupOfAll direction hbuilt.2 hothers)

end

/-- In the HTML of a view without parts of a host, the tag of a message is found as often as a widget of
the view shows one. -/
theorem occurrences_toHtml {v : View} (hbuilt : v.BuiltIn) {html : String} (h : v.toHtml = .ok html) :
    occurrences messageTag html.toList = messageCount v.widgets := by
  rw [toHtml] at h
  cases hparts : v.markup with
  | error failure =>
    rw [hparts] at h
    cases h
  | ok parts =>
    rw [hparts] at h
    cases h
    have hmarked := marked_markup hbuilt hparts
    rw [String.toList_ofList, ← hmarked.count]
    exact hmarked.tidy.occurrences_writeAll (by decide) (by simp +decide)

/-! ### Views that have HTML -/

mutual

/-- A view without parts of a host whose widgets show nothing that is too long to be displayed. -/
theorem plain_of_builtIn : ∀ {v : View}, v.BuiltIn → (∀ w ∈ v.widgets, w.binding.Short) → v.Plain
  | .form title body actions, hbuilt, hshort => by
    rw [BuiltIn] at hbuilt
    obtain ⟨htitle, hbody, hactions, htitleNone, hactionsNone⟩ := hbuilt
    rw [Plain]
    refine ⟨plain_of_builtIn htitle ?_, plain_of_builtIn hbody ?_, plainAll_of_builtInAll hactions ?_⟩
    · simp [htitleNone]
    · exact hshort
    · simp [hactionsNone]
  | .stack direction children, hbuilt, hshort => by
    rw [BuiltIn] at hbuilt
    rw [Plain]
    exact plainAll_of_builtInAll hbuilt hshort
  | .fieldset legend content, hbuilt, hshort => by
    rw [BuiltIn] at hbuilt
    rw [Plain]
    exact plain_of_builtIn hbuilt hshort
  | .widget w, hbuilt, hshort => by
    rw [BuiltIn] at hbuilt
    rw [Plain]
    exact ⟨hbuilt, hshort w (List.mem_singleton_self w)⟩
  | .custom _, hbuilt, _ => by
    rw [BuiltIn] at hbuilt
    exact hbuilt.elim
  | .unknown _, hbuilt, _ => by
    rw [BuiltIn] at hbuilt
    exact hbuilt.elim
  | .nothing, _, _ => by simp [Plain]
  | .caption _, _, _ => by simp [Plain]
  | .heading _, _, _ => by simp [Plain]
  | .button .., _, _ => by simp [Plain]

theorem plainAll_of_builtInAll : ∀ {views : List View}, BuiltInAll views →
    (∀ w ∈ widgetsOfAll views, w.binding.Short) → PlainAll views
  | [], _, _ => by simp [PlainAll]
  | view :: rest, hbuilt, hshort => by
    rw [BuiltInAll] at hbuilt
    rw [widgetsOfAll] at hshort
    rw [PlainAll]
    exact ⟨plain_of_builtIn hbuilt.1 fun w hmem => hshort w (List.mem_append_left _ hmem),
      plainAll_of_builtInAll hbuilt.2 fun w hmem => hshort w (List.mem_append_right _ hmem)⟩

end

/-- If every widget shows what can be displayed, then the view has HTML. -/
theorem exists_toHtml {v : View} (hbuilt : v.BuiltIn) (hshort : ∀ w ∈ v.widgets, w.binding.Short) :
    ∃ html, v.toHtml = .ok html := by
  obtain ⟨parts, hparts, -⟩ := shows_markup (plain_of_builtIn hbuilt hshort)
  exact ⟨_, by rw [toHtml, hparts]; rfl⟩

end View

end SchemaForm
