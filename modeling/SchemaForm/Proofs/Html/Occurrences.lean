import SchemaForm.Proofs.Html.Tidy

/-!
# Counting tags in HTML

Whoever looks for the text of a tag in HTML finds the elements with that tag, provided that the markup is
tidy: text and values are escaped, so that they have no `<`, and every tag ends at its first `>`.

* `occurrences` — how often a word stands in a text;
* `IsTag`, `occurrences_tag` — the texts of tags, and how they are found;
* `Markup.openingsOfAll`, `Tidy.occurrences_writeAll` — a tag is found as often as there are elements with
  it.
-/

namespace SchemaForm.Html

/-! ## Words in a text -/

/-- How often a word that is not empty stands in a text. -/
def occurrences (word : List Char) : List Char → Nat
  | [] => 0
  | c :: rest => (if word.isPrefixOf (c :: rest) then 1 else 0) + occurrences word rest

theorem occurrences_append_of_not_mem {text : List Char} (h : '<' ∉ text) (word rest : List Char) :
    occurrences ('<' :: word) (text ++ rest) = occurrences ('<' :: word) rest := by
  induction text with
  | nil => rfl
  | cons c text ih =>
    obtain ⟨hc, htext⟩ : '<' ≠ c ∧ '<' ∉ text := by simpa using h
    rw [List.cons_append, occurrences, ih htext]
    simp [hc]

/-! ## The texts of tags -/

/-- There are no angle brackets in the text. -/
def Unbracketed (text : List Char) : Prop := '<' ∉ text ∧ '>' ∉ text

namespace Unbracketed

variable {text rest : List Char}

theorem nil : Unbracketed [] := ⟨List.not_mem_nil, List.not_mem_nil⟩

theorem cons {c : Char} (hopen : '<' ≠ c) (hclose : '>' ≠ c) (h : Unbracketed text) :
    Unbracketed (c :: text) := by
  simp [Unbracketed, hopen, hclose, h.1, h.2]

theorem append (h : Unbracketed text) (hrest : Unbracketed rest) : Unbracketed (text ++ rest) := by
  simp [Unbracketed, h.1, h.2, hrest.1, hrest.2]

end Unbracketed

/-- The text begins with `<`, ends with `>`, and has neither of them in between. -/
def IsTag (text : List Char) : Prop := ∃ inner, text = '<' :: (inner ++ ['>']) ∧ Unbracketed inner

theorem prefix_append_close_iff {body inner : List Char} (hbody : '>' ∉ body) (hinner : '>' ∉ inner)
    (rest : List Char) : body ++ ['>'] <+: inner ++ '>' :: rest ↔ body = inner := by
  induction body generalizing inner with
  | nil =>
    cases inner with
    | nil => simp
    | cons c inner =>
      obtain ⟨hc, -⟩ : '>' ≠ c ∧ '>' ∉ inner := by simpa using hinner
      simp [List.cons_prefix_cons, hc]
  | cons b body ih =>
    obtain ⟨hb, hbody⟩ : '>' ≠ b ∧ '>' ∉ body := by simpa using hbody
    cases inner with
    | nil => simp [List.cons_prefix_cons, Ne.symm hb]
    | cons c inner =>
      have hinner : '>' ∉ inner := fun hmem => hinner (List.mem_cons_of_mem c hmem)
      rw [List.cons_append, List.cons_append, List.cons_prefix_cons, ih hbody hinner, List.cons.injEq]

/-- Where a tag stands, no other tag is found. -/
theorem IsTag.prefix_append_iff {word tag : List Char} (hword : IsTag word) (htag : IsTag tag)
    (rest : List Char) : word <+: tag ++ rest ↔ tag = word := by
  obtain ⟨body, rfl, -, hbody⟩ := hword
  obtain ⟨inner, rfl, -, hinner⟩ := htag
  have happend : '<' :: (inner ++ ['>']) ++ rest = '<' :: (inner ++ '>' :: rest) := by simp
  rw [happend, List.cons_prefix_cons, prefix_append_close_iff hbody hinner rest]
  simp [eq_comm]

/-- A tag is found where it stands, and not a second time inside of it. -/
theorem occurrences_tag {word tag : List Char} (hword : IsTag word) (htag : IsTag tag)
    (rest : List Char) :
    occurrences word (tag ++ rest) = (if tag = word then 1 else 0) + occurrences word rest := by
  have hfirst := hword.prefix_append_iff htag rest
  obtain ⟨inner, htagText, hopen, -⟩ := htag
  obtain ⟨body, hwordText, -⟩ := hword
  -- the word begins with `<`, and there is no other one before the tag ends
  have hinside : occurrences word (inner ++ ['>'] ++ rest) = occurrences word rest := by
    rw [hwordText]
    exact occurrences_append_of_not_mem (by simpa using hopen) _ rest
  have hcons : tag ++ rest = '<' :: (inner ++ ['>'] ++ rest) := by rw [htagText, List.cons_append]
  rw [hcons, occurrences, hinside, ← hcons]
  simp only [List.isPrefixOf_iff_prefix, hfirst]

/-! ### Tags of elements -/

theorem unbracketed_of_isName {s : String} (h : isName s = true) : Unbracketed s.toList := by
  simp only [isName, Bool.and_eq_true, List.all_eq_true] at h
  exact ⟨fun hmem => absurd (h.2 _ hmem) (by decide), fun hmem => absurd (h.2 _ hmem) (by decide)⟩

theorem unbracketed_write {a : Attribute} (h : isName a.name = true) : Unbracketed a.write := by
  rw [Attribute.write]
  refine .append (.cons (by decide) (by decide) (unbracketed_of_isName h)) ?_
  cases a.value with
  | none => exact .nil
  | some value =>
    obtain ⟨hopen, hclose, -⟩ := clean_escape value
    have hquoted : Unbracketed (escape value ++ ['\x22']) :=
      .append ⟨hopen, hclose⟩ (.cons (by decide) (by decide) .nil)
    exact .cons (by decide) (by decide) (.cons (by decide) (by decide) hquoted)

theorem isTag_closingTag {tag : String} (h : isName tag = true) : IsTag (closingTag tag) :=
  ⟨'/' :: tag.toList, rfl, .cons (by decide) (by decide) (unbracketed_of_isName h)⟩

/-- What is written for an opening tag is one tag: no name and no escaped value ends it. -/
theorem isTag_openingTag {tag : String} {attributes : List Attribute} (htag : isName tag = true)
    (hattributes : ∀ a ∈ attributes, isName a.name = true) : IsTag (openingTag tag attributes) := by
  have hwritten : Unbracketed (attributes.flatMap Attribute.write) := by
    induction attributes with
    | nil => exact .nil
    | cons a rest ih =>
      rw [List.flatMap_cons]
      exact (unbracketed_write (hattributes a (List.mem_cons_self ..))).append
        (ih fun other hmem => hattributes other (List.mem_cons_of_mem _ hmem))
  exact ⟨tag.toList ++ attributes.flatMap Attribute.write, rfl,
    (unbracketed_of_isName htag).append hwritten⟩

/-- No name begins with a slash. -/
theorem closingTag_ne_openingTag {tag other : String} {attributes : List Attribute}
    (h : isName other = true) : closingTag tag ≠ openingTag other attributes := by
  intro hsame
  simp only [isName, Bool.and_eq_true, List.all_eq_true] at h
  rw [closingTag, openingTag] at hsame
  cases hother : other.toList with
  | nil => simp [hother] at h
  | cons c name =>
    rw [hother] at hsame h
    have hslash : '/' = c := (List.cons.inj (List.cons.inj hsame).2).1
    exact absurd (h.2 c (List.mem_cons_self ..)) (hslash ▸ by decide)

/-- Tags whose names begin differently are different. -/
theorem openingTag_ne_of_head? {tag other : String} (htag : isName tag = true)
    (hother : isName other = true) (h : tag.toList.head? ≠ other.toList.head?)
    (attributes others : List Attribute) : openingTag tag attributes ≠ openingTag other others := by
  intro hsame
  rw [openingTag, openingTag] at hsame
  cases htagText : tag.toList with
  | nil => simp [isName, htagText] at htag
  | cons c name =>
    cases hotherText : other.toList with
    | nil => simp [isName, hotherText] at hother
    | cons d otherName =>
      rw [htagText, hotherText] at h hsame
      exact h (congrArg some (List.cons.inj (List.cons.inj hsame).2).1)

/-! ## Elements in markup -/

namespace Markup

mutual

/-- How many elements of a part begin with this tag. -/
def openings (word : List Char) : Markup → Nat
  | .element tag attributes content =>
    (if openingTag tag attributes = word then 1 else 0) + openingsOfAll word content
  | .void tag attributes => if openingTag tag attributes = word then 1 else 0
  | .text _ => 0
  | .raw _ => 0

/-- How many elements of several parts begin with this tag. -/
def openingsOfAll (word : List Char) : List Markup → Nat
  | [] => 0
  | part :: rest => openings word part + openingsOfAll word rest

end

theorem openingsOfAll_append (word : List Char) (parts others : List Markup) :
    openingsOfAll word (parts ++ others) = openingsOfAll word parts + openingsOfAll word others := by
  induction parts with
  | nil => simp [openingsOfAll]
  | cons part rest ih => rw [List.cons_append, openingsOfAll, openingsOfAll, ih, Nat.add_assoc]

end Markup

open Markup

/-- In tidy markup an opening tag is found as often as there are elements with it, whatever follows. -/
theorem Tidy.occurrences_writeAll_append {lead : Bool} {parts : List Markup} (h : Tidy lead parts)
    {tag : String} {attributes : List Attribute} (htag : isName tag = true)
    (hattributes : ∀ a ∈ attributes, isName a.name = true) (rest : List Char) :
    occurrences (openingTag tag attributes) (writeAll parts ++ rest) =
      openingsOfAll (openingTag tag attributes) parts +
        occurrences (openingTag tag attributes) rest := by
  have hword : IsTag (openingTag tag attributes) := isTag_openingTag htag hattributes
  -- by induction on the markup, where `rest` begins with the closing tags of what is around it
  induction h generalizing rest with
  | nil => simp [openingsOfAll]
  | @text s others _ ih =>
    rw [writeAll, write, List.append_assoc, openingsOfAll, openings, Nat.zero_add, ← ih rest]
    exact occurrences_append_of_not_mem (clean_escape s).1 _ _
  | @element _ other found content others hother _ hfound _ _ ihcontent ihothers =>
    have hopening : IsTag (openingTag other found) := isTag_openingTag hother hfound
    have hwritten : writeAll (.element other found content :: others) ++ rest =
        openingTag other found ++
          (writeAll content ++ (closingTag other ++ (writeAll others ++ rest))) := by
      simp [writeAll, write]
    rw [hwritten, occurrences_tag hword hopening, ihcontent,
      occurrences_tag hword (isTag_closingTag hother), if_neg (closingTag_ne_openingTag htag), ihothers,
      openingsOfAll, openings]
    omega
  | @void _ other found others hother _ hfound _ ih =>
    rw [writeAll, write, List.append_assoc, occurrences_tag hword (isTag_openingTag hother hfound), ih,
      openingsOfAll, openings, Nat.add_assoc]

theorem Tidy.occurrences_writeAll {lead : Bool} {parts : List Markup} (h : Tidy lead parts)
    {tag : String} {attributes : List Attribute} (htag : isName tag = true)
    (hattributes : ∀ a ∈ attributes, isName a.name = true) :
    occurrences (openingTag tag attributes) (writeAll parts) =
      openingsOfAll (openingTag tag attributes) parts := by
  have happend := h.occurrences_writeAll_append htag hattributes []
  rwa [List.append_nil] at happend

end SchemaForm.Html
