import Mathlib.Tactic.SplitIfs
import SchemaForm.Html.Markup

/-!
# Reading HTML again

A reader of HTML sees characters only. This module splits them into tags and runs of text, without any
knowledge of where they come from.

* `unescape` — a text with the characters for which its entities stand;
* `Token`, `scan` — what stands in a fragment of HTML, character by character; a quote ends the value of an
  attribute, and `<` ends a run of text, whatever was meant;
* `nested` — every element that is opened is closed, in the right order;
* `runs`, `rawValues`, `outline` — the texts, the values of attributes, and the tags without them;
* `scanFrom_openingTag`, `scanFrom_closingTag` — tags that were written are read as what they were.
-/

namespace SchemaForm.Html

/-! ## Entities -/

/-- A text with the characters for which its entities stand. -/
def unescape : List Char → List Char
  | '&' :: 'a' :: 'm' :: 'p' :: ';' :: rest => '&' :: unescape rest
  | '&' :: 'l' :: 't' :: ';' :: rest => '<' :: unescape rest
  | '&' :: 'g' :: 't' :: ';' :: rest => '>' :: unescape rest
  | '&' :: 'q' :: 'u' :: 'o' :: 't' :: ';' :: rest => '\x22' :: unescape rest
  | '&' :: '#' :: 'x' :: '2' :: '7' :: ';' :: rest => '\'' :: unescape rest
  | c :: rest => c :: unescape rest
  | [] => []

theorem unescape_cons {c : Char} (h : c ≠ '&') (rest : List Char) :
    unescape (c :: rest) = c :: unescape rest := by
  rw [unescape.eq_def]
  split <;> simp_all

/-- The entity of a character is read as the character. -/
theorem unescape_escapeChar (c : Char) (rest : List Char) :
    unescape (escapeChar c ++ rest) = c :: unescape rest := by
  by_cases hamp : c = '&'
  · subst hamp; simp [escapeChar, unescape]
  by_cases hlt : c = '<'
  · subst hlt; simp [escapeChar, unescape]
  by_cases hgt : c = '>'
  · subst hgt; simp [escapeChar, unescape]
  by_cases hquote : c = '\x22'
  · subst hquote; simp [escapeChar, unescape]
  by_cases hsingle : c = '\''
  · subst hsingle; simp [escapeChar, unescape]
  simp [escapeChar, hamp, hlt, hgt, hquote, hsingle, unescape_cons]

/-- Entities are read back as the characters for which they were written. -/
@[simp] theorem unescape_escape (s : String) : unescape (escape s) = s.toList := by
  rw [escape]
  induction s.toList with
  | nil => rfl
  | cons c rest ih => rw [List.flatMap_cons, unescape_escapeChar, ih]

/-- The characters have none of those among them by which a reader knows tags and values. -/
def Clean (cs : List Char) : Prop := '<' ∉ cs ∧ '>' ∉ cs ∧ '\x22' ∉ cs

theorem clean_escape (s : String) : Clean (escape s) := by
  have hchar : ∀ c, Clean (escapeChar c) := by
    intro c
    unfold escapeChar Clean
    split_ifs <;> simp_all [eq_comm]
  simp only [Clean, escape, List.mem_flatMap, not_exists, not_and]
  exact ⟨fun c _ => (hchar c).1, fun c _ => (hchar c).2.1, fun c _ => (hchar c).2.2⟩

/-! ## Reading -/

/-- An attribute as it stands in a tag; a flag has no value. -/
structure RawAttribute where
  name : String
  value : Option (List Char)
  deriving DecidableEq, Repr

/-- What stands in a fragment of HTML. -/
inductive Token where
  | text (run : List Char)
  | opening (tag : String) (attributes : List RawAttribute)
  | closing (tag : String)
  deriving DecidableEq, Repr

/-- The characters of names. -/
def isNameChar (c : Char) : Bool := c.isAlphanum || c == '-'

/-- Whether a text is the name of a tag or an attribute. -/
def isName (s : String) : Bool := s.toList != [] && s.toList.all isNameChar

/-- What is named by the name that is read. -/
inductive Named where
  | opening
  | closing
  | attr (tag : String) (before : List RawAttribute)

/-- Where in a fragment a reader is, with what was read of the token at hand. -/
inductive Place where
  | text (run : List Char)
  | tagStart
  | name (named : Named) (name : List Char)
  | valueStart (tag : String) (before : List RawAttribute) (name : String)
  | value (tag : String) (before : List RawAttribute) (name : String) (value : List Char)
  | valueEnd (tag : String) (attributes : List RawAttribute)

/-- A run of text that has come to its end, if there is any. -/
def flush (run : List Char) : List Token := if run = [] then [] else [.text run]

/-- After the name of a tag, or after an attribute. -/
def tagGoesOn (tag : String) (attributes : List RawAttribute) (c : Char) :
    Option (List Token × Place) :=
  if c = ' ' then some ([], .name (.attr tag attributes) [])
  else if c = '>' then some ([.opening tag attributes], .text [])
  else none

/-- After a name. -/
def Named.ended (name : String) (c : Char) : Named → Option (List Token × Place)
  | .opening => tagGoesOn name [] c
  | .closing => if c = '>' then some ([.closing name], .text []) else none
  | .attr tag before =>
    if c = '=' then some ([], .valueStart tag before name)
    else tagGoesOn tag (before ++ [⟨name, none⟩]) c

/-- One character further: the tokens that end with it, and where the reader is then. Nothing else is
HTML. -/
def Place.next (c : Char) : Place → Option (List Token × Place)
  | .text run => if c = '<' then some (flush run, .tagStart) else some ([], .text (run ++ [c]))
  | .tagStart =>
    if c = '/' then some ([], .name .closing [])
    else if isNameChar c then some ([], .name .opening [c])
    else none
  | .name named cs =>
    if isNameChar c then some ([], .name named (cs ++ [c]))
    else if cs = [] then none
    else named.ended (String.ofList cs) c
  | .valueStart tag before key =>
    if c = '\x22' then some ([], .value tag before key []) else none
  | .value tag before key cs =>
    if c = '\x22' then some ([], .valueEnd tag (before ++ [⟨key, some cs⟩]))
    else some ([], .value tag before key (cs ++ [c]))
  | .valueEnd tag attributes => tagGoesOn tag attributes c

/-- The tokens from some place on. -/
def scanFrom : Place → List Char → Option (List Token)
  | .text run, [] => some (flush run)
  | _, [] => none
  | place, c :: rest => do
    let (found, place) ← place.next c
    let others ← scanFrom place rest
    return found ++ others

/-- The tokens of a fragment of HTML, if it is one. -/
def scan (html : String) : Option (List Token) := scanFrom (.text []) html.toList

/-! ## What is in a fragment -/

/-- Whether an element has neither content nor closing tag. -/
def isVoid (tag : String) : Bool := tag == "input"

/-- Whether every element that is opened is closed, the last one first; `stack` are the elements that are
open at the beginning. -/
def nested : List String → List Token → Bool
  | stack, [] => stack.isEmpty
  | stack, .text _ :: rest => nested stack rest
  | stack, .opening tag _ :: rest => nested (if isVoid tag then stack else tag :: stack) rest
  | top :: stack, .closing tag :: rest => top == tag && nested stack rest
  | [], .closing _ :: _ => false

/-- The runs of text, as they stand in the fragment. -/
def runs : List Token → List (List Char)
  | [] => []
  | .text run :: rest => run :: runs rest
  | .opening _ _ :: rest => runs rest
  | .closing _ :: rest => runs rest

/-- The values of attributes, as they stand in the fragment. -/
def rawValues : List Token → List (List Char)
  | [] => []
  | .text _ :: rest => rawValues rest
  | .opening _ attributes :: rest => attributes.filterMap RawAttribute.value ++ rawValues rest
  | .closing _ :: rest => rawValues rest

/-- A tag without the values of its attributes. -/
inductive Mark where
  | opening (tag : String) (attributes : List String)
  | closing (tag : String)
  deriving DecidableEq, Repr

/-- The tags, with the names of their attributes. -/
def outline : List Token → List Mark
  | [] => []
  | .text _ :: rest => outline rest
  | .opening tag attributes :: rest => .opening tag (attributes.map RawAttribute.name) :: outline rest
  | .closing tag :: rest => .closing tag :: outline rest

@[simp] theorem runs_append (tokens more : List Token) :
    runs (tokens ++ more) = runs tokens ++ runs more := by
  induction tokens with
  | nil => rfl
  | cons token rest ih => cases token <;> simp [runs, ih]

@[simp] theorem rawValues_append (tokens more : List Token) :
    rawValues (tokens ++ more) = rawValues tokens ++ rawValues more := by
  induction tokens with
  | nil => rfl
  | cons token rest ih => cases token <;> simp [rawValues, ih]

@[simp] theorem outline_append (tokens more : List Token) :
    outline (tokens ++ more) = outline tokens ++ outline more := by
  induction tokens with
  | nil => rfl
  | cons token rest ih => cases token <;> simp [outline, ih]

/-! ## Steps of a reader -/

variable {place : Place} {rest : List Char} {run : List Char} {tag : String}
  {attributes : List RawAttribute}

theorem scanFrom_cons {c : Char} {found : List Token} {after : Place}
    (h : place.next c = some (found, after)) :
    scanFrom place (c :: rest) = (scanFrom after rest).map (found ++ ·) := by
  rw [scanFrom, h]
  · cases hrest : scanFrom after rest <;> simp [hrest]

/-- Within a token nothing is found. -/
theorem scanFrom_step {c : Char} {after : Place} (h : place.next c = some ([], after)) :
    scanFrom place (c :: rest) = scanFrom after rest := by
  rw [scanFrom_cons h]
  simp

theorem scanFrom_text {cs : List Char} (h : '<' ∉ cs) :
    scanFrom (.text run) (cs ++ rest) = scanFrom (.text (run ++ cs)) rest := by
  induction cs generalizing run with
  | nil => simp
  | cons c cs ih =>
    obtain ⟨hc, hcs⟩ := not_or.mp (mt List.mem_cons.mpr h)
    have hnext : Place.next c (.text run) = some ([], .text (run ++ [c])) := by
      rw [Place.next, if_neg (Ne.symm hc)]
    rw [List.cons_append, scanFrom_step hnext, ih hcs, List.append_assoc]
    rfl

/-- Characters without a quote go on with the value of an attribute. -/
theorem scanFrom_value {name : String} {value cs : List Char} (h : '\x22' ∉ cs) :
    scanFrom (.value tag attributes name value) (cs ++ rest) =
      scanFrom (.value tag attributes name (value ++ cs)) rest := by
  induction cs generalizing value with
  | nil => simp
  | cons c cs ih =>
    obtain ⟨hc, hcs⟩ := not_or.mp (mt List.mem_cons.mpr h)
    have hnext : Place.next c (.value tag attributes name value) =
        some ([], .value tag attributes name (value ++ [c])) := by
      rw [Place.next, if_neg (Ne.symm hc)]
    rw [List.cons_append, scanFrom_step hnext, ih hcs, List.append_assoc]
    rfl

theorem scanFrom_name {named : Named} {name cs : List Char} (h : cs.all isNameChar = true) :
    scanFrom (.name named name) (cs ++ rest) = scanFrom (.name named (name ++ cs)) rest := by
  induction cs generalizing name with
  | nil => simp
  | cons c cs ih =>
    rw [List.all_cons, Bool.and_eq_true] at h
    have hnext : Place.next c (.name named name) = some ([], .name named (name ++ [c])) := by
      rw [Place.next, if_pos h.1]
    rw [List.cons_append, scanFrom_step hnext, ih h.2, List.append_assoc]
    rfl

/-- A run of text ends where a tag begins. -/
theorem scanFrom_run (run rest : List Char) :
    scanFrom (.text run) ('<' :: rest) =
      (scanFrom (.text []) ('<' :: rest)).map (flush run ++ ·) := by
  have hnext : ∀ run, Place.next '<' (.text run) = some (flush run, .tagStart) := fun run => by
    rw [Place.next, if_pos rfl]
  rw [scanFrom_cons (hnext run), scanFrom_cons (hnext [])]
  simp [flush]

/-! ## Tags that were written -/

/-- The attribute as it stands in a tag. -/
def Attribute.raw (a : Attribute) : RawAttribute := ⟨a.name, a.value.map escape⟩

/-- The reader has read the tag up to here, and knows that neither a name nor a value goes on. -/
def ReadyFor (tag : String) (attributes : List RawAttribute) (place : Place) : Prop :=
  ∀ c, isNameChar c = false → c ≠ '=' → place.next c = tagGoesOn tag attributes c

theorem readyFor_name {named : Named} {s : String} (hs : isName s = true)
    (h : ∀ c, c ≠ '=' → named.ended s c = tagGoesOn tag attributes c) :
    ReadyFor tag attributes (.name named s.toList) := by
  intro c hc heq
  rw [isName, Bool.and_eq_true, bne_iff_ne] at hs
  rw [Place.next, hc, if_neg hs.1, String.ofList_toList]
  exact h c heq

/-- One attribute is read with the blank before it, and then the tag may go on or end. -/
theorem scanFrom_attribute (hready : ReadyFor tag attributes place) {a : Attribute}
    (ha : isName a.name = true) :
    ∃ after, ReadyFor tag (attributes ++ [a.raw]) after ∧
      ∀ rest, scanFrom place (a.write ++ rest) = scanFrom after rest := by
  obtain ⟨name, value⟩ := a
  have hchars : name.toList.all isNameChar = true := ((Bool.and_eq_true ..).mp ha).2
  have hblank : place.next ' ' = some ([], .name (.attr tag attributes) []) :=
    hready ' ' (by decide) (by decide)
  have hnamed : ∀ rest, scanFrom place (' ' :: (name.toList ++ rest)) =
      scanFrom (.name (.attr tag attributes) name.toList) rest := by
    intro rest
    rw [scanFrom_step hblank, scanFrom_name hchars]
    rfl
  cases value with
  | none =>
    refine ⟨.name (.attr tag attributes) name.toList, ?_, fun rest => ?_⟩
    · refine readyFor_name ha fun c hc => ?_
      rw [Named.ended, if_neg hc]
      rfl
    · simpa [Attribute.write] using hnamed rest
  | some value =>
    refine ⟨.valueEnd tag (attributes ++ [⟨name, some (escape value)⟩]), fun _ _ _ => rfl, ?_⟩
    intro rest
    have hequals : Place.next '=' (.name (.attr tag attributes) name.toList) =
        some ([], .valueStart tag attributes name) := by
      have hfilled : name.toList ≠ [] := bne_iff_ne.mp ((Bool.and_eq_true ..).mp ha).1
      rw [Place.next, if_neg (by decide), if_neg hfilled, String.ofList_toList]
      rfl
    have hquote : ∀ run, Place.next '\x22' (.value tag attributes name run) =
        some ([], .valueEnd tag (attributes ++ [⟨name, some run⟩])) := by simp [Place.next]
    have hopen : Place.next '\x22' (.valueStart tag attributes name) =
        some ([], .value tag attributes name []) := by simp [Place.next]
    -- a blank, the name, the sign and the quotes are one step each; the value is read as a whole
    calc scanFrom place (Attribute.write ⟨name, some value⟩ ++ rest)
        = scanFrom place
            (' ' :: (name.toList ++ ('=' :: '\x22' :: (escape value ++ '\x22' :: rest)))) := by
          simp [Attribute.write]
      _ = scanFrom (.value tag attributes name []) (escape value ++ '\x22' :: rest) := by
          rw [hnamed, scanFrom_step hequals, scanFrom_step hopen]
      _ = scanFrom (.valueEnd tag (attributes ++ [⟨name, some (escape value)⟩])) rest := by
          rw [scanFrom_value (clean_escape value).2.2, scanFrom_step (hquote _)]
          rfl

/-- The same of all attributes of a tag, by induction on them. -/
theorem scanFrom_attributes {written : List Attribute} (hready : ReadyFor tag attributes place)
    (h : ∀ a ∈ written, isName a.name = true) :
    ∃ after, ReadyFor tag (attributes ++ written.map Attribute.raw) after ∧
      ∀ rest, scanFrom place (written.flatMap Attribute.write ++ rest) = scanFrom after rest := by
  induction written generalizing attributes place with
  | nil => exact ⟨place, by simpa using hready, fun rest => rfl⟩
  | cons a others ih =>
    obtain ⟨after, hafter, hscan⟩ := scanFrom_attribute hready (h a (List.mem_cons_self ..))
    obtain ⟨last, hlast, hothers⟩ := ih hafter fun other hmem => h other (List.mem_cons_of_mem _ hmem)
    refine ⟨last, by simpa using hlast, fun rest => ?_⟩
    rw [List.flatMap_cons, List.append_assoc, hscan, hothers]

/-- An opening tag is read as what was written, after the text before it. -/
theorem scanFrom_openingTag (run : List Char) {written : List Attribute} (htag : isName tag = true)
    (h : ∀ a ∈ written, isName a.name = true) (rest : List Char) :
    scanFrom (.text run) (openingTag tag written ++ rest) =
      (scanFrom (.text []) rest).map
        (flush run ++ .opening tag (written.map Attribute.raw) :: ·) := by
  have hname : ∀ rest, scanFrom .tagStart (tag.toList ++ rest) =
      scanFrom (.name .opening tag.toList) rest := by
    intro rest
    rw [isName, Bool.and_eq_true, bne_iff_ne] at htag
    obtain ⟨hfilled, hchars⟩ := htag
    cases htag : tag.toList with
    | nil => exact absurd htag hfilled
    | cons c cs =>
      rw [htag, List.all_cons, Bool.and_eq_true] at hchars
      have hslash : c ≠ '/' := by
        rintro rfl
        exact absurd hchars.1 (by decide)
      have hfirst : Place.tagStart.next c = some ([], .name .opening [c]) := by
        rw [Place.next, if_neg hslash, if_pos hchars.1]
      rw [List.cons_append, scanFrom_step hfirst, scanFrom_name hchars.2]
      rfl
  have hnamed : ReadyFor tag [] (.name .opening tag.toList) := readyFor_name htag fun _ _ => rfl
  obtain ⟨after, hready, hscan⟩ := scanFrom_attributes hnamed h
  have hclose : after.next '>' = some ([.opening tag (written.map Attribute.raw)], .text []) :=
    hready '>' (by decide) (by decide)
  have hbegin : Place.next '<' (.text run) = some (flush run, .tagStart) := by simp [Place.next]
  rw [openingTag, List.cons_append, List.cons_append, List.cons_append, scanFrom_cons hbegin,
    List.append_assoc, List.append_assoc, hname, hscan, List.singleton_append, scanFrom_cons hclose]
  simp [Function.comp_def]

/-- A closing tag ends the text before it, and a new one begins. -/
theorem scanFrom_closingTag (run : List Char) (htag : isName tag = true) (rest : List Char) :
    scanFrom (.text run) (closingTag tag ++ rest) =
      (scanFrom (.text []) rest).map (flush run ++ .closing tag :: ·) := by
  rw [isName, Bool.and_eq_true, bne_iff_ne] at htag
  have hbegin : Place.next '<' (.text run) = some (flush run, .tagStart) := by simp [Place.next]
  have hslash : Place.tagStart.next '/' = some ([], .name .closing []) := by simp [Place.next]
  have hclose : Place.next '>' (.name .closing tag.toList) = some ([.closing tag], .text []) := by
    rw [Place.next, if_neg (by decide), if_neg htag.1, String.ofList_toList]
    rfl
  rw [closingTag, List.cons_append, List.cons_append, List.cons_append, scanFrom_cons hbegin,
    List.cons_append, scanFrom_step hslash, List.append_assoc, scanFrom_name htag.2, List.nil_append,
    List.singleton_append, scanFrom_cons hclose]
  simp [Function.comp_def]

end SchemaForm.Html
