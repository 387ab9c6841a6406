import SchemaForm.Scope

/-!
# References to properties

`scope_for` writes a reference for every name, and `scope_to_property_name` reads it by looking for the marker
in a line of text. So a name comes back from its reference unless it is empty or has a line feed in it.

* `Scope.unescape_escape` — what is escaped comes back, whatever it is;
* `Scope.name_ofName` — what is read from the reference of a name;
* `Scope.name_ofName_eq_iff` — the names that come back;
* `Scope.ofName_injective` — the reference of a name is that of no other one, also if it does not come
  back.
-/

namespace SchemaForm

namespace Text

/-- A pair begins with its first character. -/
theorem replacePair_cons_of_ne {first a : Char} (h : a ≠ first) (second new : Char) (rest : List Char) :
    replacePair first second new (a :: rest) = a :: replacePair first second new rest := by
  cases rest with
  | nil => rfl
  | cons b rest => simp [replacePair, h]

theorem replacePair_cons_cons_of_ne {second b : Char} (h : b ≠ second) (first new : Char)
    (rest : List Char) :
    replacePair first second new (first :: b :: rest) =
      first :: replacePair first second new (b :: rest) := by
  simp [replacePair, h]

theorem replacePair_pair (first second new : Char) (rest : List Char) :
    replacePair first second new (first :: second :: rest) =
      new :: replacePair first second new rest := by
  simp [replacePair]

end Text

namespace Scope

open SchemaForm.Text

/-! ## Escapes -/

/-- A text with all its characters escaped. -/
def escape (text : List Char) : List Char := text.flatMap escapeChar

theorem ofName_eq (name : String) : ofName name = String.ofList (marker ++ escape name.toList) := rfl

theorem escape_cons (c : Char) (rest : List Char) : escape (c :: rest) = escapeChar c ++ escape rest :=
  List.flatMap_cons

theorem escape_eq_nil_iff {text : List Char} : escape text = [] ↔ text = [] := by
  cases text with
  | nil => simp [escape]
  | cons c rest =>
    rw [escape_cons, escapeChar]
    split
    · simp
    · split <;> simp

/-- A slash in an escaped text would look like that of a marker. -/
theorem slash_not_mem_escape (text : List Char) : '/' ∉ escape text := by
  intro hmem
  obtain ⟨c, -, hc⟩ := List.mem_flatMap.mp hmem
  rw [escapeChar] at hc
  split at hc
  · simp at hc
  · split at hc
    · simp at hc
    · next hne => exact hne (List.mem_singleton.mp hc).symm

/-- The text in which the escapes of `/` have been undone. -/
def unslash (text : List Char) : List Char :=
  text.flatMap fun c => if c = '~' then ['~', '0'] else [c]

/-- Undoing `~1` in an escaped name leaves the escapes of `~` alone. -/
theorem replacePair_escape (text : List Char) : replacePair '~' '1' '/' (escape text) = unslash text := by
  induction text with
  | nil => rfl
  | cons c rest ih =>
    rw [escape_cons, unslash, List.flatMap_cons, ← unslash, ← ih, escapeChar]
    by_cases htilde : c = '~'
    · rw [if_pos htilde, if_pos htilde]
      show replacePair '~' '1' '/' ('~' :: '0' :: escape rest) = '~' :: '0' :: _
      rw [replacePair_cons_cons_of_ne (by decide), replacePair_cons_of_ne (by decide)]
      rfl
    · rw [if_neg htilde, if_neg htilde]
      by_cases hslash : c = '/'
      · rw [if_pos hslash, hslash]
        exact replacePair_pair '~' '1' '/' (escape rest)
      · rw [if_neg hslash]
        exact replacePair_cons_of_ne htilde '1' '/' (escape rest)

theorem replacePair_unslash (text : List Char) : replacePair '~' '0' '~' (unslash text) = text := by
  induction text with
  | nil => rfl
  | cons c rest ih =>
    rw [unslash, List.flatMap_cons, ← unslash]
    by_cases htilde : c = '~'
    · rw [if_pos htilde, htilde]
      exact (replacePair_pair '~' '0' '~' (unslash rest)).trans (congrArg _ ih)
    · rw [if_neg htilde]
      exact (replacePair_cons_of_ne htilde '0' '~' (unslash rest)).trans (congrArg _ ih)

/-- What is escaped comes back. -/
theorem unescape_escape (text : List Char) : unescape (escape text) = text := by
  rw [unescape, replacePair_escape, replacePair_unslash]

/-- Escaping each character is the same as first escaping every `~` and then every `/`: the first pass
writes no slash that the second one could take for one of the text. -/
theorem escape_eq_flatMap (text : List Char) :
    escape text = (unslash text).flatMap fun c => if c = '/' then ['~', '1'] else [c] := by
  have hpasses : escapeChar = fun c =>
      (if c = '~' then ['~', '0'] else [c]).flatMap fun c => if c = '/' then ['~', '1'] else [c] := by
    funext c
    by_cases htilde : c = '~' <;> by_cases hslash : c = '/' <;> simp [escapeChar, htilde, hslash]
  rw [unslash, List.flatMap_assoc, escape, hpasses]

/-- No two names have the same reference. -/
theorem ofName_injective : Function.Injective ofName := by
  intro name other hsame
  rw [ofName_eq, ofName_eq, String.ofList_inj, List.append_cancel_left_eq] at hsame
  refine String.toList_inj.mp ?_
  rw [← unescape_escape name.toList, hsame, unescape_escape]

/-- Escapes do not touch line breaks. -/
theorem restOfLine_escape (text : List Char) : restOfLine (escape text) = escape (restOfLine text) := by
  induction text with
  | nil => rfl
  | cons c rest ih =>
    by_cases hbreak : c = '\n'
    · subst hbreak
      rfl
    · have hline : restOfLine (c :: rest) = c :: restOfLine rest := by simp [restOfLine, hbreak]
      have hescaped : ∀ d ∈ escapeChar c, (d != '\n') = true := by
        rw [escapeChar]
        split
        · simp
        · split
          · simp
          · simpa using hbreak
      rw [hline, escape_cons, escape_cons, ← ih, restOfLine, List.takeWhile_append_of_pos hescaped]
      rfl

/-! ## Finding a reference -/

theorem reference?_append_of_not_mem {front : List Char} (h : '#' ∉ front) (text : List Char) :
    reference? (front ++ text) = reference? text := by
  induction front with
  | nil => rfl
  | cons c front ih =>
    obtain ⟨hc, hfront⟩ : '#' ≠ c ∧ '#' ∉ front := by simpa using h
    have hnone : afterWord? marker (c :: (front ++ text)) = none := by
      rw [show marker = '#' :: "/properties/".toList from rfl, afterWord?, if_neg hc]
    rw [List.cons_append, reference?, hnone]
    exact ih hfront

/-- Where there is no slash, there is no reference. -/
theorem reference?_of_not_mem {text : List Char} (h : '/' ∉ text) : reference? text = none := by
  induction text with
  | nil => rfl
  | cons c rest ih =>
    have hnone : afterWord? marker (c :: rest) = none := by
      rw [Option.eq_none_iff_forall_ne_some]
      intro found hfound
      rw [afterWord?_eq_some_iff] at hfound
      rw [hfound] at h
      exact h (List.mem_append_left _ (by decide))
    rw [reference?, hnone]
    exact ih fun hmem => h (List.mem_cons_of_mem c hmem)

/-- A text that starts with the marker is a reference if something follows in the line. If nothing does,
it is none, as there is no other slash. -/
theorem reference?_marker {text : List Char} (h : '/' ∉ text) :
    reference? (marker ++ text) = if restOfLine text = [] then none else some (restOfLine text) := by
  have hfound : afterWord? marker (marker ++ text) = some text := afterWord?_eq_some_iff.mpr rfl
  -- without its `#` the marker is none, and a second one would need a slash
  have htail : reference? ("/properties/".toList ++ text) = none := by
    rw [reference?_append_of_not_mem (by decide)]
    exact reference?_of_not_mem h
  show reference? ('#' :: ("/properties/".toList ++ text)) = _
  rw [reference?]
  rw [show afterWord? marker ('#' :: ("/properties/".toList ++ text)) = some text from hfound]
  cases hline : restOfLine text with
  | nil => simpa [hline] using htail
  | cons d line => simp [hline]

/-! ## Names that come back -/

/-- What is read from the reference of a name: the first line of the name, or the reference itself if
there is nothing in that line. -/
theorem name_ofName (name : String) :
    Scope.name (ofName name) =
      if restOfLine name.toList = [] then ofName name else String.ofList (restOfLine name.toList) := by
  rw [Scope.name, ofName_eq, String.toList_ofList, reference?_marker (slash_not_mem_escape _),
    restOfLine_escape]
  by_cases hline : restOfLine name.toList = []
  · rw [if_pos (escape_eq_nil_iff.mpr hline), if_pos hline]
  · rw [if_neg (mt escape_eq_nil_iff.mp hline), if_neg hline]
    dsimp only
    rw [unescape_escape]

theorem restOfLine_eq_self_iff {text : List Char} : restOfLine text = text ↔ '\n' ∉ text := by
  induction text with
  | nil => simp [restOfLine]
  | cons c rest ih =>
    rw [restOfLine] at ih
    by_cases hbreak : c = '\n'
    · simp [restOfLine, hbreak]
    · simp [restOfLine, hbreak, ih, Ne.symm hbreak]

/-- A name comes back from its reference exactly if there is something in it, and no line break. -/
theorem name_ofName_eq_iff {name : String} :
    Scope.name (ofName name) = name ↔ name ≠ "" ∧ '\n' ∉ name.toList := by
  have hempty : name = "" ↔ name.toList = [] := String.toList_eq_nil_iff.symm
  rw [name_ofName, ← restOfLine_eq_self_iff]
  by_cases hline : restOfLine name.toList = []
  · rw [if_pos hline]
    constructor
    · -- a reference begins with the marker, and so its first line is not empty
      intro hsame
      rw [← hsame, ofName_eq, String.toList_ofList] at hline
      cases hline
    · rintro ⟨hne, hsame⟩
      exact absurd (hempty.mpr (hsame.symm.trans hline)) hne
  · rw [if_neg hline]
    constructor
    · intro hsame
      refine ⟨fun hnil => hline ?_, ?_⟩
      · rw [hempty.mp hnil]
        rfl
      · exact String.toList_ofList.symm.trans (congrArg String.toList hsame)
    · rintro ⟨-, hsame⟩
      rw [hsame, String.ofList_toList]

/-- **References stand for names.** A name comes back from its reference exactly if there is something in it
and no line break, and no two names have the same reference, whatever there is in them. -/
theorem encoding_undone_iff :
    (∀ name : String, Scope.name (ofName name) = name ↔ name ≠ "" ∧ '\n' ∉ name.toList) ∧
      Function.Injective ofName :=
  ⟨fun _ => name_ofName_eq_iff, ofName_injective⟩

/-- A name that looks like what escapes look like comes back. -/
example : Scope.name (ofName "~1/~01~0~1") = "~1/~01~0~1" := by decide +kernel

end Scope

end SchemaForm
