import SchemaForm.Proofs.Scope
import Mathlib.Data.List.TakeWhile

/-!
# References as pointers

By its form a reference is a pointer: the marker, and behind it the name with its escapes, up to the end of
the text. What `scope_to_property_name` reads as a reference is something else: a marker anywhere in the text,
and behind it the rest of the line. This module says for which texts that makes no difference.

* `Scope.pointed` — the name by the form of a pointer;
* `Scope.exists_of_reference?`, `Scope.reference?_eq_none_iff` — what is found in a text, and when nothing
  is;
* `Scope.name_eq_pointed_iff` — the texts that are read as pointers are.
-/

namespace SchemaForm

namespace Text

/-- A pair is replaced by less than it was. -/
theorem length_replacePair_le (first second new : Char) (text : List Char) :
    (replacePair first second new text).length ≤ text.length := by
  fun_induction replacePair first second new text with
  | case1 a b rest hpair ih => simp only [List.length_cons]; omega
  | case2 a b rest hpair ih => simpa only [List.length_cons, Nat.add_le_add_iff_right] using ih
  | case3 text => exact Nat.le_refl _

/-- A character that has nothing to do with a pair stays. -/
theorem mem_replacePair_iff {c first second new : Char} (hfirst : c ≠ first) (hsecond : c ≠ second)
    (hnew : c ≠ new) {text : List Char} : c ∈ replacePair first second new text ↔ c ∈ text := by
  fun_induction replacePair first second new text with
  | case1 a b rest hpair ih => simp [hpair, hfirst, hsecond, hnew, ih]
  | case2 a b rest hpair ih => simp only [List.mem_cons] at ih ⊢; rw [ih]
  | case3 text => exact Iff.rfl

end Text

namespace Scope

open SchemaForm.Text

variable {text escaped : List Char} {scope : String}

/-! ## The form of a pointer -/

/-- The name in a pointer: all that stands behind the marker, without its escapes. A text of any other form
is the name itself. -/
def pointed (scope : String) : String :=
  match afterWord? marker scope.toList with
  | some (c :: escaped) => String.ofList (unescape (c :: escaped))
  | _ => scope

theorem pointed_of_marker {c : Char} (h : scope.toList = marker ++ c :: escaped) :
    pointed scope = String.ofList (unescape (c :: escaped)) := by
  rw [pointed, afterWord?_eq_some_iff.mpr h]

/-- A marker at the end of a text points to nothing. -/
theorem pointed_of_forall_ne (h : ∀ c escaped, scope.toList ≠ marker ++ c :: escaped) :
    pointed scope = scope := by
  rw [pointed]
  split
  · next c escaped hfound => exact absurd (afterWord?_eq_some_iff.mp hfound) (h c escaped)
  · rfl

theorem length_unescape_le (text : List Char) : (unescape text).length ≤ text.length :=
  Nat.le_trans (length_replacePair_le ..) (length_replacePair_le ..)

theorem newline_mem_unescape_iff : '\n' ∈ unescape text ↔ '\n' ∈ text := by
  rw [unescape, mem_replacePair_iff (by decide) (by decide) (by decide),
    mem_replacePair_iff (by decide) (by decide) (by decide)]

/-! ## What is found in a text -/

theorem newline_not_mem_restOfLine (text : List Char) : '\n' ∉ restOfLine text := by
  intro hmem
  simpa using List.mem_takeWhile_imp hmem

theorem restOfLine_cons_of_ne {c : Char} (h : c ≠ '\n') (rest : List Char) :
    restOfLine (c :: rest) = c :: restOfLine rest := by
  simp [restOfLine, h]

/-- A line in which there is something begins with the first character of the text. -/
theorem exists_cons_of_restOfLine_ne_nil (h : restOfLine text ≠ []) :
    ∃ c rest, text = c :: rest ∧ c ≠ '\n' := by
  cases text with
  | nil => exact absurd rfl h
  | cons c rest =>
    refine ⟨c, rest, rfl, ?_⟩
    rintro rfl
    exact h rfl

/-- Something behind a marker at the front is what is found. -/
theorem reference?_of_restOfLine_ne_nil (h : restOfLine text ≠ []) :
    reference? (marker ++ text) = some (restOfLine text) := by
  have hfound : afterWord? marker ('#' :: ("/properties/".toList ++ text)) = some text :=
    afterWord?_eq_some_iff.mpr rfl
  show reference? ('#' :: ("/properties/".toList ++ text)) = _
  rw [reference?, hfound, Option.map_some]
  obtain ⟨d, name, hline⟩ := List.exists_cons_of_ne_nil h
  rw [hline]

/-- What is found is the rest of a line behind a marker. -/
theorem exists_of_reference? (h : reference? text = some escaped) :
    ∃ front rest, text = front ++ marker ++ rest ∧ escaped = restOfLine rest ∧ escaped ≠ [] := by
  induction text with
  | nil => cases h
  | cons c rest ih =>
    rw [reference?] at h
    split at h
    · next d name hfound =>
      obtain ⟨behind, hword, hline⟩ := Option.map_eq_some_iff.mp hfound
      cases h
      exact ⟨[], behind, afterWord?_eq_some_iff.mp hword, hline.symm, List.cons_ne_nil d name⟩
    · obtain ⟨front, behind, rfl, hline, hne⟩ := ih h
      exact ⟨c :: front, behind, rfl, hline, hne⟩

/-- What is found is shorter than the text, and it has no line break. -/
theorem bounds_of_reference? (h : reference? text = some escaped) :
    escaped.length < text.length ∧ '\n' ∉ escaped := by
  obtain ⟨front, rest, rfl, rfl, -⟩ := exists_of_reference? h
  refine ⟨?_, newline_not_mem_restOfLine rest⟩
  have hline : (restOfLine rest).length ≤ rest.length := (List.takeWhile_sublist _).length_le
  have hmarker : 0 < marker.length := by decide
  rw [List.length_append, List.length_append]
  omega

/-- Where a marker stands in the middle of a line, something is found. -/
theorem reference?_ne_none (front : List Char) (h : restOfLine text ≠ []) :
    reference? (front ++ marker ++ text) ≠ none := by
  induction front with
  | nil =>
    rw [List.nil_append, reference?_of_restOfLine_ne_nil h]
    exact Option.some_ne_none _
  | cons c front ih =>
    rw [List.cons_append, List.cons_append, reference?]
    split
    · exact Option.some_ne_none _
    · exact ih

/-- Nothing is found exactly if each marker stands at the end of its line. -/
theorem reference?_eq_none_iff :
    reference? text = none ↔ ∀ front c rest, text = front ++ marker ++ c :: rest → c = '\n' := by
  constructor
  · rintro hnone front c rest rfl
    by_contra hc
    refine reference?_ne_none front ?_ hnone
    rw [restOfLine_cons_of_ne hc]
    exact List.cons_ne_nil _ _
  · intro h
    rw [Option.eq_none_iff_forall_ne_some]
    intro escaped hfound
    obtain ⟨front, behind, htext, rfl, hne⟩ := exists_of_reference? hfound
    obtain ⟨c, rest, rfl, hc⟩ := exists_cons_of_restOfLine_ne_nil hne
    exact hc (h front c rest htext)

/-! ## Texts that are read as pointers -/

/-- A text is the name itself exactly if nothing is found in it, for what is found is shorter. -/
theorem name_eq_self_iff : Scope.name scope = scope ↔ reference? scope.toList = none := by
  rw [Scope.name]
  cases hfound : reference? scope.toList with
  | none => simp
  | some escaped =>
    refine iff_of_false (fun hsame => ?_) (Option.some_ne_none _)
    have hname : unescape escaped = scope.toList :=
      String.toList_ofList.symm.trans (congrArg String.toList hsame)
    have hlength := length_unescape_le escaped
    rw [hname] at hlength
    exact absurd (bounds_of_reference? hfound).1 (Nat.not_lt.mpr hlength)

/-- A pointer is read as one exactly if it is a single line. -/
theorem name_eq_pointed_iff_of_marker {c : Char} (h : scope.toList = marker ++ c :: escaped) :
    Scope.name scope = pointed scope ↔ '\n' ∉ c :: escaped := by
  have hpointed := pointed_of_marker h
  constructor
  · intro hsame hbreak
    -- the pointer has a name with a line break, which neither a line nor the text itself can be
    have hname : (Scope.name scope).toList = unescape (c :: escaped) := by
      rw [hsame, hpointed, String.toList_ofList]
    cases hfound : reference? scope.toList with
    | some line =>
      rw [Scope.name, hfound, String.toList_ofList] at hname
      have hline : '\n' ∉ unescape line := mt newline_mem_unescape_iff.mp (bounds_of_reference? hfound).2
      rw [hname, newline_mem_unescape_iff] at hline
      exact hline hbreak
    | none =>
      have hlength := length_unescape_le (c :: escaped)
      rw [Scope.name, hfound] at hname
      rw [← hname, h, List.length_append] at hlength
      have hmarker : 0 < marker.length := by decide
      omega
  · intro hbreak
    have hline : restOfLine (c :: escaped) = c :: escaped := restOfLine_eq_self_iff.mpr hbreak
    have hfound : reference? scope.toList = some (c :: escaped) := by
      rw [h, reference?_of_restOfLine_ne_nil (by rw [hline]; exact List.cons_ne_nil c escaped), hline]
    rw [Scope.name, hfound, hpointed]

/-- **The texts that are read as pointers are.** A text that begins with the marker is read as a pointer if
it is a single line, and never else. Any other text is the name itself if each marker in it stands at the
end of a line, and never else. -/
theorem name_eq_pointed_iff :
    Scope.name scope = pointed scope ↔
      if marker <+: scope.toList then '\n' ∉ scope.toList
      else ∀ front c rest, scope.toList = front ++ marker ++ c :: rest → c = '\n' := by
  have hmarker : '\n' ∉ marker := by decide
  split
  · next hprefix =>
    obtain ⟨text, htext⟩ := hprefix
    rw [← htext, List.mem_append, or_iff_right hmarker]
    cases text with
    | cons c escaped => exact name_eq_pointed_iff_of_marker htext.symm
    | nil =>
      -- the marker alone points to nothing, and nothing is found in it
      rw [List.append_nil] at htext
      have hpointed : pointed scope = scope :=
        pointed_of_forall_ne fun c escaped h => by simp [← htext] at h
      have hnone : reference? scope.toList = none := by rw [← htext]; decide
      rw [hpointed]
      exact iff_of_true (name_eq_self_iff.mpr hnone) List.not_mem_nil
  · next hother =>
    have hpointed : pointed scope = scope :=
      pointed_of_forall_ne fun c escaped h => hother ⟨c :: escaped, h.symm⟩
    rw [hpointed, name_eq_self_iff, reference?_eq_none_iff]

/-- A marker within a text, and a line break behind a marker. -/
theorem reference_not_pointer :
    Scope.name "see #/properties/qty" = "qty" ∧ pointed "see #/properties/qty" = "see #/properties/qty" ∧
      Scope.name "#/properties/two\nlines" = "two" ∧ pointed "#/properties/two\nlines" = "two\nlines" := by
  decide +kernel

end Scope

end SchemaForm
