/-!
# Words at the front of a text

* `afterWord?` — the rest of a text after a word that it starts with;
* `replacePair` — a character in the place of a pair of characters.
-/

namespace SchemaForm.Text

/-- The rest of a text after a word, if it starts with it. -/
def afterWord? : List Char → List Char → Option (List Char)
  | [], text => some text
  | w :: word, c :: text => if w = c then afterWord? word text else none
  | _ :: _, [] => none

/-- Exactly the texts that start with the word have a rest. -/
theorem afterWord?_eq_some_iff {word text rest : List Char} :
    afterWord? word text = some rest ↔ text = word ++ rest := by
  induction word generalizing text with
  | nil => simp [afterWord?]
  | cons w word ih =>
    cases text with
    | nil => simp [afterWord?]
    | cons c text =>
      by_cases h : w = c
      · simp [afterWord?, h, ih]
      · simp [afterWord?, h, Ne.symm h]

/-- Replaces a pair of characters by one, from the front on. -/
def replacePair (first second new : Char) : List Char → List Char
  | a :: b :: rest =>
    if a = first ∧ b = second then new :: replacePair first second new rest
    else a :: replacePair first second new (b :: rest)
  | text => text

end SchemaForm.Text
