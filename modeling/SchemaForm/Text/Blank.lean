/-!
# Blank characters

* `isWhiteSpace` — the characters with the Unicode property `White_Space`;
* `isBlank` — those and the four information separators U+001C to U+001F;
* `trim` — cuts the characters of a class off both ends of a text.

Two readers of numbers differ in which of the two classes they cut off.
-/

namespace SchemaForm.Text

/-- The characters with the Unicode property `White_Space`. -/
def isWhiteSpace (c : Char) : Bool :=
  let n := c.toNat
  (0x09 ≤ n && n ≤ 0x0d) || n == 0x20 || n == 0x85 || n == 0xa0 || n == 0x1680 ||
    (0x2000 ≤ n && n ≤ 0x200a) || n == 0x2028 || n == 0x2029 || n == 0x202f || n == 0x205f ||
    n == 0x3000

/-- White space and the information separators U+001C to U+001F. -/
def isBlank (c : Char) : Bool :=
  isWhiteSpace c || (0x1c ≤ c.toNat && c.toNat ≤ 0x1f)

/-- Every white-space character is blank. -/
theorem isBlank_of_isWhiteSpace {c : Char} (h : isWhiteSpace c = true) : isBlank c = true := by
  simp [isBlank, h]

/-- Cuts the characters of a class off the end. -/
def trimEnd (drop : Char → Bool) (text : List Char) : List Char :=
  (text.reverse.dropWhile drop).reverse

/-- Cuts the characters of a class off both ends. -/
def trim (drop : Char → Bool) (text : List Char) : List Char :=
  trimEnd drop (text.dropWhile drop)

/-- A text without characters of the class stays as it is. -/
theorem trim_eq_self {drop : Char → Bool} {text : List Char}
    (h : ∀ c ∈ text, drop c = false) : trim drop text = text := by
  have keep : ∀ l : List Char, (∀ c ∈ l, drop c = false) → l.dropWhile drop = l := by
    intro l hl
    cases l with
    | nil => rfl
    | cons a l => simp [hl a (by simp)]
  rw [trim, keep text h, trimEnd, keep text.reverse fun c hc => h c (List.mem_reverse.1 hc)]
  exact List.reverse_reverse text

end SchemaForm.Text
