/-!
# Decimal digits

The characters of the Unicode category `Nd` come in runs of ten that stand for zero to nine; `zeros`
holds the first of each run. `digitValue?` gives the value of such a character, and `asciiDigits`
writes every digit of a text as an ASCII one.
-/

namespace SchemaForm.Text

/-- Whether a character is one of the ten ASCII digits. -/
def isAsciiDigit (c : Char) : Bool := 0x30 ≤ c.toNat && c.toNat ≤ 0x39

/-- The code points of the digits zero. -/
def zeros : List Nat :=
  [0x30, 0x660, 0x6f0, 0x7c0, 0x966, 0x9e6, 0xa66, 0xae6, 0xb66, 0xbe6, 0xc66, 0xce6, 0xd66, 0xde6,
    0xe50, 0xed0, 0xf20, 0x1040, 0x1090, 0x17e0, 0x1810, 0x1946, 0x19d0, 0x1a80, 0x1a90, 0x1b50,
    0x1bb0, 0x1c40, 0x1c50, 0xa620, 0xa8d0, 0xa900, 0xa9d0, 0xa9f0, 0xaa50, 0xabf0, 0xff10, 0x104a0,
    0x10d30, 0x11066, 0x110f0, 0x11136, 0x111d0, 0x112f0, 0x11450, 0x114d0, 0x11650, 0x116c0,
    0x11730, 0x118e0, 0x11950, 0x11c50, 0x11d50, 0x11da0, 0x16a60, 0x16ac0, 0x16b50, 0x1d7ce,
    0x1d7d8, 0x1d7e2, 0x1d7ec, 0x1d7f6, 0x1e140, 0x1e2f0, 0x1e950, 0x1fbf0]

example : zeros.length = 66 := rfl

/-- The value of a decimal digit of any script. -/
def digitValue? (c : Char) : Option Nat :=
  (zeros.find? fun first => first ≤ c.toNat && c.toNat ≤ first + 9).map (c.toNat - ·)

/-- A digit of any script as an ASCII digit; any other character as it is. -/
def asciiDigit (c : Char) : Char :=
  if isAsciiDigit c then c else
    match digitValue? c with
    | some value => Char.ofNat (0x30 + value)
    | none => c

/-- Writes every decimal digit as an ASCII digit. -/
def asciiDigits (text : List Char) : List Char := text.map asciiDigit

theorem asciiDigit_of_isAsciiDigit {c : Char} (h : isAsciiDigit c = true) : asciiDigit c = c := by
  simp [asciiDigit, h]

/-- A character below U+0080 stays as it is. -/
theorem asciiDigit_of_lt {c : Char} (h : c.toNat < 0x80) : asciiDigit c = c := by
  unfold asciiDigit
  split
  · rfl
  · next hd =>
    have : digitValue? c = none := by
      simp only [digitValue?, Option.map_eq_none_iff, List.find?_eq_none]
      intro first hz
      simp only [isAsciiDigit, Bool.and_eq_true, decide_eq_true_eq, not_and] at hd ⊢
      have hall : ∀ z ∈ zeros, z = 0x30 ∨ 0x80 ≤ z := by decide
      rcases hall first hz with rfl | hz
      · exact fun h0 h9 => hd h0 h9
      · omega
    rw [this]

end SchemaForm.Text
