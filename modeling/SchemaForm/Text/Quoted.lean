import SchemaForm.Text.Printable

/-!
# Quoted text

The way a text is shown inside a list, an object or a message: between quotes, with escapes for what
would not be seen. Single quotes are used unless the text holds one and no double quote.

* `hexDigits` — a number in hexadecimal with leading zeros;
* `escapeWith` — one character between given quotes;
* `quoted` — the whole text.
-/

namespace SchemaForm.Text

/-- The lower-case hexadecimal digits of a number, at least `width` of them. -/
def hexDigits (width n : Nat) : List Char :=
  let digits := Nat.toDigits 16 n
  List.replicate (width - digits.length) '0' ++ digits

/-- The single quote. -/
def singleQuote : Char := '\x27'

/-- The double quote. -/
def doubleQuote : Char := '\x22'

/-- One character between quotes: the quote itself and the backslash take a backslash; line feed,
carriage return and tab have short names; what is not printable is written by its code point in two,
four or eight digits. -/
def escapeWith (quote c : Char) : List Char :=
  if c == quote || c == '\\' then ['\\', c]
  else if c == '\n' then ['\\', 'n']
  else if c == '\r' then ['\\', 'r']
  else if c == '\t' then ['\\', 't']
  else if isPrintable c then [c]
  else if c.toNat < 0x100 then '\\' :: 'x' :: hexDigits 2 c.toNat
  else if c.toNat < 0x10000 then '\\' :: 'u' :: hexDigits 4 c.toNat
  else '\\' :: 'U' :: hexDigits 8 c.toNat

/-- The quote a text is put between. -/
def quoteFor (text : List Char) : Char :=
  if text.contains singleQuote && !text.contains doubleQuote then doubleQuote else singleQuote

/-- A text between quotes. -/
def quoted (text : String) : String :=
  let quote := quoteFor text.toList
  String.ofList (quote :: (text.toList.flatMap (escapeWith quote) ++ [quote]))

end SchemaForm.Text
