/-!
# Markup

HTML as a tree, so that every element that is opened is closed, and text that cannot be taken for
markup.

* `Attribute`, `Markup` — the tree;
* `escape` — a text with entities for the characters that markup is made of;
* `Markup.write` — the text of the tree.
-/

namespace SchemaForm.Html

/-- An attribute: with a value, or a flag without one. -/
structure Attribute where
  name : String
  value : Option String
  deriving DecidableEq, Repr

/-- A part of an HTML document. -/
inductive Markup where
  /-- Characters between the tags. -/
  | text (s : String)
  | element (tag : String) (attributes : List Attribute) (content : List Markup)
  /-- An element without content and closing tag. -/
  | void (tag : String) (attributes : List Attribute)
  /-- HTML from elsewhere, which is not looked into. -/
  | raw (html : String)

/-! ## Text -/

/-- A character as it is written in text and in the values of attributes. -/
def escapeChar (c : Char) : List Char :=
  if c = '&' then "&amp;".toList
  else if c = '<' then "&lt;".toList
  else if c = '>' then "&gt;".toList
  else if c = '\x22' then "&quot;".toList
  else if c = '\'' then "&#x27;".toList
  else [c]

/-- A text as `escape` writes it, with quotes, in text and in the values of attributes. -/
def escape (s : String) : List Char := s.toList.flatMap escapeChar

/-! ## Writing -/

namespace Attribute

/-- The attribute with the blank before it. -/
def write (a : Attribute) : List Char :=
  ' ' :: a.name.toList ++
    match a.value with
    | some value => '=' :: '\x22' :: (escape value ++ ['\x22'])
    | none => []

end Attribute

/-- The opening tag of an element. -/
def openingTag (tag : String) (attributes : List Attribute) : List Char :=
  '<' :: tag.toList ++ attributes.flatMap Attribute.write ++ ['>']

/-- The closing tag of an element. -/
def closingTag (tag : String) : List Char := '<' :: '/' :: tag.toList ++ ['>']

namespace Markup

mutual

/-- The text of a part. -/
def write : Markup → List Char
  | .text s => escape s
  | .element tag attributes content =>
    openingTag tag attributes ++ (writeAll content ++ closingTag tag)
  | .void tag attributes => openingTag tag attributes
  | .raw html => html.toList

/-- The text of parts that follow each other. -/
def writeAll : List Markup → List Char
  | [] => []
  | part :: rest => write part ++ writeAll rest

end

@[simp] theorem writeAll_nil : writeAll [] = [] := by simp [writeAll]

theorem writeAll_append (parts others : List Markup) :
    writeAll (parts ++ others) = writeAll parts ++ writeAll others := by
  induction parts with
  | nil => simp
  | cons part rest ih => simp [writeAll, ih]

end Markup

end SchemaForm.Html
