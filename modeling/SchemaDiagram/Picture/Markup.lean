import SchemaDiagram.Text.Basic

/-! # Markup

The elements of a picture and their written form. All text that is not part of a tag's own form is
escaped.
-/
namespace SchemaDiagram

/-- The written form of a character of text or of an attribute. -/
def escapeChar (c : Char) : Text :=
  if c = '&' then "&amp;".toList
  else if c = '<' then "&lt;".toList
  else if c = '>' then "&gt;".toList
  else if c = '"' then "&quot;".toList
  else [c]

def escape (t : Text) : Text := t.flatMap escapeChar

structure Attribute where
  name : String
  value : Text
  deriving DecidableEq, Repr

/-- A tag with its attributes. -/
structure Tag where
  name : String
  attributes : List Attribute
  deriving DecidableEq, Repr

inductive Element
  /-- An element without content. -/
  | leaf (tag : Tag)
  | text (tag : Tag) (content : Text)
  deriving DecidableEq, Repr

namespace Attribute

def write (a : Attribute) : Text := ' ' :: a.name.toList ++ '=' :: '"' :: escape a.value ++ ['"']

end Attribute

namespace Tag

/-- The tag without its brackets. -/
def write (t : Tag) : Text := t.name.toList ++ t.attributes.flatMap Attribute.write

def opening (t : Tag) : Text := '<' :: t.write ++ ['>']

def closing (t : Tag) : Text := '<' :: '/' :: t.name.toList ++ ['>']

end Tag

/-- Every element stands on a line of its own. -/
def Element.write : Element → Text
  | leaf tag => '<' :: tag.write ++ " />\n".toList
  | text tag content => tag.opening ++ escape content ++ tag.closing ++ ['\n']

/-- An element around others, each of its tags on a line of its own. -/
def Tag.around (t : Tag) (content : Text) : Text := t.opening ++ '\n' :: content ++ t.closing ++ ['\n']

end SchemaDiagram
