/-!
# XML documents

An `Xml` is an element with its attributes and what it holds.  `Xml.write` gives its text, without
any blanks of its own.
-/

namespace Screencast

/-- A part of a document. -/
inductive Xml where
  | element (name : String) (attributes : List (String × List Char)) (children : List Xml)
  | text (content : List Char)
  /-- Text that is written without escapes. -/
  | raw (content : List Char)
  deriving Inhabited, Repr

namespace Xml

/-- Whether a document can hold a character: all but control characters and the two that are no
characters, though tabs and line ends are allowed. -/
def allows (c : Char) : Bool :=
  (0x20 ≤ c.toNat && c.toNat ≠ 0xfffe && c.toNat ≠ 0xffff) || c = '\t' || c = '\n' || c = '\r'

/-- One character of a text. -/
def escapeText (c : Char) : List Char :=
  if c = '&' then "&amp;".toList
  else if c = '<' then "&lt;".toList
  else if c = '>' then "&gt;".toList
  else if c = '\r' then "&#13;".toList
  else [c]

/-- One character of the value of an attribute. -/
def escapeAttribute (c : Char) : List Char :=
  if c = '"' then "&quot;".toList
  else if c = '\t' then "&#9;".toList
  else if c = '\n' then "&#10;".toList
  else escapeText c

/-- Text between the marks for raw text, which are closed and opened again where the text holds the
closing one. -/
def rawContent : List Char → List Char
  | ']' :: ']' :: '>' :: rest => "]]]]><![CDATA[>".toList ++ rawContent rest
  | c :: rest => c :: rawContent rest
  | [] => []

def writeAttributes (attributes : List (String × List Char)) : List Char :=
  attributes.flatMap fun (name, value) =>
    ' ' :: name.toList ++ '=' :: '"' :: value.flatMap escapeAttribute ++ ['"']

mutual

/-- The text of a part of a document. -/
def write : Xml → List Char
  | .text content => content.flatMap escapeText
  | .raw content => "<![CDATA[".toList ++ rawContent content ++ "]]>".toList
  | .element name attributes [] => '<' :: name.toList ++ writeAttributes attributes ++ ['/', '>']
  | .element name attributes (child :: children) =>
    '<' :: name.toList ++ writeAttributes attributes ++ '>' :: (write child ++ writeAll children) ++
      '<' :: '/' :: name.toList ++ ['>']

/-- The texts of parts one after the other. -/
def writeAll : List Xml → List Char
  | [] => []
  | part :: rest => write part ++ writeAll rest

end

/-- The text of a document with its declaration. -/
def document (root : Xml) : List Char :=
  "<?xml version='1.0' encoding='UTF-8'?>\n".toList ++ write root

/-- An element with nothing but attributes. -/
def empty (name : String) (attributes : List (String × List Char)) : Xml :=
  .element name attributes []

end Xml

end Screencast
