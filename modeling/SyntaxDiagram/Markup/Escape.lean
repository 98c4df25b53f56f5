import SyntaxDiagram.Fault

/-!
# Escaping

Text in markup: every character that could be read as markup is replaced by an entity. The
replacement goes character by character, so it can be undone.
-/

namespace SyntaxDiagram

/-- A value of an attribute. -/
inductive AttributeValue where
  | text (value : String)
  | bool (value : Bool)
  | number (value : Number)
  deriving DecidableEq, Repr

namespace Markup

/-- A character inside an attribute value. -/
def escapeAttributeChar : Char → List Char
  | '&' => ['&', 'a', 'm', 'p', ';']
  | '\'' => ['&', 'a', 'p', 'o', 's', ';']
  | '"' => ['&', 'q', 'u', 'o', 't', ';']
  | c => [c]

/-- A character of running text, where no tag may start either. -/
def escapeTextChar : Char → List Char
  | '<' => ['&', 'l', 't', ';']
  | c => escapeAttributeChar c

/-- A text inside an attribute value. -/
def escapeAttribute (text : String) : String :=
  String.ofList (text.toList.flatMap escapeAttributeChar)

/-- Running text. -/
def escapeText (text : String) : String :=
  String.ofList (text.toList.flatMap escapeTextChar)

theorem toList_escapeAttribute (text : String) :
    (escapeAttribute text).toList = text.toList.flatMap escapeAttributeChar :=
  String.toList_ofList

theorem toList_escapeText (text : String) :
    (escapeText text).toList = text.toList.flatMap escapeTextChar :=
  String.toList_ofList

example : escapeText "a<b & 'c'" = "a&lt;b &amp; &apos;c&apos;" := by decide +kernel

end Markup

namespace AttributeValue

/-- A number as it is written in an attribute. -/
def briefNumber (value : Number) : Except Fault String :=
  Overflow.lift value.brief

/-- An attribute value as it is written: a text escaped, a number with six significant digits, a
truth value as one or zero. -/
def write : AttributeValue → Except Fault String
  | .text value => .ok (Markup.escapeAttribute value)
  | .bool value => briefNumber (.int (if value then 1 else 0))
  | .number value => briefNumber value

/-- The value as running text. -/
def writeText : AttributeValue → Except Fault String
  | .text value => .ok (Markup.escapeText value)
  | value => value.write

/-- The exact text of an attribute value. -/
def debug : AttributeValue → String
  | .text value => quoted value
  | .bool value => Datum.debugBool value
  | .number value => value.debug

end AttributeValue

end SyntaxDiagram
