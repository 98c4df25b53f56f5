import SyntaxDiagram.Markup.Escape

/-!
# Markup

A markup tree is made of elements with attributes, running text and style sheets. `Markup.write` is
the only place where a tree becomes text.
-/

namespace SyntaxDiagram

/-- A markup tree. -/
inductive Markup where
  | element (tag : String) (attributes : List (String × AttributeValue)) (children : List Markup)
  | text (value : String)
  | style (css : String)
  deriving Repr

namespace Markup

/-! ### Building -/

/-- An element that holds a text, or nothing if the text is empty. -/
def withText (tag : String) (attributes : List (String × AttributeValue)) (text : String) :
    Markup :=
  .element tag attributes (if text.isEmpty then [] else [.text text])

/-- An element without content. -/
def leaf (tag : String) (attributes : List (String × AttributeValue)) : Markup :=
  .element tag attributes []

/-! ### Writing -/

/-- An attribute inserted into a list in the order of names. -/
def insertAttribute (field : String × AttributeValue) :
    List (String × AttributeValue) → List (String × AttributeValue)
  | [] => [field]
  | first :: rest =>
    if first.1 < field.1 then first :: insertAttribute field rest else field :: first :: rest

/-- Attributes in the order of the code points of their names. -/
def sortAttributes (attributes : List (String × AttributeValue)) :
    List (String × AttributeValue) :=
  attributes.foldr insertAttribute []

/-- Attributes as they stand in a tag. -/
def writeAttributes : List (String × AttributeValue) → Except Fault String
  | [] => .ok ""
  | (name, value) :: rest => do
    let value ← value.write
    let rest ← writeAttributes rest
    return " " ++ name ++ "=\"" ++ value ++ "\"" ++ rest

/-- Whether the content of an element starts on a new line. -/
def opensLine (tag : String) : Bool :=
  tag == "g" || tag == "svg"

/-- A style sheet as it is written, protected from being read as markup. -/
def writeStyle (css : String) : String :=
  "<style>/* <![CDATA[ */\n" ++ css ++ "\n/* ]]> */\n</style>"

mutual

/-- The text of a markup tree. -/
def write : Markup → Except Fault String
  | .element tag attributes children => do
    let attributes ← writeAttributes (sortAttributes attributes)
    let content ← writeAll children
    return "<" ++ tag ++ attributes ++ ">" ++ (if opensLine tag then "\n" else "") ++ content ++
      "</" ++ tag ++ ">"
  | .text value => .ok (escapeText value)
  | .style css => .ok (writeStyle css)

/-- The text of some markup trees in a row. -/
def writeAll : List Markup → Except Fault String
  | [] => .ok ""
  | child :: rest => do
    let child ← write child
    let rest ← writeAll rest
    return child ++ rest

end

/-! ### Exact text -/

/-- The exact text of an attribute. -/
def debugAttribute (field : String × AttributeValue) : String :=
  quoted field.1 ++ ": " ++ field.2.debug

mutual

/-- The exact text of a markup tree. -/
def debug : Markup → String
  | .element tag attributes children =>
    "SvgElement(" ++ tag ++ ", \x7b" ++ ", ".intercalate (attributes.map debugAttribute) ++
      "\x7d, [" ++ ", ".intercalate (debugAll children) ++ "])"
  | .text value => quoted value
  | .style css => "Style(" ++ quoted css ++ ")"

/-- The exact texts of some markup trees. -/
def debugAll : List Markup → List String
  | [] => []
  | child :: rest => debug child :: debugAll rest

end

example :
    ((Markup.withText "g" [("b", .text "x\"y"), ("a", .number (.int 2))] "1<2").write).toOption =
      some "<g a=\"2\" b=\"x&quot;y\">\n1&lt;2</g>" := by
  decide +kernel

end Markup

end SyntaxDiagram
