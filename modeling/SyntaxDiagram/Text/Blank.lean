import SyntaxDiagram.Text.Ranges

/-!
# Blank characters

The white space, separators and line breaks that are dropped at both ends of a name.
-/

namespace SyntaxDiagram

/-- The code points of blanks. -/
def blankRanges : List (Nat × Nat) := [
  (0x9, 0xd), (0x1c, 0x20), (0x85, 0x85), (0xa0, 0xa0), (0x1680, 0x1680), (0x2000, 0x200a),
  (0x2028, 0x2029), (0x202f, 0x202f), (0x205f, 0x205f), (0x3000, 0x3000)
]

/-- Whether a character is blank. -/
def isBlank (c : Char) : Bool :=
  inRanges blankRanges c.toNat

/-- The characters without the blanks at both ends. -/
def trimBlanks (chars : List Char) : List Char :=
  ((chars.dropWhile isBlank).reverse.dropWhile isBlank).reverse

example : trimBlanks [' ', '\t', 'a', ' ', 'b', '\u00a0'] = ['a', ' ', 'b'] := by decide +kernel

end SyntaxDiagram
