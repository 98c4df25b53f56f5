import SyntaxDiagram.Text.Printable

/-!
# Quoted text

The quoted form of a text: between two equal quotes, with the quote, the backslash and whatever is
not printable escaped, so that the form shows every character and two texts never share one.
-/

namespace SyntaxDiagram

/-- The lower-case hexadecimal digits of `n`, at least `width` of them. -/
def hexDigits (width n : Nat) : List Char :=
  let digits := Nat.toDigits 16 n
  List.replicate (width - digits.length) '0' ++ digits

/-- The escape of a character by its code point, in two, four or eight digits. -/
def escapeCodePoint (n : Nat) : List Char :=
  if n < 0x100 then '\\' :: 'x' :: hexDigits 2 n
  else if n < 0x10000 then '\\' :: 'u' :: hexDigits 4 n
  else '\\' :: 'U' :: hexDigits 8 n

/-- A character as it stands between the quotes `quote`. -/
def quoteChar (quote c : Char) : List Char :=
  if c = quote ∨ c = '\\' then ['\\', c]
  else if c = '\n' then ['\\', 'n']
  else if c = '\r' then ['\\', 'r']
  else if c = '\t' then ['\\', 't']
  else if isPrintable c then [c]
  else escapeCodePoint c.toNat

/-- The quote for a text: a double one only for a text with a single and no double quote in it. -/
def chooseQuote (chars : List Char) : Char :=
  if chars.contains '\'' && !chars.contains '"' then '"' else '\''

/-- The quoted form of a list of characters. -/
def quoteChars (chars : List Char) : List Char :=
  let quote := chooseQuote chars
  quote :: chars.flatMap (quoteChar quote) ++ [quote]

/-- The quoted form of a text. -/
def quoted (text : String) : String :=
  String.ofList (quoteChars text.toList)

example : quoted "a\nb" = "'a\\nb'" ∧ quoted "it's" = "\"it's\"" := by decide +kernel

example : quoteChars ['\u200b', '\x7f'] = "'\\u200b\\x7f'".toList := by decide +kernel

end SyntaxDiagram
