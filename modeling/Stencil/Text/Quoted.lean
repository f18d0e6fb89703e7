import Stencil.Text.Hex
import Stencil.Text.Printable

/-!
# Quoted text

How a message shows a text or a character that it speaks about: between quotes, with the quote
itself, the backslash, tabs, line ends and NUL escaped by a letter, and everything that has no glyph
of its own written as `\u` and the code point in braces. A text is quoted with `"`, a single
character with `'`, and each leaves the other's quote alone.
-/

namespace Stencil.Text

/-- One character of a quoted text whose quote is `mark`. -/
def escape (mark c : Char) : List Char :=
  if c == '\x00' then ['\\', '0']
  else if c == '\t' then ['\\', 't']
  else if c == '\r' then ['\\', 'r']
  else if c == '\n' then ['\\', 'n']
  else if c == '\\' || c == mark then ['\\', c]
  else if isPrintable c then [c]
  else ['\\', 'u', '{'] ++ hexDigits c.toNat ++ ['}']

/-- A text between double quotes. -/
def quote (s : String) : String :=
  String.ofList ('"' :: s.toList.flatMap (escape '"') ++ ['"'])

/-- A character between single quotes. -/
def quoteChar (c : Char) : String :=
  String.ofList ('\'' :: escape '\'' c ++ ['\''])

end Stencil.Text
