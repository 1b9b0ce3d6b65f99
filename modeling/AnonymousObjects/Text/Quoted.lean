import AnonymousObjects.Text.Hex
import AnonymousObjects.Text.Printable

/-!
# Quoted text

Messages that show a piece of input show it between quotes on one line: control characters and
all else that is not printable are written as escapes, and so are the backslash and the quote in
use. The quote is an apostrophe unless the text has apostrophes and no quotation marks.
-/

namespace AnonymousObjects.Text

namespace Quoted

/-- The mark that surrounds a text. -/
def mark (cs : List Char) : Char :=
  if '\'' ∈ cs ∧ '"' ∉ cs then '"' else '\''

/-- A code point as a backslash, a letter that tells the width, and hexadecimal digits. -/
def codeEscape (n : Nat) : List Char :=
  if n ≤ 0xFF then '\\' :: 'x' :: Hex.digits 2 n
  else if n ≤ 0xFFFF then '\\' :: 'u' :: Hex.digits 4 n
  else '\\' :: 'U' :: Hex.digits 8 n

/-- One character as it stands between two marks. -/
def escaped (mark c : Char) : List Char :=
  if c = mark ∨ c = '\\' then ['\\', c]
  else if c = '\n' then ['\\', 'n']
  else if c = '\r' then ['\\', 'r']
  else if c = '\t' then ['\\', 't']
  else if isPrintable c then [c]
  else codeEscape c.toNat

/-- A text between marks. -/
def encode (cs : List Char) : List Char :=
  mark cs :: cs.flatMap (escaped (mark cs)) ++ [mark cs]

end Quoted

/-- A string as messages show it, between quotes. -/
def quoted (s : String) : String :=
  String.ofList (Quoted.encode s.toList)

end AnonymousObjects.Text
