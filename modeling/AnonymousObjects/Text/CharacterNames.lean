/-!
# Names of characters

An escape in a string literal may give a character by its name, such as `BULLET`. Which names there
are and what they name is the matter of Unicode, so `CharacterNames` stands for any list of them;
all that is asked of it is that names are written as Unicode writes them.
-/

namespace AnonymousObjects.Text

/-- The characters that names are written with: ASCII letters and digits, the space and the
hyphen. -/
def inCharacterName (c : Char) : Bool :=
  c.isAlphanum || c == ' ' || c == '-'

/-- The characters that have names. -/
class CharacterNames where
  /-- The character of a name. -/
  find? : List Char → Option Char
  /-- A text with any other character is no name. -/
  all_inCharacterName : ∀ {name c}, find? name = some c → name.all inCharacterName = true

end AnonymousObjects.Text
