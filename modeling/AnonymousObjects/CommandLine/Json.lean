import AnonymousObjects.Text.CodePoint
import AnonymousObjects.Text.Hex

/-!
# JSON

The report for tools is one JSON value on one line: a blank after each comma and colon, the members
of objects in the order given, and no character outside printable ASCII. A code point above `U+FFFF`
is written as a surrogate pair.
-/

namespace AnonymousObjects

/-- A JSON value without fractions. -/
inductive Json where
  | null
  | bool (b : Bool)
  | int (n : Int)
  | text (t : Text)
  | list (items : List Json)
  | object (members : List (String × Json))

namespace Json

/-- A string as a value. -/
def string (s : String) : Json :=
  .text (Text.ofString s)

/-- One UTF-16 unit as an escape. -/
def unitEscape (n : Nat) : List Char :=
  '\\' :: 'u' :: Text.Hex.digits 4 n

/-- A code point inside a JSON string. -/
def escaped (p : CodePoint) : List Char :=
  let n := p.val
  if n = 0x22 ∨ n = 0x5C then ['\\', Char.ofNat n]
  else if 0x20 ≤ n ∧ n ≤ 0x7E then [Char.ofNat n]
  else if n = 0x0A then ['\\', 'n']
  else if n = 0x0D then ['\\', 'r']
  else if n = 0x09 then ['\\', 't']
  else if n = 0x0C then ['\\', 'f']
  else if n = 0x08 then ['\\', 'b']
  else if n ≤ 0xFFFF then unitEscape n
  else
    let m := n - 0x10000
    unitEscape (0xD800 + m / 0x400) ++ unitEscape (0xDC00 + m % 0x400)

/-- A text as a JSON string. -/
def quoted (t : Text) : String :=
  "\"" ++ String.ofList (t.flatMap escaped) ++ "\""

mutual

/-- The text of a value. -/
def render : Json → String
  | null => "null"
  | bool b => if b then "true" else "false"
  | int n => toString n
  | text t => quoted t
  | list items => "[" ++ String.intercalate ", " (renderAll items) ++ "]"
  | object members => "\x7b" ++ String.intercalate ", " (renderMembers members) ++ "\x7d"

/-- The texts of values. -/
def renderAll : List Json → List String
  | [] => []
  | j :: js => render j :: renderAll js

/-- The texts of the members of an object. -/
def renderMembers : List (String × Json) → List String
  | [] => []
  | (key, j) :: rest => (quoted (Text.ofString key) ++ ": " ++ render j) :: renderMembers rest

end

end Json

end AnonymousObjects
