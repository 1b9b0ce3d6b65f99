/-!
# Decimal numbers

Integer literals are runs of ASCII digits. Numbers on the command line are read more freely
(`integer?`): blanks around, a sign, single underscores between digits, and the decimal digits of
any script. Neither may have more than `digitLimit` digits.
-/

namespace AnonymousObjects.Text.Decimal

/-- The largest number of digits of an integer, leading zeros included. -/
def digitLimit : Nat := 4300

/-- The number that digit values denote, the most significant first. -/
def ofDigits (ds : List Nat) : Nat :=
  ds.foldl (fun n d => 10 * n + d) 0

/-- The number that ASCII digits denote. -/
def ofText (s : String) : Nat :=
  ofDigits (s.toList.map fun c => c.toNat - 48)

/-- The digit zero of each script that has decimal digits, as of Unicode 14. The digits one to
nine follow it. -/
def zeros : List Nat :=
  [0x30, 0x660, 0x6F0, 0x7C0, 0x966, 0x9E6, 0xA66, 0xAE6, 0xB66, 0xBE6, 0xC66, 0xCE6, 0xD66, 0xDE6,
    0xE50, 0xED0, 0xF20, 0x1040, 0x1090, 0x17E0, 0x1810, 0x1946, 0x19D0, 0x1A80, 0x1A90, 0x1B50,
    0x1BB0, 0x1C40, 0x1C50, 0xA620, 0xA8D0, 0xA900, 0xA9D0, 0xA9F0, 0xAA50, 0xABF0, 0xFF10, 0x104A0,
    0x10D30, 0x11066, 0x110F0, 0x11136, 0x111D0, 0x112F0, 0x11450, 0x114D0, 0x11650, 0x116C0,
    0x11730, 0x118E0, 0x11950, 0x11C50, 0x11D50, 0x11DA0, 0x16A60, 0x16AC0, 0x16B50, 0x1D7CE,
    0x1D7D8, 0x1D7E2, 0x1D7EC, 0x1D7F6, 0x1E140, 0x1E2F0, 0x1E950, 0x1FBF0]

/-- The value of a decimal digit of any script. -/
def digit? (c : Char) : Option Nat :=
  (zeros.find? fun z => z ≤ c.toNat ∧ c.toNat < z + 10).map (c.toNat - ·)

/-- The blanks that may surround a number. -/
def isBlank (c : Char) : Bool :=
  c.toNat ∈ [0x09, 0x0A, 0x0B, 0x0C, 0x0D, 0x20, 0x85, 0xA0, 0x1680, 0x2028, 0x2029, 0x202F, 0x205F,
    0x3000] || (0x2000 ≤ c.toNat && c.toNat ≤ 0x200A)

/-- The values of digits with single underscores between them. An underscore may come, and the
text may end, only after a digit. -/
def spacedDigits? : (afterDigit : Bool) → List Char → Option (List Nat)
  | afterDigit, [] => if afterDigit then some [] else none
  | afterDigit, c :: cs =>
    if c = '_' then if afterDigit then spacedDigits? false cs else none
    else do
      let d ← digit? c
      let ds ← spacedDigits? true cs
      pure (d :: ds)

/-- The number of a text without blanks and sign, within the limit. -/
def natural? (cs : List Char) : Option Nat := do
  let ds ← spacedDigits? false cs
  if ds.length ≤ digitLimit then pure (ofDigits ds) else none

/-- The integer that a text denotes. -/
def integer? (s : String) : Option Int :=
  let trimmed := ((s.toList.dropWhile isBlank).reverse.dropWhile isBlank).reverse
  match trimmed with
  | '-' :: cs => (natural? cs).map fun n => -(n : Int)
  | '+' :: cs => (natural? cs).map Int.ofNat
  | cs => (natural? cs).map Int.ofNat

end AnonymousObjects.Text.Decimal
