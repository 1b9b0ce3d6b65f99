/-!
# Text as code points

A string literal may denote halves of surrogate pairs, which no `Char` stands for. Text that can
contain a literal is therefore a list of code points, surrogates included. `toString?` says which
texts are strings, and `toString?_ofString` that every string is one. A class of characters is the
list of code points at which it begins and ends.
-/

namespace AnonymousObjects

/-- A code point, from `U+0000` to `U+10FFFF`, surrogates included. -/
abbrev CodePoint := Fin 0x110000

namespace CodePoint

/-- The code point of a character. -/
def ofChar (c : Char) : CodePoint :=
  ⟨c.toNat, by
    rcases c.valid with h | h
    · exact Nat.lt_trans h (by decide)
    · exact h.2⟩

/-- The character at a code point, unless it is a surrogate. -/
def toChar? (p : CodePoint) : Option Char :=
  if h : p.val.isValidChar then some (Char.ofNatAux p.val h) else none

/-- Half of a surrogate pair. -/
def IsSurrogate (p : CodePoint) : Prop :=
  0xD800 ≤ p.val ∧ p.val ≤ 0xDFFF

/-- Two comparisons decide whether a code point is a surrogate. -/
instance (p : CodePoint) : Decidable p.IsSurrogate :=
  inferInstanceAs (Decidable (_ ∧ _))

/-- Reading back the code point of a character gives the character. -/
theorem toChar?_ofChar (c : Char) : (ofChar c).toChar? = some c := by
  have h : (ofChar c).val.isValidChar := c.valid
  rw [toChar?, dif_pos h]
  exact congrArg some (Char.ext (UInt32.toNat_inj.mp rfl))

end CodePoint

/-- A text, as its code points in order. -/
abbrev Text := List CodePoint

namespace Text

/-- A character is in a class of code points when the class begins or ends an odd number of times up
to it. The places where it does are given in increasing order. -/
def isWithin (changes : List Nat) (c : Char) : Bool :=
  (changes.takeWhile (· ≤ c.toNat)).length % 2 == 1

/-- The code points of a string. -/
def ofString (s : String) : Text :=
  s.toList.map CodePoint.ofChar

/-- The string with these code points, unless one of them is a surrogate. -/
def toString? (t : Text) : Option String :=
  (t.mapM CodePoint.toChar?).map String.ofList

/-- Texts placed one after another with `separator` between them. -/
def joinWith (separator : Text) : List Text → Text
  | [] => []
  | [t] => t
  | t :: u :: rest => t ++ separator ++ joinWith separator (u :: rest)

/-- The code points of two strings in a row are those of the one and then those of the other. -/
@[simp] theorem ofString_append (s t : String) : ofString (s ++ t) = ofString s ++ ofString t := by
  simp [ofString]

/-- Every string is a text without surrogates. -/
theorem toString?_ofString (s : String) : (ofString s).toString? = some s := by
  have h : ∀ cs : List Char, (cs.map CodePoint.ofChar).mapM CodePoint.toChar? = some cs := by
    intro cs
    induction cs with
    | nil => rfl
    | cons c cs ih => simp [List.mapM_cons, CodePoint.toChar?_ofChar, ih]
  simp [toString?, ofString, h]

end Text

end AnonymousObjects
