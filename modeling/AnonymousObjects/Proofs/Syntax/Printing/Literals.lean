import AnonymousObjects.Syntax.Expr.Text
import AnonymousObjects.Syntax.Literal
import Mathlib.Algebra.Group.Nat.Defs

/-!
# Literals are read back

The digits of a number denote the number, and the text of a string with a backslash before each
backslash and quotation mark is decoded to the string.
-/

namespace AnonymousObjects

/-! ## Numbers -/

namespace Text.Decimal

/-- Digits are read as their number in base ten. -/
theorem ofDigits_eq (cs : List Char) :
    ofDigits (cs.map fun c => c.toNat - 48) = Nat.ofDigitChars 10 cs 0 := by
  simp only [ofDigits, Nat.ofDigitChars, List.foldl_map]
  rfl

/-- A number is what its digits denote. -/
theorem ofText_toString (n : Nat) : ofText (toString n) = n := by
  rw [ofText, Nat.toString_eq_ofList_toDigits, String.toList_ofList, ofDigits_eq]
  exact Nat.ofDigitChars_toDigits (by decide) (by decide)

/-- Digits denote a number below the power of ten for their number. -/
theorem ofText_lt {s : String} (h : ∀ c ∈ s.toList, c.isDigit = true) :
    ofText s < 10 ^ s.length := by
  -- Digits are read from the left, so the bound is on what any number read so far becomes.
  have hfold : ∀ (cs : List Char) (n : Nat), (∀ c ∈ cs, c.isDigit = true) →
      Nat.ofDigitChars 10 cs n < (n + 1) * 10 ^ cs.length := by
    intro cs
    induction cs with
    | nil =>
      intro n _
      simp [Nat.ofDigitChars_nil]
    | cons c cs ih =>
      intro n hcs
      have hc : c.toNat - '0'.toNat < 10 := by
        have hrange : 48 ≤ c.toNat ∧ c.toNat ≤ 57 := Char.isDigit_iff_toNat.mp (hcs c (by simp))
        show c.toNat - 48 < 10
        omega
      calc Nat.ofDigitChars 10 (c :: cs) n
          = Nat.ofDigitChars 10 cs (10 * n + (c.toNat - '0'.toNat)) := Nat.ofDigitChars_cons
        _ < (10 * n + (c.toNat - '0'.toNat) + 1) * 10 ^ cs.length :=
          ih _ fun d hd => hcs d (by simp [hd])
        _ ≤ ((n + 1) * 10) * 10 ^ cs.length := Nat.mul_le_mul_right _ (by omega)
        _ = (n + 1) * 10 ^ (c :: cs).length := by
          rw [List.length_cons, Nat.pow_succ, Nat.mul_assoc, Nat.mul_comm 10]
  have hs := hfold s.toList 0 h
  rw [ofText, ofDigits_eq, ← String.length_toList]
  simpa using hs

/-- A number is written with no more digits than it needs. -/
theorem length_toString_le {n k : Nat} (hk : 0 < k) (h : n < 10 ^ k) :
    (toString n).length ≤ k := by
  rw [Nat.toString_eq_ofList_toDigits, String.length_ofList]
  exact (Nat.length_toDigits_le_iff (by decide) hk).mpr h

/-- A number is written in digits. -/
theorem isDigit_of_mem_toString {n : Nat} {c : Char} (h : c ∈ (toString n).toList) :
    c.isDigit = true := by
  rw [Nat.toString_eq_ofList_toDigits, String.toList_ofList] at h
  exact Nat.isDigit_of_mem_toDigits (by decide) (by decide) h

end Text.Decimal

/-! ## Strings -/

namespace Text.Escape

variable [CharacterNames]

/-- Hexadecimal digits, of which more are to come, add to the value. -/
theorem decodeFrom_digits (form : HexForm) (width left value n : Nat) (rest : List Char) :
    decodeFrom (.hex form (left + 1 + width) value) (Hex.digits width n ++ rest) =
      decodeFrom (.hex form (left + 1) (16 ^ width * value + n % 16 ^ width)) rest := by
  induction width generalizing n left rest with
  | zero => simp [Hex.digits, Nat.mod_one]
  | succ width ih =>
    have hmod : n % 16 ^ (width + 1) = 16 * (n / 16 % 16 ^ width) + n % 16 := by
      rw [Nat.pow_succ', Nat.mod_mul]
      omega
    have hvalue : 16 * (16 ^ width * value + n / 16 % 16 ^ width) + n % 16 =
        16 ^ (width + 1) * value + n % 16 ^ (width + 1) := by
      rw [hmod, Nat.pow_succ', Nat.mul_add, Nat.mul_assoc]
      omega
    have hdigit := Hex.value?_digit (Nat.mod_lt n (by decide : 0 < 16))
    rw [Hex.digits, List.append_assoc, ← Nat.add_assoc, Nat.add_right_comm (left + 1), ih]
    simp [decodeFrom, hdigit, hvalue]

/-- All digits of an escape are decoded to the code point that they denote. -/
theorem decodeFrom_hex (form : HexForm) {width n : Nat} (hwidth : n < 16 ^ (width + 1))
    (hn : n < 0x110000) (rest : List Char) :
    decodeFrom (.hex form (width + 1) 0) (Hex.digits (width + 1) n ++ rest) =
      (⟨n, hn⟩ :: ·) <$> decodeFrom .plain rest := by
  have hdigits := decodeFrom_digits form width 0 0 (n / 16) (Hex.digit (n % 16) :: rest)
  have hdigit := Hex.value?_digit (Nat.mod_lt n (by decide : 0 < 16))
  have hvalue : 16 * (n / 16 % 16 ^ width) + n % 16 = n := by
    rw [Nat.mod_eq_of_lt (Nat.div_lt_of_lt_mul (by rwa [← Nat.pow_succ']))]
    omega
  have hpoint : codePoint? n = some ⟨n, hn⟩ := dif_pos hn
  rw [Hex.digits, List.append_assoc, Nat.add_comm width 1]
  rw [Nat.zero_add] at hdigits
  refine hdigits.trans ?_
  simp [decodeFrom, hdigit, hvalue, hpoint]

/-- The escape of a character is decoded to its code point. -/
theorem decodeFrom_codeEscape (c : Char) (rest : List Char) :
    decodeFrom .plain (Quoted.codeEscape c.toNat ++ rest) =
      (CodePoint.ofChar c :: ·) <$> decodeFrom .plain rest := by
  have hpoint : CodePoint.ofChar c = ⟨c.toNat, (CodePoint.ofChar c).isLt⟩ := rfl
  unfold Quoted.codeEscape
  split
  · next h => exact decodeFrom_hex .byte (by omega) _ rest
  · split
    · next h => exact decodeFrom_hex .short (by omega) _ rest
    · exact decodeFrom_hex .long (Nat.lt_trans (CodePoint.ofChar c).isLt (by decide)) _ rest

/-- A backslash before every backslash and quotation mark. -/
def guardedChars (cs : List Char) : List Char :=
  cs.flatMap fun c => if c = '\\' ∨ c = '"' then ['\\', c] else [c]

/-- A guarded character is decoded to its code point. -/
theorem decodeFrom_guarded (c : Char) (rest : List Char) :
    decodeFrom .plain (narrowed (guardedChars [c]) ++ rest) =
      (CodePoint.ofChar c :: ·) <$> decodeFrom .plain rest := by
  by_cases hslash : c = '\\'
  · subst hslash
    rfl
  · by_cases hquote : c = '"'
    · subst hquote
      rfl
    · by_cases hwide : c.toNat ≤ 0xFF
      · simp [guardedChars, narrowed, hslash, hquote, hwide, decodeFrom]
      · simpa [guardedChars, narrowed, hslash, hquote, hwide] using decodeFrom_codeEscape c rest

/-- A guarded text is decoded to the text. -/
theorem decode_guardedChars (cs : List Char) :
    decode (guardedChars cs) = .ok (cs.map CodePoint.ofChar) := by
  induction cs with
  | nil => rfl
  | cons c cs ih =>
    have happend : narrowed (guardedChars (c :: cs)) =
        narrowed (guardedChars [c]) ++ narrowed (guardedChars cs) := by
      simp [narrowed, guardedChars]
    rw [decode] at ih ⊢
    rw [happend, decodeFrom_guarded, ih]
    rfl

omit [CharacterNames] in
/-- Characters are told apart by their code points. -/
theorem ofChar_inj {c d : Char} : CodePoint.ofChar c = CodePoint.ofChar d ↔ c = d := by
  constructor
  · intro h
    have := congrArg CodePoint.toChar? h
    simpa [CodePoint.toChar?_ofChar] using this
  · intro h
    rw [h]

omit [CharacterNames] in
/-- Guarding a text is guarding its characters. -/
theorem guarded_map (cs : List Char) :
    Syntax.guarded (cs.map CodePoint.ofChar) = (guardedChars cs).map CodePoint.ofChar := by
  simp only [Syntax.guarded, guardedChars, List.flatMap_map, List.map_flatMap, ofChar_inj]
  congr 1
  funext c
  split <;> rfl

end Text.Escape

end AnonymousObjects
