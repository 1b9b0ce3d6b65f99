import Mathlib
import AnonymousObjects.Text.Utf8

/-!
# Well-formed UTF-8

The decoder is held to the table of well-formed byte sequences (`Row`). Every row is the encoding of
one character, and every character has its row (`row_iff`). Bytes decode exactly when they are
whole sequences one after another, to the characters of these sequences (`decode_eq_ok_iff`);
otherwise the error is the length of the longest prefix that is (`decode_eq_error_iff`).
-/

namespace AnonymousObjects.Text.Utf8

/-! ## The table -/

/-- A byte that continues a sequence. -/
def Continues (b : UInt8) : Prop := 0x80 ≤ b ∧ b ≤ 0xBF

/-- The six bits that a continuing byte adds. It stays closed, since a comparison of numbers that
opens it counts the subtraction out. -/
@[irreducible] def bits (b : UInt8) : Nat := b.toNat - 0x80

/-- The well-formed sequences with the number that each encodes, in the rows of the table. A second
byte with a range of its own keeps out overlong forms (`E0`, `F0`), surrogates (`ED`) and numbers
above `10FFFF` (`F4`). -/
inductive Row : List UInt8 → Nat → Prop
  | ascii {a} : a ≤ 0x7F → Row [a] a.toNat
  | two {a b} : 0xC2 ≤ a → a ≤ 0xDF → Continues b → Row [a, b] (64 * (a.toNat - 0xC0) + bits b)
  | e0 {b c} : 0xA0 ≤ b → b ≤ 0xBF → Continues c → Row [0xE0, b, c] (64 * bits b + bits c)
  | three {a b c} : 0xE1 ≤ a → a ≤ 0xEF → a ≠ 0xED → Continues b → Continues c →
      Row [a, b, c] (64 * (64 * (a.toNat - 0xE0) + bits b) + bits c)
  | ed {b c} : 0x80 ≤ b → b ≤ 0x9F → Continues c →
      Row [0xED, b, c] (64 * (64 * 13 + bits b) + bits c)
  | f0 {b c d} : 0x90 ≤ b → b ≤ 0xBF → Continues c → Continues d →
      Row [0xF0, b, c, d] (64 * (64 * bits b + bits c) + bits d)
  | four {a b c d} : 0xF1 ≤ a → a ≤ 0xF3 → Continues b → Continues c → Continues d →
      Row [a, b, c, d] (64 * (64 * (64 * (a.toNat - 0xF0) + bits b) + bits c) + bits d)
  | f4 {b c d} : 0x80 ≤ b → b ≤ 0x8F → Continues c → Continues d →
      Row [0xF4, b, c, d] (64 * (64 * (64 * 4 + bits b) + bits c) + bits d)

/-- Whole well-formed sequences, one after another. -/
def WellFormed (bytes : List UInt8) : Prop :=
  ∃ sequences : List (List UInt8), (∀ s ∈ sequences, ∃ v, Row s v) ∧ bytes = sequences.flatten

/-! ## Rows and characters -/

/-- The bytes that encode a number, by its size. -/
theorem encodeChar_ofNat {v : Nat} (h : v.isValidChar) :
    String.utf8EncodeChar (Char.ofNat v) =
      if v ≤ 0x7F then [.ofNat v]
      else if v ≤ 0x7FF then [.ofNat (v / 64 % 32 + 0xC0), .ofNat (v % 64 + 0x80)]
      else if v ≤ 0xFFFF then
        [.ofNat (v / 4096 % 16 + 0xE0), .ofNat (v / 64 % 64 + 0x80), .ofNat (v % 64 + 0x80)]
      else
        [.ofNat (v / 262144 % 8 + 0xF0), .ofNat (v / 4096 % 64 + 0x80),
          .ofNat (v / 64 % 64 + 0x80), .ofNat (v % 64 + 0x80)] := by
  have value : (Char.ofNat v).val.toNat = v := by
    simp [Char.ofNat, h, Char.ofNatAux]
  simp only [String.utf8EncodeChar, value]

/-- Bytes that encode the character of a number. -/
def Encodes (s : List UInt8) (v : Nat) : Prop :=
  v.isValidChar ∧ s = String.utf8EncodeChar (Char.ofNat v)

section Numbers

variable {a b c d : UInt8} {v : Nat}

/-- The bytes that continue a sequence, as numbers. -/
theorem Continues.iff_toNat : Continues b ↔ 0x80 ≤ b.toNat ∧ b.toNat ≤ 0xBF := by
  simp only [Continues, UInt8.le_iff_toNat_le, UInt8.reduceToNat]

/-- A byte that continues a sequence adds six bits. -/
theorem Continues.bits_lt (hb : Continues b) : bits b < 64 := by
  have := iff_toNat.mp hb
  unfold bits
  omega

/-- Two bytes encode a character of eleven bits. -/
theorem encodeChar_two (ha : 0xC2 ≤ a.toNat) (ha' : a.toNat ≤ 0xDF) (hb : Continues b)
    (hv : 64 * (a.toNat - 0xC0) + bits b = v) :
    Encodes [a, b] v := by
  rw [Continues.iff_toNat] at hb
  unfold bits at hv
  have valid : v.isValidChar := .inl (by omega)
  refine ⟨valid, ?_⟩
  rw [encodeChar_ofNat valid, if_neg (by omega), if_pos (by omega)]
  simp only [List.cons.injEq, ← UInt8.toNat_inj, UInt8.toNat_ofNat', and_true]
  omega

/-- Three bytes whose number needs three and is no surrogate. -/
theorem encodeChar_three (ha : 0xE0 ≤ a.toNat) (ha' : a.toNat ≤ 0xEF) (hb : Continues b)
    (hc : Continues c) (hv : 64 * (64 * (a.toNat - 0xE0) + bits b) + bits c = v)
    (long : 0x7FF < v) (scalar : v < 0xD800 ∨ 0xDFFF < v) :
    Encodes [a, b, c] v := by
  rw [Continues.iff_toNat] at hb hc
  unfold bits at hv
  have valid : v.isValidChar := scalar.imp_right fun h => ⟨h, by omega⟩
  refine ⟨valid, ?_⟩
  rw [encodeChar_ofNat valid, if_neg (by omega), if_neg (by omega), if_pos (by omega)]
  simp only [List.cons.injEq, ← UInt8.toNat_inj, UInt8.toNat_ofNat', and_true]
  omega

/-- Four bytes whose number needs four and is not too large. -/
theorem encodeChar_four (ha : 0xF0 ≤ a.toNat) (ha' : a.toNat ≤ 0xF4) (hb : Continues b)
    (hc : Continues c) (hd : Continues d)
    (hv : 64 * (64 * (64 * (a.toNat - 0xF0) + bits b) + bits c) + bits d = v)
    (long : 0xFFFF < v) (scalar : v ≤ 0x10FFFF) :
    Encodes [a, b, c, d] v := by
  rw [Continues.iff_toNat] at hb hc hd
  unfold bits at hv
  have valid : v.isValidChar := .inr ⟨by omega, by omega⟩
  refine ⟨valid, ?_⟩
  rw [encodeChar_ofNat valid, if_neg (by omega), if_neg (by omega), if_neg (by omega)]
  simp only [List.cons.injEq, ← UInt8.toNat_inj, UInt8.toNat_ofNat', and_true]
  omega

end Numbers

/-- A row is the encoding of a character. -/
theorem Row.encodes {s : List UInt8} {v : Nat} (h : Row s v) :
    Encodes s v := by
  -- The bounds on the first two bytes keep the number within its length and within the scalar
  -- values: `E0` and `F0` exclude short numbers, `ED` surrogates, `F4` what is above `10FFFF`.
  cases h with
  | @ascii a ha =>
    simp only [UInt8.le_iff_toNat_le, UInt8.reduceToNat] at ha
    have valid : a.toNat.isValidChar := .inl (by omega)
    refine ⟨valid, ?_⟩
    rw [encodeChar_ofNat valid, if_pos ha, UInt8.ofNat_toNat]
  | two ha ha' hb =>
    simp only [UInt8.le_iff_toNat_le, UInt8.reduceToNat] at ha ha'
    exact encodeChar_two ha ha' hb rfl
  | @e0 b c hb hb' hc =>
    simp only [UInt8.le_iff_toNat_le, UInt8.reduceToNat] at hb hb'
    have lead : (0xE0 : UInt8).toNat = 0xE0 := rfl
    have long : 32 ≤ bits b ∧ bits b < 64 := by unfold bits; omega
    have rest := hc.bits_lt
    exact encodeChar_three (by omega) (by omega) (Continues.iff_toNat.mpr ⟨by omega, hb'⟩) hc
      (by omega) (by omega) (by omega)
  | @three a b c ha ha' surrogate hb hc =>
    simp only [UInt8.le_iff_toNat_le, UInt8.reduceToNat, ne_eq, ← UInt8.toNat_inj]
      at ha ha' surrogate
    have second := hb.bits_lt
    have rest := hc.bits_lt
    exact encodeChar_three (by omega) (by omega) hb hc rfl (by omega) (by omega)
  | @ed b c hb hb' hc =>
    simp only [UInt8.le_iff_toNat_le, UInt8.reduceToNat] at hb hb'
    have lead : (0xED : UInt8).toNat = 0xED := rfl
    have scalar : bits b < 32 := by unfold bits; omega
    have rest := hc.bits_lt
    exact encodeChar_three (by omega) (by omega) (Continues.iff_toNat.mpr ⟨hb, by omega⟩) hc
      (by omega) (by omega) (by omega)
  | @f0 b c d hb hb' hc hd =>
    simp only [UInt8.le_iff_toNat_le, UInt8.reduceToNat] at hb hb'
    have lead : (0xF0 : UInt8).toNat = 0xF0 := rfl
    have long : 16 ≤ bits b ∧ bits b < 64 := by unfold bits; omega
    have third := hc.bits_lt
    have rest := hd.bits_lt
    exact encodeChar_four (by omega) (by omega) (Continues.iff_toNat.mpr ⟨by omega, hb'⟩) hc hd
      (by omega) (by omega) (by omega)
  | @four a b c d ha ha' hb hc hd =>
    simp only [UInt8.le_iff_toNat_le, UInt8.reduceToNat] at ha ha'
    have second := hb.bits_lt
    have third := hc.bits_lt
    have rest := hd.bits_lt
    exact encodeChar_four (by omega) (by omega) hb hc hd rfl (by omega) (by omega)
  | @f4 b c d hb hb' hc hd =>
    simp only [UInt8.le_iff_toNat_le, UInt8.reduceToNat] at hb hb'
    have lead : (0xF4 : UInt8).toNat = 0xF4 := rfl
    have scalar : bits b < 16 := by unfold bits; omega
    have third := hc.bits_lt
    have rest := hd.bits_lt
    exact encodeChar_four (by omega) (by omega) (Continues.iff_toNat.mpr ⟨hb, by omega⟩) hc hd
      (by omega) (by omega) (by omega)

section Bytes

variable {n : Nat} (h : n < 256)
include h

/-- A byte has the number that it was made of. -/
theorem toNat_ofNat : (UInt8.ofNat n).toNat = n := by
  rw [UInt8.toNat_ofNat']
  omega

/-- A byte is at least what its number is at least. -/
theorem le_ofNat {k : UInt8} (hk : k.toNat ≤ n) : k ≤ .ofNat n := by
  rwa [UInt8.le_iff_toNat_le, toNat_ofNat h]

/-- A byte is at most what its number is at most. -/
theorem ofNat_le {k : UInt8} (hk : n ≤ k.toNat) : .ofNat n ≤ k := by
  rwa [UInt8.le_iff_toNat_le, toNat_ofNat h]

end Bytes

/-- A number of six bits makes a byte that continues a sequence. -/
theorem continues_ofNat {n : Nat} (h : n < 64) : Continues (.ofNat (n + 0x80)) := by
  rw [Continues.iff_toNat, toNat_ofNat (by omega)]
  omega

/-- A number of six bits makes a byte that adds those bits. -/
theorem bits_ofNat {n : Nat} (h : n < 64) : bits (.ofNat (n + 0x80)) = n := by
  unfold bits
  rw [toNat_ofNat (by omega)]
  omega

section Bits

variable {x y z w : Nat} (hy : y < 64) (hz : z < 64) (hw : w < 64)
include hy

/-- A row of two bytes for a character of eleven bits. -/
theorem Row.ofNat_two (hx : x < 32) (long : 0x7F < 64 * x + y) :
    Row [.ofNat (x + 0xC0), .ofNat (y + 0x80)] (64 * x + y) := by
  have row := Row.two (le_ofNat (k := 0xC2) (n := x + 0xC0) (by omega) (by change 0xC2 ≤ _; omega))
    (ofNat_le (k := 0xDF) (by omega) (by change _ ≤ 0xDF; omega)) (continues_ofNat hy)
  rwa [bits_ofNat hy, toNat_ofNat (by omega), Nat.add_sub_cancel] at row

include hz

/-- The bits of the first byte choose the row. -/
theorem Row.ofNat_three (hx : x < 16) (long : 0x7FF < 64 * (64 * x + y) + z)
    (scalar : (64 * (64 * x + y) + z).isValidChar) :
    Row [.ofNat (x + 0xE0), .ofNat (y + 0x80), .ofNat (z + 0x80)] (64 * (64 * x + y) + z) := by
  have lead : x = 0 ∨ x = 13 ∨ x ≠ 0 ∧ x ≠ 13 := by omega
  rcases lead with rfl | rfl | ⟨low, surrogate⟩
  · have row := Row.e0 (le_ofNat (k := 0xA0) (n := y + 0x80) (by omega) (by change 0xA0 ≤ _; omega))
      (continues_ofNat hy).2 (continues_ofNat hz)
    rw [bits_ofNat hy, bits_ofNat hz] at row
    rwa [Nat.mul_zero, Nat.zero_add, Nat.zero_add]
  · have row := Row.ed (continues_ofNat hy).1 (ofNat_le (k := 0x9F) (n := y + 0x80) (by omega) (by
      change _ ≤ 0x9F; rcases scalar with h | h <;> omega)) (continues_ofNat hz)
    rwa [bits_ofNat hy, bits_ofNat hz] at row
  · have row := Row.three (le_ofNat (k := 0xE1) (n := x + 0xE0) (by omega) (by
      change 0xE1 ≤ _; omega)) (ofNat_le (k := 0xEF) (by omega) (by change _ ≤ 0xEF; omega)) (by
        rw [ne_eq, ← UInt8.toNat_inj, toNat_ofNat (by omega)]
        change ¬ _ = 0xED
        omega) (continues_ofNat hy) (continues_ofNat hz)
    rwa [bits_ofNat hy, bits_ofNat hz, toNat_ofNat (by omega), Nat.add_sub_cancel] at row

include hw

/-- The bits of the first byte choose the row. -/
theorem Row.ofNat_four (hx : x < 8) (long : 0xFFFF < 64 * (64 * (64 * x + y) + z) + w)
    (scalar : 64 * (64 * (64 * x + y) + z) + w < 0x110000) :
    Row [.ofNat (x + 0xF0), .ofNat (y + 0x80), .ofNat (z + 0x80), .ofNat (w + 0x80)]
      (64 * (64 * (64 * x + y) + z) + w) := by
  have lead : x = 0 ∨ x = 4 ∨ 0 < x ∧ x < 4 := by omega
  rcases lead with rfl | rfl | ⟨low, high⟩
  · have row := Row.f0 (le_ofNat (k := 0x90) (n := y + 0x80) (by omega) (by change 0x90 ≤ _; omega))
      (continues_ofNat hy).2 (continues_ofNat hz) (continues_ofNat hw)
    rw [bits_ofNat hy, bits_ofNat hz, bits_ofNat hw] at row
    rwa [Nat.mul_zero, Nat.zero_add, Nat.zero_add]
  · have row := Row.f4 (continues_ofNat hy).1 (ofNat_le (k := 0x8F) (n := y + 0x80) (by omega) (by
      change _ ≤ 0x8F; omega)) (continues_ofNat hz) (continues_ofNat hw)
    rwa [bits_ofNat hy, bits_ofNat hz, bits_ofNat hw] at row
  · have row := Row.four (le_ofNat (k := 0xF1) (n := x + 0xF0) (by omega) (by
      change 0xF1 ≤ _; omega)) (ofNat_le (k := 0xF3) (by omega) (by change _ ≤ 0xF3; omega))
      (continues_ofNat hy) (continues_ofNat hz) (continues_ofNat hw)
    rwa [bits_ofNat hy, bits_ofNat hz, bits_ofNat hw, toNat_ofNat (by omega),
      Nat.add_sub_cancel] at row

end Bits

/-- Every character has its row. -/
theorem Encodes.row {s : List UInt8} {v : Nat} (h : Encodes s v) : Row s v := by
  obtain ⟨valid, rfl⟩ := h
  have bound : v < 0x110000 := by rcases valid with h | h <;> omega
  have six : ∀ n : Nat, n % 64 < 64 := fun n => Nat.mod_lt n (by decide)
  rw [encodeChar_ofNat valid]
  split_ifs with one two three
  · have row := Row.ascii (ofNat_le (k := 0x7F) (by omega) one)
    rwa [toNat_ofNat (by omega)] at row
  · have value : 64 * (v / 64 % 32) + v % 64 = v := by omega
    have row := Row.ofNat_two (x := v / 64 % 32) (six v) (by omega) (by omega)
    rwa [value] at row
  · have value : 64 * (64 * (v / 4096 % 16) + v / 64 % 64) + v % 64 = v := by omega
    have row := Row.ofNat_three (x := v / 4096 % 16) (six (v / 64)) (six v) (by omega) (by omega)
      (by rwa [value])
    rwa [value] at row
  · have value :
        64 * (64 * (64 * (v / 262144 % 8) + v / 4096 % 64) + v / 64 % 64) + v % 64 = v := by
      omega
    have row := Row.ofNat_four (x := v / 262144 % 8) (six (v / 4096)) (six (v / 64)) (six v)
      (by omega) (by omega) (by omega)
    rwa [value] at row

/-- The rows of the table are the encodings of the characters. -/
theorem row_iff {s : List UInt8} {v : Nat} : Row s v ↔ Encodes s v :=
  ⟨Row.encodes, Encodes.row⟩

/-! ## Reading a sequence -/

/-- The sequence after one more byte. -/
def Sequence.extend (s : Sequence) (b : UInt8) : Sequence :=
  ⟨s.start, s.missing - 1, 0x80, 0xBF, 64 * s.value + bits b⟩

/-- Bytes that end a sequence, and the number that it then encodes. -/
inductive Ends : Sequence → List UInt8 → Nat → Prop
  | last {s b} : s.missing ≤ 1 → s.low ≤ b → b ≤ s.high → Ends s [b] (64 * s.value + bits b)
  | more {s b bs v} : 1 < s.missing → s.low ≤ b → b ≤ s.high → Ends (s.extend b) bs v →
      Ends s (b :: bs) v

section Reading

variable {s : Sequence} {b : UInt8} {bs rest : List UInt8} {v : Nat}

/-- The bits that a byte adds, as a difference. -/
theorem bits_eq : bits b = b.toNat - 0x80 := by
  unfold bits
  rfl

/-- The last byte of a sequence ends it with its character. -/
theorem decodeFrom_last (offset : Nat) (last : s.missing ≤ 1) (low : s.low ≤ b)
    (high : b ≤ s.high) :
    decodeFrom offset (some s) (b :: bs) =
      (Char.ofNat (64 * s.value + bits b) :: ·) <$> decodeFrom (offset + 1) none bs := by
  rw [bits_eq, decodeFrom, if_pos ⟨low, high⟩, if_pos last]

/-- A byte before the last extends the sequence. -/
theorem decodeFrom_more (offset : Nat) (more : 1 < s.missing) (low : s.low ≤ b)
    (high : b ≤ s.high) :
    decodeFrom offset (some s) (b :: bs) = decodeFrom (offset + 1) (some (s.extend b)) bs := by
  rw [Sequence.extend, bits_eq, decodeFrom, if_pos ⟨low, high⟩, if_neg (Nat.not_le.mpr more)]

/-- Bytes that end a sequence decode to its character. -/
theorem Ends.decodeFrom_append (h : Ends s bs v) (offset : Nat) :
    decodeFrom offset (some s) (bs ++ rest) =
      (Char.ofNat v :: ·) <$> decodeFrom (offset + bs.length) none rest := by
  induction h generalizing offset with
  | last last low high => exact decodeFrom_last offset last low high
  | more more low high _ ih =>
    rw [List.cons_append, decodeFrom_more offset more low high, ih, List.length_cons, Nat.add_assoc,
      Nat.add_comm 1]

/-- Bytes of which no prefix ends the sequence are refused where it starts. -/
theorem decodeFrom_eq_error (h : ∀ before v, before <+: bs → ¬ Ends s before v) (offset : Nat) :
    decodeFrom offset (some s) bs = .error s.start := by
  induction bs generalizing s offset with
  | nil => rfl
  | cons b bs ih =>
    by_cases range : s.low ≤ b ∧ b ≤ s.high
    · rcases Nat.lt_or_ge 1 s.missing with more | last
      · rw [decodeFrom_more offset more range.1 range.2]
        exact ih (fun before v hb ends => h (b :: before) v (List.cons_prefix_cons.mpr ⟨rfl, hb⟩)
          (.more more range.1 range.2 ends)) _
      · exact absurd (.last last range.1 range.2) (h [b] _ (List.prefix_append [b] bs))
    · rw [decodeFrom, if_neg range]

/-- One byte ends a sequence that is missing one. -/
theorem ends_one {start value : Nat} {low high : UInt8} :
    Ends ⟨start, 1, low, high, value⟩ bs v ↔
      ∃ b, bs = [b] ∧ low ≤ b ∧ b ≤ high ∧ v = 64 * value + bits b := by
  constructor
  · intro h
    cases h with
    | last _ low high => exact ⟨_, rfl, low, high, by dsimp only⟩
    | more more => exact absurd more (Nat.lt_irrefl 1)
  · rintro ⟨b, rfl, low, high, rfl⟩
    exact .last (Nat.le_refl 1) low high

/-- A byte and what ends the rest end a sequence that is missing more. -/
theorem ends_more {start missing value : Nat} {low high : UInt8} :
    Ends ⟨start, missing + 2, low, high, value⟩ bs v ↔
      ∃ b rest, bs = b :: rest ∧ low ≤ b ∧ b ≤ high ∧
        Ends ⟨start, missing + 1, 0x80, 0xBF, 64 * value + bits b⟩ rest v := by
  constructor
  · intro h
    cases h with
    | last last => exact absurd last (by simp)
    | more _ low high ends => exact ⟨_, _, rfl, low, high, ends⟩
  · rintro ⟨b, rest, rfl, low, high, ends⟩
    exact .more (by simp) low high ends

/-- A first byte above `7F` starts a sequence exactly when it has a row, and the bytes that end the
sequence are the rest of the row. -/
theorem exists_ends_iff (start : Nat) {a : UInt8} :
    (∃ s, Sequence.ofLead? start a = some s ∧ Ends s bs v) ↔ 0x80 ≤ a ∧ Row (a :: bs) v := by
  constructor
  · rintro ⟨s, lead, ends⟩
    simp only [Sequence.ofLead?] at lead
    -- The first byte tells the row; the bytes after it are then taken off one at a time.
    split_ifs at lead with c2 e0 isE0 isED f0 isF0 f4 isF4 <;> cases lead
    · obtain ⟨b, rfl, hb, hb', rfl⟩ := ends_one.mp ends
      exact ⟨by grind, .two (UInt8.not_lt.mp c2) (by grind) ⟨hb, hb'⟩⟩
    · obtain ⟨b, _, rfl, hb, hb', ends⟩ := ends_more.mp ends
      obtain ⟨c, rfl, hc, hc', rfl⟩ := ends_one.mp ends
      subst isE0
      rw [Nat.mul_zero, Nat.zero_add]
      exact ⟨by decide, .e0 hb hb' ⟨hc, hc'⟩⟩
    · obtain ⟨b, _, rfl, hb, hb', ends⟩ := ends_more.mp ends
      obtain ⟨c, rfl, hc, hc', rfl⟩ := ends_one.mp ends
      subst isED
      exact ⟨by decide, .ed hb hb' ⟨hc, hc'⟩⟩
    · obtain ⟨b, _, rfl, hb, hb', ends⟩ := ends_more.mp ends
      obtain ⟨c, rfl, hc, hc', rfl⟩ := ends_one.mp ends
      exact ⟨by grind, .three (by grind) (by grind) isED ⟨hb, hb'⟩ ⟨hc, hc'⟩⟩
    · obtain ⟨b, _, rfl, hb, hb', ends⟩ := ends_more.mp ends
      obtain ⟨c, _, rfl, hc, hc', ends⟩ := ends_more.mp ends
      obtain ⟨d, rfl, hd, hd', rfl⟩ := ends_one.mp ends
      subst isF0
      rw [Nat.mul_zero, Nat.zero_add]
      exact ⟨by decide, .f0 hb hb' ⟨hc, hc'⟩ ⟨hd, hd'⟩⟩
    · obtain ⟨b, _, rfl, hb, hb', ends⟩ := ends_more.mp ends
      obtain ⟨c, _, rfl, hc, hc', ends⟩ := ends_more.mp ends
      obtain ⟨d, rfl, hd, hd', rfl⟩ := ends_one.mp ends
      exact ⟨by grind, .four (by grind) (by grind) ⟨hb, hb'⟩ ⟨hc, hc'⟩ ⟨hd, hd'⟩⟩
    · obtain ⟨b, _, rfl, hb, hb', ends⟩ := ends_more.mp ends
      obtain ⟨c, _, rfl, hc, hc', ends⟩ := ends_more.mp ends
      obtain ⟨d, rfl, hd, hd', rfl⟩ := ends_one.mp ends
      subst isF4
      exact ⟨by decide, .f4 hb hb' ⟨hc, hc'⟩ ⟨hd, hd'⟩⟩
  · rintro ⟨high, row⟩
    cases row with
    | ascii low => exact absurd (UInt8.le_trans high low) (by decide)
    | @two a b ha ha' hb =>
      have lead : Sequence.ofLead? start a = some ⟨start, 1, 0x80, 0xBF, a.toNat - 0xC0⟩ := by
        rw [Sequence.ofLead?, if_neg (UInt8.not_lt.mpr ha), if_pos (by grind)]
      exact ⟨_, lead, ends_one.mpr ⟨b, rfl, hb.1, hb.2, rfl⟩⟩
    | e0 hb hb' hc =>
      refine ⟨_, rfl, ends_more.mpr ⟨_, _, rfl, hb, hb', ends_one.mpr ⟨_, rfl, hc.1, hc.2, ?_⟩⟩⟩
      rw [Nat.mul_zero, Nat.zero_add]
    | @three a b c ha ha' surrogate hb hc =>
      have lead : Sequence.ofLead? start a = some ⟨start, 2, 0x80, 0xBF, a.toNat - 0xE0⟩ := by
        rw [Sequence.ofLead?, if_neg (by grind), if_neg (by grind), if_neg (by grind),
          if_neg surrogate, if_pos (by grind)]
      exact ⟨_, lead,
        ends_more.mpr ⟨b, [c], rfl, hb.1, hb.2, ends_one.mpr ⟨c, rfl, hc.1, hc.2, rfl⟩⟩⟩
    | ed hb hb' hc =>
      exact ⟨_, rfl, ends_more.mpr ⟨_, _, rfl, hb, hb', ends_one.mpr ⟨_, rfl, hc.1, hc.2, rfl⟩⟩⟩
    | f0 hb hb' hc hd =>
      refine ⟨_, rfl, ends_more.mpr ⟨_, _, rfl, hb, hb', ends_more.mpr ⟨_, _, rfl, hc.1, hc.2,
        ends_one.mpr ⟨_, rfl, hd.1, hd.2, ?_⟩⟩⟩⟩
      rw [Nat.mul_zero, Nat.zero_add]
    | @four a b c d ha ha' hb hc hd =>
      have lead : Sequence.ofLead? start a = some ⟨start, 3, 0x80, 0xBF, a.toNat - 0xF0⟩ := by
        rw [Sequence.ofLead?, if_neg (by grind), if_neg (by grind), if_neg (by grind),
          if_neg (by grind), if_neg (by grind), if_neg (by grind), if_pos (by grind)]
      exact ⟨_, lead, ends_more.mpr ⟨b, _, rfl, hb.1, hb.2, ends_more.mpr ⟨c, _, rfl, hc.1, hc.2,
        ends_one.mpr ⟨d, rfl, hd.1, hd.2, rfl⟩⟩⟩⟩
    | f4 hb hb' hc hd =>
      exact ⟨_, rfl, ends_more.mpr ⟨_, _, rfl, hb, hb', ends_more.mpr ⟨_, _, rfl, hc.1, hc.2,
        ends_one.mpr ⟨_, rfl, hd.1, hd.2, rfl⟩⟩⟩⟩

/-- A sequence starts where its first byte is. -/
theorem Sequence.ofLead?_start {start : Nat} {a : UInt8} (h : ofLead? start a = some s) :
    s.start = start := by
  simp only [ofLead?] at h
  split_ifs at h <;> cases h <;> rfl

/-- A row decodes to its character. -/
theorem Row.decodeFrom_append {sequence : List UInt8} (h : Row sequence v) (offset : Nat) :
    decodeFrom offset none (sequence ++ rest) =
      (Char.ofNat v :: ·) <$> decodeFrom (offset + sequence.length) none rest := by
  obtain ⟨a, bs, rfl⟩ : ∃ a bs, sequence = a :: bs := by cases h <;> exact ⟨_, _, rfl⟩
  by_cases ascii : a < 0x80
  · cases h with
    | ascii => rw [List.singleton_append, decodeFrom, if_pos ascii]; rfl
    | two ha => exact absurd (UInt8.lt_of_le_of_lt ha ascii) (by decide)
    | three ha => exact absurd (UInt8.lt_of_le_of_lt ha ascii) (by decide)
    | four ha => exact absurd (UInt8.lt_of_le_of_lt ha ascii) (by decide)
    | _ => exact absurd ascii (by decide)
  · obtain ⟨s, lead, ends⟩ := (exists_ends_iff offset).mpr ⟨UInt8.not_lt.mp ascii, h⟩
    rw [List.cons_append, decodeFrom, if_neg ascii, lead]
    simp only
    rw [ends.decodeFrom_append, List.length_cons, Nat.add_assoc, Nat.add_comm 1]

/-- Bytes that no row begins are refused at once. -/
theorem decodeFrom_eq_error_offset (nonempty : bs ≠ [])
    (h : ∀ sequence v, Row sequence v → ¬ sequence <+: bs) (offset : Nat) :
    decodeFrom offset none bs = .error offset := by
  cases bs with
  | nil => exact absurd rfl nonempty
  | cons a bs =>
    have above : ¬ a < 0x80 := fun low =>
      h [a] _ (.ascii (by grind)) (List.prefix_append [a] bs)
    rw [decodeFrom, if_neg above]
    cases lead : Sequence.ofLead? offset a with
    | none => rfl
    | some s =>
      simp only
      have unended : ∀ before v, before <+: bs → ¬ Ends s before v := fun before v hb ends =>
        h (a :: before) v ((exists_ends_iff offset).mp ⟨s, lead, ends⟩).2
          (List.cons_prefix_cons.mpr ⟨rfl, hb⟩)
      rw [decodeFrom_eq_error unended, Sequence.ofLead?_start lead]

end Reading

/-! ## Whole sequences -/

/-- The bytes that encode characters. -/
def encode (cs : List Char) : List UInt8 := cs.flatMap String.utf8EncodeChar

/-- No characters, no bytes. -/
@[simp] theorem encode_nil : encode [] = [] := rfl

/-- The bytes of the first character come first. -/
@[simp] theorem encode_cons (c : Char) (cs : List Char) :
    encode (c :: cs) = String.utf8EncodeChar c ++ encode cs := rfl

/-- The bytes of a character are a row of the table. -/
theorem row_encodeChar (c : Char) : Row (String.utf8EncodeChar c) c.toNat :=
  Encodes.row ⟨c.valid, by rw [Char.ofNat_toNat]⟩

/-- The well-formed texts are those that encode characters. -/
theorem wellFormed_iff {bytes : List UInt8} : WellFormed bytes ↔ ∃ cs, bytes = encode cs := by
  constructor
  · rintro ⟨sequences, rows, rfl⟩
    induction sequences with
    | nil => exact ⟨[], rfl⟩
    | cons s sequences ih =>
      obtain ⟨⟨v, row⟩, rows⟩ := List.forall_mem_cons.mp rows
      obtain ⟨cs, hcs⟩ := ih rows
      exact ⟨Char.ofNat v :: cs, by rw [List.flatten_cons, hcs, row.encodes.2, encode_cons]⟩
  · rintro ⟨cs, rfl⟩
    refine ⟨cs.map String.utf8EncodeChar, fun s hs => ?_, List.flatMap_def⟩
    obtain ⟨c, _, rfl⟩ := List.mem_map.mp hs
    exact ⟨_, row_encodeChar c⟩

/-- The bytes of characters decode to these characters. -/
theorem decodeFrom_encode (cs : List Char) (rest : List UInt8) (offset : Nat) :
    decodeFrom offset none (encode cs ++ rest) =
      (cs ++ ·) <$> decodeFrom (offset + (encode cs).length) none rest := by
  induction cs generalizing offset with
  | nil => simp
  | cons c cs ih =>
    rw [encode_cons, List.append_assoc, (row_encodeChar c).decodeFrom_append, ih, Char.ofNat_toNat,
      List.length_append, Nat.add_assoc, Functor.map_map]
    rfl

/-- Bytes are whole sequences and then either nothing more or something that no row begins. -/
theorem exists_encode_append (bytes : List UInt8) :
    ∃ cs rest, bytes = encode cs ++ rest ∧ ∀ s v, Row s v → ¬ s <+: rest := by
  by_cases begins : ∃ s v, Row s v ∧ s <+: bytes
  · obtain ⟨s, v, row, rest, rfl⟩ := begins
    have shorter : rest.length < (s ++ rest).length := by
      have : 0 < s.length := by cases row <;> exact Nat.succ_pos _
      rw [List.length_append]
      omega
    obtain ⟨cs, rest', rfl, stuck⟩ := exists_encode_append rest
    exact ⟨Char.ofNat v :: cs, rest', by rw [row.encodes.2, encode_cons, List.append_assoc], stuck⟩
  · exact ⟨[], bytes, rfl, fun s v row h => begins ⟨s, v, row, h⟩⟩
termination_by bytes.length

/-- The longest prefix that is whole sequences. -/
def LongestPrefix (bytes before : List UInt8) : Prop :=
  before <+: bytes ∧ WellFormed before ∧
    ∀ other, other <+: bytes → WellFormed other → other.length ≤ before.length

section Decoding

variable {bytes : List UInt8} {cs : List Char} {offset : Nat}

/-- What encodes characters decodes to them. -/
theorem decode_encode (cs : List Char) : decode (encode cs) = .ok cs := by
  have whole := decodeFrom_encode cs [] 0
  rw [List.append_nil] at whole
  rw [decode, whole, decodeFrom]
  simp

/-- An error is not before the offset from which bytes are read. -/
theorem decodeFrom_error_ge {n : Nat} (h : decodeFrom n none bytes = .error offset) :
    n ≤ offset := by
  obtain ⟨cs, rest, rfl, stuck⟩ := exists_encode_append bytes
  rw [decodeFrom_encode] at h
  cases rest with
  | nil => cases h
  | cons b rest =>
    rw [decodeFrom_eq_error_offset (List.cons_ne_nil b rest) stuck] at h
    cases h
    exact Nat.le_add_right n _

/-- Bytes decode to the characters that they encode, or the error is the length of the longest
prefix that is whole sequences. -/
theorem decode_spec (bytes : List UInt8) :
    (∃ cs, bytes = encode cs ∧ decode bytes = .ok cs) ∨
      ∃ before, LongestPrefix bytes before ∧ before.length < bytes.length ∧
        decode bytes = .error before.length := by
  obtain ⟨cs, rest, rfl, stuck⟩ := exists_encode_append bytes
  rcases Decidable.em (rest = []) with rfl | nonempty
  · rw [List.append_nil]
    exact .inl ⟨cs, rfl, decode_encode cs⟩
  -- What is left over is stuck at its first sequence, so the error is where it starts.
  · have error : decode (encode cs ++ rest) = .error (encode cs).length := by
      rw [decode, decodeFrom_encode, decodeFrom_eq_error_offset nonempty stuck, Nat.zero_add]
      rfl
    refine .inr ⟨encode cs, ⟨List.prefix_append _ rest, wellFormed_iff.mpr ⟨cs, rfl⟩, ?_⟩, ?_,
      error⟩
    -- A longer whole prefix would have been decoded past that place.
    · intro other hother whole
      obtain ⟨cs', rfl⟩ := wellFormed_iff.mp whole
      obtain ⟨rest', hrest⟩ := hother
      rw [← hrest, decode, decodeFrom_encode, Nat.zero_add] at error
      cases h : decodeFrom (encode cs').length none rest' with
      | ok cs => rw [h] at error; cases error
      | error n =>
        rw [h] at error
        cases error
        exact decodeFrom_error_ge h
    · rw [List.length_append]
      exact Nat.lt_add_of_pos_right (List.length_pos_iff.mpr nonempty)

/-- Bytes decode exactly to the characters that they encode. -/
theorem decode_eq_ok_iff : decode bytes = .ok cs ↔ bytes = encode cs := by
  constructor
  · intro h
    rcases decode_spec bytes with ⟨cs', rfl, h'⟩ | ⟨_, _, _, h'⟩
    · rw [h] at h'
      cases h'
      rfl
    · rw [h] at h'
      cases h'
  · rintro rfl
    exact decode_encode cs

/-- The error is the length of the longest prefix that is whole sequences. -/
theorem decode_eq_error_iff :
    decode bytes = .error offset ↔
      ¬ WellFormed bytes ∧ ∃ before, LongestPrefix bytes before ∧ before.length = offset := by
  constructor
  · intro h
    rcases decode_spec bytes with ⟨_, _, h'⟩ | ⟨before, longest, shorter, h'⟩ <;> rw [h] at h' <;>
      cases h'
    refine ⟨fun whole => ?_, before, longest, rfl⟩
    exact Nat.not_le.mpr shorter (longest.2.2 bytes (List.prefix_refl bytes) whole)
  · rintro ⟨broken, before, longest, rfl⟩
    rcases decode_spec bytes with ⟨cs, whole, _⟩ | ⟨before', longest', _, h⟩
    · exact absurd (wellFormed_iff.mpr ⟨cs, whole⟩) broken
    · rw [h, Nat.le_antisymm (longest.2.2 before' longest'.1 longest'.2.1)
        (longest'.2.2 before longest.1 longest.2.1)]

end Decoding

/-- A surrogate is no character. -/
example : decode [0x61, 0xED, 0xA0, 0x80] = .error 1 := rfl

end AnonymousObjects.Text.Utf8
