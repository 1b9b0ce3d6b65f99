/-!
# Strict UTF-8

`decode` turns bytes into characters. It accepts well-formed sequences only: no overlong forms, no
surrogates, nothing above `U+10FFFF`, no sequence cut short. Otherwise it gives the offset of the
first byte that begins no well-formed sequence.
-/

namespace AnonymousObjects.Text.Utf8

/-- A sequence of which some bytes are still to come: where it starts, how many bytes are missing,
the range of the next one, and the bits read. -/
structure Sequence where
  start : Nat
  missing : Nat
  low : UInt8
  high : UInt8
  value : Nat

/-- The sequence that a byte above `0x7F` starts. The range of the second byte excludes overlong
forms, surrogates and values above `U+10FFFF`. -/
def Sequence.ofLead? (start : Nat) (b : UInt8) : Option Sequence :=
  if b < 0xC2 then none
  else if b < 0xE0 then some ⟨start, 1, 0x80, 0xBF, b.toNat - 0xC0⟩
  else if b = 0xE0 then some ⟨start, 2, 0xA0, 0xBF, 0⟩
  else if b = 0xED then some ⟨start, 2, 0x80, 0x9F, 13⟩
  else if b < 0xF0 then some ⟨start, 2, 0x80, 0xBF, b.toNat - 0xE0⟩
  else if b = 0xF0 then some ⟨start, 3, 0x90, 0xBF, 0⟩
  else if b < 0xF4 then some ⟨start, 3, 0x80, 0xBF, b.toNat - 0xF0⟩
  else if b = 0xF4 then some ⟨start, 3, 0x80, 0x8F, 4⟩
  else none

/-- The characters of bytes from an offset on, in the middle of a sequence or between two. The
error is the offset at which the first ill-formed sequence starts. -/
def decodeFrom : Nat → Option Sequence → List UInt8 → Except Nat (List Char)
  | _, none, [] => .ok []
  | _, some s, [] => .error s.start
  | offset, none, b :: bs =>
    if b < 0x80 then (Char.ofNat b.toNat :: ·) <$> decodeFrom (offset + 1) none bs
    else
      match Sequence.ofLead? offset b with
      | none => .error offset
      | some s => decodeFrom (offset + 1) (some s) bs
  | offset, some s, b :: bs =>
    if s.low ≤ b ∧ b ≤ s.high then
      if s.missing ≤ 1 then
        (Char.ofNat (64 * s.value + (b.toNat - 0x80)) :: ·) <$> decodeFrom (offset + 1) none bs
      else
        decodeFrom (offset + 1)
          (some ⟨s.start, s.missing - 1, 0x80, 0xBF, 64 * s.value + (b.toNat - 0x80)⟩) bs
    else .error s.start

/-- The characters that bytes encode, or the offset of the first ill-formed sequence. -/
def decode (bytes : List UInt8) : Except Nat (List Char) :=
  decodeFrom 0 none bytes

end AnonymousObjects.Text.Utf8
