import Mathlib
import AnonymousObjects.Syntax.Document
import AnonymousObjects.Proofs.Text.Utf8

/-!
# Files that are not UTF-8

A file is read as the text that its bytes encode. Bytes that encode no text are reported instead, at
the end of the longest prefix that is whole sequences, with a line and a column that count line
feeds and bytes (`Document.ofBytes_read_or_reported`).
-/

namespace AnonymousObjects.Syntax.Document

open Text.Utf8

/-- Bytes end in a line without a line feed, at the start or right after the last line feed. -/
theorem exists_lastLine (bytes : List UInt8) :
    ∃ line, 0x0A ∉ line ∧ (bytes = line ∨ ∃ lines, bytes = lines ++ 0x0A :: line) ∧
      (bytes.reverse.takeWhile (· ≠ 0x0A)).length = line.length := by
  refine ⟨(bytes.reverse.takeWhile (· ≠ 0x0A)).reverse, fun feed => ?_, ?_,
    List.length_reverse.symm⟩
  · simpa using List.mem_takeWhile_imp (List.mem_reverse.mp feed)
  · have split := congrArg List.reverse
      (List.takeWhile_append_dropWhile (p := (· ≠ (0x0A : UInt8))) (l := bytes.reverse))
    rw [List.reverse_append, List.reverse_reverse] at split
    cases h : bytes.reverse.dropWhile (· ≠ 0x0A) with
    | nil =>
      rw [h, List.reverse_nil, List.nil_append] at split
      exact .inl split.symm
    | cons b lines =>
      have feed := List.head_dropWhile_not (· ≠ (0x0A : UInt8)) (l := bytes.reverse)
        (by rw [h]; exact List.cons_ne_nil b lines)
      simp only [h, List.head_cons, decide_eq_false_iff_not, not_not] at feed
      rw [h, feed, List.reverse_cons, List.append_assoc, List.singleton_append] at split
      exact .inr ⟨lines.reverse, split.symm⟩

/-- A file is its text, if its bytes encode one. If not, the report is about the byte behind the
longest prefix that is whole sequences, by the line feeds before it and by the bytes between the
last of them and it. -/
theorem ofBytes_read_or_reported [Text.CharacterNames] (file : String) (bytes : List UInt8) :
    (WellFormed bytes ∧ ∃ cs, bytes = encode cs ∧ decode bytes = .ok cs ∧
        ofBytes file bytes = ofText (some file) cs) ∨
      (¬ WellFormed bytes ∧ ∃ before b after line,
        bytes = before ++ b :: after ∧ LongestPrefix bytes before ∧
        decode bytes = .error before.length ∧
        0x0A ∉ line ∧ (before = line ∨ ∃ lines, before = lines ++ 0x0A :: line) ∧
        ofBytes file bytes = .refused
          { message := Text.ofString ("source is not valid UTF-8: cannot decode byte 0x" ++
              String.ofList (Text.Hex.digits 2 b.toNat) ++ " at offset " ++ toString before.length)
            code := none, phase := "parser", severity := "error"
            span := { file := some file, line := some (before.count 0x0A + 1 : Nat)
                      column := some (line.length + 1 : Nat) } }) := by
  rcases decode_spec bytes with ⟨cs, encoded, decoded⟩ | ⟨before, longest, shorter, refused⟩
  · exact .inl ⟨wellFormed_iff.mpr ⟨cs, encoded⟩, cs, encoded, decoded, by rw [ofBytes, decoded]⟩
  · obtain ⟨line, unbroken, last, length⟩ := exists_lastLine before
    obtain ⟨rest, rfl⟩ := longest.1
    -- The prefix is not everything, so there is a byte behind it to report.
    obtain ⟨b, after, rfl⟩ : ∃ b after, rest = b :: after := by
      cases rest with
      | nil => exact absurd shorter (by simp)
      | cons b after => exact ⟨b, after, rfl⟩
    refine .inr ⟨(decode_eq_error_iff.mp refused).1, before, b, after, line, rfl, longest, refused,
      unbroken, last, ?_⟩
    rw [ofBytes, refused]
    simp only [reportByte, bytePosition, List.take_left, length, Span.ofPosition]
    rw [List.getElem?_append_right (Nat.le_refl _), Nat.sub_self]
    rfl

end AnonymousObjects.Syntax.Document
