import AnonymousObjects.Diagnostic
import AnonymousObjects.Syntax.Parse
import AnonymousObjects.Text.Utf8

/-!
# Documents

A document is a source text or the bytes of a file, read into a program or into the one diagnostic
that says why not. Bytes that are not UTF-8 are reported at the first byte that does not decode,
with a column that counts bytes. An integer with too many digits is no diagnostic but a failure of
its own.
-/

namespace AnonymousObjects.Syntax

variable [Text.CharacterNames]

/-- What becomes of a document. -/
inductive Document where
  | program (p : Program)
  | refused (d : Diagnostic)
  | longInteger (digits : Nat)

namespace Document

/-- The diagnostic for a syntax error. -/
def report (file : Option String) (e : SyntaxError) : Diagnostic :=
  { message := Text.ofString e.message, code := none, phase := "parser", severity := "error"
    span := .ofPosition file (some e.position) }

/-- The document of a source text. -/
def ofText (file : Option String) (source : List Char) : Document :=
  match Program.parse source with
  | .ok p => .program p
  | .error (.refused e) => .refused (report file e)
  | .error (.longInteger digits) => .longInteger digits

/-- The position of a byte: one line for each line feed before it, and one column for each byte
after the last of them. -/
def bytePosition (bytes : List UInt8) (offset : Nat) : Position :=
  let before := bytes.take offset
  ⟨before.count 0x0A + 1, (before.reverse.takeWhile (· ≠ 0x0A)).length + 1⟩

/-- The diagnostic for bytes that do not decode from an offset on. -/
def reportByte (file : String) (bytes : List UInt8) (offset : Nat) : Diagnostic :=
  let shown := String.ofList (Text.Hex.digits 2 (bytes[offset]?.getD 0).toNat)
  { message := Text.ofString
      ("source is not valid UTF-8: cannot decode byte 0x" ++ shown ++ " at offset " ++
        toString offset)
    code := none, phase := "parser", severity := "error"
    span := .ofPosition (some file) (some (bytePosition bytes offset)) }

/-- The document of the bytes of a file. -/
def ofBytes (file : String) (bytes : List UInt8) : Document :=
  match Text.Utf8.decode bytes with
  | .error offset => .refused (reportByte file bytes offset)
  | .ok source => ofText (some file) source

end Document

end AnonymousObjects.Syntax
