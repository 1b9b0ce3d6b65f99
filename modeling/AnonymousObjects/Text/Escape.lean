import AnonymousObjects.Text.CharacterNames
import AnonymousObjects.Text.CodePoint
import AnonymousObjects.Text.Quoted

/-!
# Escapes in string literals

The text between the quotation marks of a string literal stands for code points. `decode` first
spells every character above `U+00FF` as an escape of its own (`narrowed`), then reads escapes
from left to right: a backslash with a recognised letter or octal digits is one code point, and so
is the name of a character between braces behind `\N`; a backslash before any other character
stands for both, and a malformed escape is a `Fault`.
-/

namespace AnonymousObjects.Text.Escape

/-- The forms of escape that end in a fixed number of hexadecimal digits. -/
inductive HexForm where
  | byte
  | short
  | long
deriving DecidableEq, Repr

/-- The number of digits of a form. -/
def HexForm.width : HexForm → Nat
  | .byte => 2
  | .short => 4
  | .long => 8

/-- The form that a letter after a backslash announces. -/
def HexForm.ofLetter? : Char → Option HexForm
  | 'x' => some .byte
  | 'u' => some .short
  | 'U' => some .long
  | _ => none

/-- Why a text between quotation marks denotes nothing. -/
inductive Fault where
  | truncated (form : HexForm)
  | illegalCodePoint
  | malformedName
  | unknownName
  | loneBackslash
deriving DecidableEq, Repr

/-- The words for a fault. -/
def Fault.reason : Fault → String
  | .truncated .byte => "truncated \\xXX escape"
  | .truncated .short => "truncated \\uXXXX escape"
  | .truncated .long => "truncated \\UXXXXXXXX escape"
  | .illegalCodePoint => "illegal Unicode character"
  | .malformedName => "malformed \\N character escape"
  | .unknownName => "unknown Unicode character name"
  | .loneBackslash => "\\ at end of string"

/-- The character of an escape of one letter. -/
def single? : Char → Option Char
  | '\\' => some '\\'
  | '\'' => some '\''
  | '"' => some '"'
  | 'a' => some '\x07'
  | 'b' => some '\x08'
  | 't' => some '\t'
  | 'n' => some '\n'
  | 'v' => some '\x0b'
  | 'f' => some '\x0c'
  | 'r' => some '\r'
  | _ => none

/-- The value of an octal digit. -/
def octal? (c : Char) : Option Nat :=
  if '0' ≤ c ∧ c ≤ '7' then some (c.toNat - 48) else none

/-- The code point of a number, unless it is too large. -/
def codePoint? (n : Nat) : Option CodePoint :=
  if h : n < 0x110000 then some ⟨n, h⟩ else none

/-- The character that a text between braces names. -/
def named [CharacterNames] (name : List Char) : Except Fault Char :=
  if name.isEmpty then .error .malformedName
  else
    match CharacterNames.find? name with
    | some c => .ok c
    | none => .error .unknownName

/-- How far an escape has been read. `octal` and `hex` hold the number of digits that may still
come, at least one, and the value of those read; `named` stands behind `\N`, and `name` holds the
characters read between the braces there, in reverse. -/
inductive Reading where
  | plain
  | backslash
  | octal (left value : Nat)
  | hex (form : HexForm) (left value : Nat)
  | named
  | name (reversed : List Char)

/-- The code points that a text stands for, from a point inside it. -/
def decodeFrom [CharacterNames] : Reading → List Char → Except Fault Text
  | .plain, [] => .ok []
  | .plain, c :: cs =>
    if c = '\\' then decodeFrom .backslash cs
    else (CodePoint.ofChar c :: ·) <$> decodeFrom .plain cs
  | .backslash, [] => .error .loneBackslash
  | .backslash, c :: cs =>
    match single? c, octal? c, HexForm.ofLetter? c with
    | some d, _, _ => (CodePoint.ofChar d :: ·) <$> decodeFrom .plain cs
    | none, some n, _ => decodeFrom (.octal 2 n) cs
    | none, none, some form => decodeFrom (.hex form form.width 0) cs
    | none, none, none =>
      if c = 'N' then decodeFrom .named cs
      else (CodePoint.ofChar '\\' :: CodePoint.ofChar c :: ·) <$> decodeFrom .plain cs
  | .octal _ value, [] => .ok (codePoint? value).toList
  | .octal left value, c :: cs =>
    match octal? c with
    | some n =>
      if left ≤ 1 then ((codePoint? (8 * value + n)).toList ++ ·) <$> decodeFrom .plain cs
      else decodeFrom (.octal (left - 1) (8 * value + n)) cs
    | none =>
      if c = '\\' then ((codePoint? value).toList ++ ·) <$> decodeFrom .backslash cs
      else
        ((codePoint? value).toList ++ CodePoint.ofChar c :: ·) <$> decodeFrom .plain cs
  | .hex form _ _, [] => .error (.truncated form)
  | .hex form left value, c :: cs =>
    match Hex.value? c with
    | none => .error (.truncated form)
    | some n =>
      if left ≤ 1 then
        match codePoint? (16 * value + n) with
        | none => .error .illegalCodePoint
        | some p => (p :: ·) <$> decodeFrom .plain cs
      else decodeFrom (.hex form (left - 1) (16 * value + n)) cs
  | .named, [] => .error .malformedName
  | .named, c :: cs => if c = '\x7b' then decodeFrom (.name []) cs else .error .malformedName
  | .name _, [] => .error .malformedName
  | .name reversed, c :: cs =>
    if c = '\x7d' then
      match named reversed.reverse with
      | .error fault => .error fault
      | .ok d => (CodePoint.ofChar d :: ·) <$> decodeFrom .plain cs
    else decodeFrom (.name (c :: reversed)) cs

/-- A text in which every character above `U+00FF` is spelled as an escape. A backslash that
stood before such a character stands before the backslash of its escape afterwards. -/
def narrowed (cs : List Char) : List Char :=
  cs.flatMap fun c => if c.toNat ≤ 0xFF then [c] else Quoted.codeEscape c.toNat

/-- The code points that the text between the quotation marks of a literal stands for. -/
def decode [CharacterNames] (cs : List Char) : Except Fault Text :=
  decodeFrom .plain (narrowed cs)

end AnonymousObjects.Text.Escape
