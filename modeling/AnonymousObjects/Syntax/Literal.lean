import AnonymousObjects.Syntax.Expr
import AnonymousObjects.Syntax.Token
import AnonymousObjects.Text.Decimal
import AnonymousObjects.Text.Escape

/-!
# Literals from tokens

What number or string tokens stand for. A token may be well formed and stand for nothing: a string
with a malformed escape, or an integer with too many digits. `Token.fault?` says when.
-/

namespace AnonymousObjects.Syntax

/-- Why a token stands for no value. -/
inductive LiteralFault where
  | badEscape (fault : Text.Escape.Fault)
  | longInteger (digits : Nat)
deriving DecidableEq, Repr

namespace Token

/-- The characters of a string token between its quotation marks. -/
def content (t : Token) : List Char :=
  t.text.toList.tail.dropLast

variable [Text.CharacterNames]

/-- Why a token stands for no value, if it does not. -/
def fault? (t : Token) : Option LiteralFault :=
  match t.kind with
  | .string =>
    match Text.Escape.decode t.content with
    | .error fault => some (.badEscape fault)
    | .ok _ => none
  | .integer =>
    if t.text.length ≤ Text.Decimal.digitLimit then none else some (.longInteger t.text.length)
  | _ => none

/-- The literal that a token is. A string with a fault counts as empty. -/
def literal? (t : Token) : Option Literal :=
  match t.kind with
  | .integer => some ⟨.int, .int (Text.Decimal.ofText t.text)⟩
  | .string =>
    some ⟨.string, .text
      (match Text.Escape.decode t.content with
      | .ok text => text
      | .error _ => [])⟩
  | .keyword .true => some ⟨.bool, .bool true⟩
  | .keyword .false => some ⟨.bool, .bool false⟩
  | .keyword .null => some ⟨.null, .none⟩
  | _ => none

end Token

end AnonymousObjects.Syntax
