import AnonymousObjects.Syntax.Expr

/-!
# The text of an expression

Expressions are written with single blanks around operators and without line breaks. String
literals are written with a backslash before each backslash and quotation mark, and no other
escapes.
-/

namespace AnonymousObjects.Syntax

/-- The text of a value by itself. -/
def LiteralValue.toText : LiteralValue → Text
  | .none => Text.ofString "None"
  | .int n => Text.ofString (toString n)
  | .bool true => Text.ofString "True"
  | .bool false => Text.ofString "False"
  | .text t => t

/-- Whether a value counts as true. -/
def LiteralValue.holds : LiteralValue → Bool
  | .none => false
  | .int n => n != 0
  | .bool b => b
  | .text t => !t.isEmpty

/-- A backslash before every backslash and quotation mark. -/
def guarded (t : Text) : Text :=
  t.flatMap fun p =>
    if p = CodePoint.ofChar '\\' ∨ p = CodePoint.ofChar '"' then [CodePoint.ofChar '\\', p] else [p]

/-- The text of a literal. -/
def Literal.toText (l : Literal) : Text :=
  match l.kind with
  | .null => Text.ofString "null"
  | .bool => Text.ofString (if l.value.holds then "true" else "false")
  | .string => CodePoint.ofChar '"' :: guarded l.value.toText ++ [CodePoint.ofChar '"']
  | .int | .other _ => l.value.toText

/-- The text of the name in front of an initializer. -/
def labelText : Option Name → Text
  | none => []
  | some name => Text.ofString (name.text ++ " = ")

namespace Expr

mutual

/-- The text of an expression. -/
def toText : Expr → Text
  | identifier name => Text.ofString name.text
  | memberAccess _ target name => toText target ++ Text.ofString ("." ++ name.text)
  | qualifiedName _ left right => toText left ++ Text.ofString ("::" ++ right.text)
  | conditionalAccess _ target access => toText target ++ Text.ofString "?" ++ toText access
  | memberBinding _ name => Text.ofString ("." ++ name.text)
  | invocation _ callee arguments =>
    toText callee ++ Text.ofString "(" ++ Text.joinWith (Text.ofString ", ") (toTexts arguments)
      ++ Text.ofString ")"
  | literal _ value => value.toText
  | binary _ op left right => toText left ++ Text.ofString (" " ++ op ++ " ") ++ toText right
  | parenthesized _ inner => Text.ofString "(" ++ toText inner ++ Text.ofString ")"
  | creation _ _ initializers =>
    Text.ofString "new \x7b " ++
      Text.joinWith (Text.ofString ", ") (initializersToTexts initializers) ++
      Text.ofString " \x7d"
  | error _ s => Text.ofString s

/-- The texts of expressions. -/
def toTexts : List Expr → List Text
  | [] => []
  | e :: es => toText e :: toTexts es

/-- The texts of initializers. -/
def initializersToTexts : List (Initializer Expr) → List Text
  | [] => []
  | ⟨_, label, value⟩ :: rest => (labelText label ++ toText value) :: initializersToTexts rest

end

end Expr

end AnonymousObjects.Syntax
